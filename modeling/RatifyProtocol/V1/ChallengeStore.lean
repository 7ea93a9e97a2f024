import RatifyProtocol.Foundation.Base64
import RatifyProtocol.Foundation.Interaction
import RatifyProtocol.Foundation.OrderedMap
import Mathlib.Data.String.Basic
set_option autoImplicit false

/-!
# V1: the challenge store

`MemoryChallengeStore` of `challenge_store.rs`.  Every operation runs under one
lock, so it is one function of the records; arithmetic is that of a release
build.  What a verification calls is a `StoreCall`; the text of a refusal is
discarded by the callers, so an answer is whether the call succeeded.
-/

namespace RatifyProtocol.V1

open Foundation

def unknownChallengeText : String :=
  "challenge was not issued by this verifier or has already been used"

structure Record where
  sessionContext : Bytes
  expiresAt : Int64
  deriving DecidableEq

/-- Pending challenges by the base64 text of the challenge. -/
structure MemoryChallengeStore where
  records : OrderedMap String Record
  maxSize : Nat

namespace MemoryChallengeStore

/-- `new`, which panics on 0. -/
def new (maxSize : Nat) : MemoryChallengeStore := ⟨.empty, maxSize⟩

/-- The key of a challenge. -/
def key (challenge : Bytes) : String := String.ofList (Base64.encodeChars challenge)

/-- `expire`: drop the records that have expired. -/
def expire (records : OrderedMap String Record) (now : Int64) : OrderedMap String Record :=
  records.filter fun _ r => decide (r.expiresAt ≥ now)

/-- `lookup`: the key of a record that can be presented. -/
def lookup (records : OrderedMap String Record) (challenge sessionContext : Bytes) (now : Int64) :
    OrderedMap String Record × Option String :=
  let records := expire records now
  match records.get? (key challenge) with
  | some r => (records, if r.sessionContext = sessionContext then some (key challenge) else none)
  | none => (records, none)

/-- `issue`, with the system clock and the challenge that is generated. -/
def issue (s : MemoryChallengeStore) (sessionContext : Bytes) (ttlSeconds now : Int64)
    (challenge : Bytes) : MemoryChallengeStore × Except String (Bytes × Int64) :=
  if sessionContext ≠ [] ∧ sessionContext.length ≠ 32 then
    (s, .error s!"session context must be empty or 32 bytes, got {sessionContext.length}")
  else if ttlSeconds ≤ 0 then
    (s, .error s!"challenge ttl must be positive, got {ttlSeconds.toInt}")
  else
    let expiresAt := now + ttlSeconds
    let records := expire s.records now
    if records.size ≥ s.maxSize then
      ({ s with records }, .error "challenge store full — too many pending challenges")
    else
      ({ s with records := records.insert (key challenge) ⟨sessionContext, expiresAt⟩ },
        .ok (challenge, expiresAt))

def validate (s : MemoryChallengeStore) (challenge sessionContext : Bytes) (now : Int64) :
    MemoryChallengeStore × Except String Unit :=
  match lookup s.records challenge sessionContext now with
  | (records, some _) => ({ s with records }, .ok ())
  | (records, none) => ({ s with records }, .error unknownChallengeText)

/-- `consume`: check and remove under one lock. -/
def consume (s : MemoryChallengeStore) (challenge sessionContext : Bytes) (now : Int64) :
    MemoryChallengeStore × Except String Unit :=
  match lookup s.records challenge sessionContext now with
  | (records, some k) => ({ s with records := records.erase k }, .ok ())
  | (records, none) => ({ s with records }, .error unknownChallengeText)

end MemoryChallengeStore

/-- A call that a verification makes. -/
inductive StoreCall where
  | validate (challenge sessionContext : Bytes) (now : Int64)
  | consume (challenge sessionContext : Bytes) (now : Int64)
  deriving DecidableEq

/-- `is_err` of an answer, negated. -/
def succeeded {α : Type} : Except String α → Bool
  | .ok _ => true
  | .error _ => false

/-- The store answers a call. -/
def MemoryChallengeStore.perform (s : MemoryChallengeStore) :
    StoreCall → MemoryChallengeStore × Bool
  | .validate challenge sessionContext now =>
    let answer := s.validate challenge sessionContext now
    (answer.1, succeeded answer.2)
  | .consume challenge sessionContext now =>
    let answer := s.consume challenge sessionContext now
    (answer.1, succeeded answer.2)

/-- What happens to a store besides verifications: challenges are issued, and
callers use it directly. -/
inductive StoreEvent where
  | issue (sessionContext : Bytes) (ttlSeconds clock : Int64) (challenge : Bytes)
  | validate (challenge sessionContext : Bytes) (now : Int64)
  | consume (challenge sessionContext : Bytes) (now : Int64)

/-- A store with the challenges it has handed out. -/
structure IssuingStore where
  store : MemoryChallengeStore
  issued : List Bytes

def IssuingStore.handle (s : IssuingStore) : StoreEvent → IssuingStore
  | .issue sessionContext ttlSeconds clock challenge =>
    match s.store.issue sessionContext ttlSeconds clock challenge with
    | (store, .ok (c, _)) => ⟨store, s.issued ++ [c]⟩
    | (store, .error _) => ⟨store, s.issued⟩
  | .validate challenge sessionContext now =>
    ⟨(s.store.validate challenge sessionContext now).1, s.issued⟩
  | .consume challenge sessionContext now =>
    ⟨(s.store.consume challenge sessionContext now).1, s.issued⟩

end RatifyProtocol.V1
