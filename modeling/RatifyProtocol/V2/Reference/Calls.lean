import RatifyProtocol.V2.Reference.Store
import Mathlib.Logic.Relation
set_option autoImplicit false

/-!
# Reference store: calls and what they change

A call on the store with its arguments, its reply, and the changes it may make.
Each operation is taken apart once, into the changes of `Change`; what follows
for whole runs is derived from them.
-/

namespace RatifyProtocol.V2

open Foundation

/-! ## Calls -/

/-- One call on the store. -/
inductive StoreCall where
  | claim (claim : V2ChallengeClaim) (owner : Except String Bytes)
  | recordProgress (claimId : String) (ownerToken : Bytes) (progress : V2EvaluationProgress)
  | finalize (claimId : String) (ownerToken terminalResult receiptBody : Bytes)
      (allowValidUntil : Int)
  | loadInterrupted (claimId : String)
  | recover (claimId : String) (terminalResult receiptBody : Bytes)
  | loadCommitted (claimId : String)
  | loadTerminal (claimId : String)
  | recordRelease (release : V2ReleaseRecord)
  | publish (claimId : String) (receiptBody : Bytes)
      (sign : V2ObjectType → Bytes → V2SignResult HybridSignature)
  | acknowledge (logId : String) (sequence : Int) (previousEntryHash entryHash : Bytes)
  | getAcknowledgement (logId : String) (sequence : Int)
  | authoritativeTime
  | setTime (now : Int)
  | setSignerFailure (failing : Bool)
  | setAcknowledgementWithheld (withheld : Bool)
  | withRateAtFinalization
  | abandonPendingReceipts

/-- What a call that was not refused answers. -/
inductive StoreReply where
  | claimed (result : V2ClaimResult)
  | progressRecorded
  | committed (fresh : Bool)
  | interrupted (claim : V2InterruptedClaim)
  | committedClaim (claim : V2CommittedClaim)
  | terminalClaim (record : V2TerminalClaimRecord)
  | releaseRecorded
  | published (wire : Bytes)
  | acknowledged (ack : V2CheckpointAcknowledgement)
  | time (now : Int)
  | configured
  | abandoned (claimIds : List String)
  deriving DecidableEq, Repr

variable {ω : Type} (P : Primitives) (anchor : StoreAnchor ω)

/-- Run one call. -/
def StoreCall.perform : StoreCall → StoreM ω StoreReply
  | claim c owner => .reply .claimed (claimV2 P anchor c owner)
  | recordProgress id token progress =>
    .reply (fun _ => .progressRecorded) (recordV2EvaluationProgress P anchor id token progress)
  | finalize id token terminal body horizon =>
    .reply .committed (finalizeV2Claim P anchor id token terminal body horizon)
  | loadInterrupted id => .reply .interrupted (loadV2InterruptedClaim id)
  | recover id terminal body =>
    .reply .committed (recoverInterruptedV2Claim anchor id terminal body)
  | loadCommitted id => .reply .committedClaim (loadV2CommittedClaim id)
  | loadTerminal id => .reply .terminalClaim (loadV2TerminalClaim P id)
  | recordRelease release => .reply (fun _ => .releaseRecorded) (recordV2Release anchor release)
  | publish id body sign => .reply .published (publishV2Receipt P anchor id body sign)
  | acknowledge logId sequence previous entry =>
    .reply .acknowledged (acknowledgeV2Receipt logId sequence previous entry)
  | getAcknowledgement logId sequence =>
    .reply .acknowledged (getV2Acknowledgement logId sequence)
  | authoritativeTime => .reply .time readClockLocked
  | setTime now => .reply (fun _ => .configured) (V2.setTime now)
  | setSignerFailure failing => .reply (fun _ => .configured) (V2.setSignerFailure failing)
  | setAcknowledgementWithheld withheld =>
    .reply (fun _ => .configured) (V2.setAcknowledgementWithheld withheld)
  | withRateAtFinalization => .reply (fun _ => .configured) V2.withRateAtFinalization
  | abandonPendingReceipts => .reply .abandoned (V2.abandonPendingReceipts anchor)

/-! ## Reading the clock -/

/-- The clock may be read: it is inside the timestamp domain and not regressed. -/
structure ClockReady (s : StoreState) : Prop where
  notRegressed : s.highWater ≤ s.now
  nonneg : 0 ≤ s.now
  bounded : s.now ≤ v2MaxTimestampSeconds

/-- The store after a reading. -/
def StoreState.ticked (s : StoreState) : StoreState := { s with highWater := s.now }

def Anchored.tick (s : Anchored ω) : Anchored ω := { s with store := s.store.ticked }

/-- A call that reads the clock or does nothing. -/
def Quiet (s t : StoreState) : Prop := t = s ∨ (ClockReady s ∧ t = s.ticked)

theorem getStore_bind {α : Type} (f : StoreState → StoreM ω α) (s : Anchored ω) :
    (getStore >>= f) s = f s.store s := rfl

theorem modifyStore_bind {α : Type} (g : StoreState → StoreState) (f : Unit → StoreM ω α)
    (s : Anchored ω) : (modifyStore g >>= f) s = f () { s with store := g s.store } := rfl

@[simp] theorem failWith_apply {α : Type} (cls : V2ErrorClass) (m : String) (s : Anchored ω) :
    (failWith cls m : StoreM ω α) s = (.error (.classified (V2Error.new cls m)), s) := rfl

theorem readClockLocked_cases (s : Anchored ω) :
    (∃ e, readClockLocked s = (.error e, s))
      ∨ (ClockReady s.store ∧ readClockLocked s = (.ok s.store.now, s.tick)) := by
  simp only [readClockLocked, getStore_bind]
  split
  · exact .inl ⟨_, rfl⟩
  split
  · exact .inl ⟨_, rfl⟩
  · rename_i hregress hdomain
    simp only [Bool.not_eq_true, Bool.not_eq_false', Bool.and_eq_true, decide_eq_true_eq] at hdomain
    exact .inr ⟨⟨not_lt.mp hregress, hdomain.1, hdomain.2⟩, rfl⟩

/-- Where a reading is followed by something. -/
theorem readClockLocked_bind_cases {α : Type} {f : Int → StoreM ω α} {s t : Anchored ω}
    {r : V2StoreResult α} (h : (readClockLocked >>= f) s = (r, t)) :
    ((∃ e, r = .error e) ∧ t = s) ∨ (ClockReady s.store ∧ f s.store.now s.tick = (r, t)) := by
  rcases readClockLocked_cases s with ⟨e, he⟩ | ⟨hready, hok⟩
  · rw [Operation.bind_apply_error he] at h
    cases h
    exact .inl ⟨⟨e, rfl⟩, rfl⟩
  · rw [Operation.bind_apply_ok hok] at h
    exact .inr ⟨hready, h⟩

/-- Where the answer of a reading is looked at. -/
theorem attempt_readClockLocked_bind_cases {α : Type}
    {f : Except V2StoreError Int → StoreM ω α} {s t : Anchored ω} {r : V2StoreResult α}
    (h : (Operation.attempt readClockLocked >>= f) s = (r, t)) :
    (∃ e, f (.error e) s = (r, t))
      ∨ (ClockReady s.store ∧ f (.ok s.store.now) s.tick = (r, t)) := by
  rcases readClockLocked_cases s with ⟨e, he⟩ | ⟨hready, hok⟩
  · refine .inl ⟨e, ?_⟩
    rw [Operation.bind_apply_ok (Operation.attempt_apply _ _), he] at h
    exact h
  · refine .inr ⟨hready, ?_⟩
    rw [Operation.bind_apply_ok (Operation.attempt_apply _ _), hok] at h
    exact h

/-! ## Anchored changes -/

/-- A change that a refusing anchor undoes completely. -/
def Undone (f : StoreState → StoreState) : Prop :=
  ∀ s, { f s with
    claims := s.claims, streams := s.streams, outbox := s.outbox,
    rateCommits := s.rateCommits, logFrozen := s.logFrozen } = s

variable {anchor}

theorem changeLocked_cases {f : StoreState → StoreState} {s t : Anchored ω}
    {r : V2StoreResult Unit} (hf : Undone f) (h : changeLocked anchor f s = (r, t)) :
    ((∃ e, r = .error e) ∧ t.store = s.store) ∨ (r = .ok () ∧ t.store = f s.store) := by
  simp only [changeLocked] at h
  split at h
  · cases h
    exact .inr ⟨rfl, rfl⟩
  split at h
  · cases h
    exact .inr ⟨rfl, rfl⟩
  · cases h
    exact .inl ⟨⟨_, rfl⟩, hf s.store⟩

theorem changeLocked_bind_cases {α : Type} {g : StoreState → StoreState}
    {f : Unit → StoreM ω α} {s t : Anchored ω} {r : V2StoreResult α} (hg : Undone g)
    (h : (changeLocked anchor g >>= f) s = (r, t)) :
    ((∃ e, r = .error e) ∧ t.store = s.store)
      ∨ ∃ u : Anchored ω, u.store = g s.store ∧ f () u = (r, t) := by
  rcases Operation.bind_cases h with ⟨e, he, hr⟩ | ⟨a, u, ha, hf⟩
  · rcases changeLocked_cases hg he with ⟨-, hs⟩ | ⟨hok, -⟩
    · exact .inl ⟨⟨e, hr⟩, hs⟩
    · simp at hok
  · rcases changeLocked_cases hg ha with ⟨⟨e, he⟩, -⟩ | ⟨-, hs⟩
    · simp at he
    · exact .inr ⟨u, hs, hf⟩

theorem undone_insertClaim (advance : Option (StreamKey × Int)) (record : ClaimRecord) :
    Undone (insertClaim advance record) := fun _ => rfl

theorem undone_commitTerminal (admitted : Bool) (finalAt : Int) (batch : List V2RateReservation)
    (claimId : String) (terminal body : Bytes) (horizon : Int) :
    Undone fun s => commitTerminalLocked claimId terminal body horizon finalAt
      (if admitted then admitBatch finalAt batch s else s) := by
  intro s
  cases admitted
  · simp only [commitTerminalLocked, Bool.false_eq_true, if_false]
    split <;> rfl
  · simp only [commitTerminalLocked, if_true]
    split <;> rfl

end RatifyProtocol.V2
