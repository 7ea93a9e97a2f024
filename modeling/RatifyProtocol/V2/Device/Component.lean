import Mathlib.Algebra.Group.Int.Defs
import RatifyProtocol.Foundation.Operation
import RatifyProtocol.V2.ReleaseRecord
set_option autoImplicit false

/-!
# Device component

`v2/reference/offline_device.rs`, the independent component: a register for the
complete-state digest its primary anchors and an append-only list of the log
entries it acknowledged.
-/

namespace RatifyProtocol.V2

open Foundation

/-! ## State -/

/-- The failures of the component and of the checkpoint on it. -/
inductive DeviceError where
  | powerLoss
  | storageFull
  | stateMismatch
  | frozen
  | notAcknowledged
  | store (e : V2StoreError)
  deriving DecidableEq, Repr

/-- The text of a device failure.  That of a store failure is its debug form, here
Lean's; nothing prints it. -/
def DeviceError.text : DeviceError → String
  | .powerLoss => "v2reference: power lost during the device checkpoint submission"
  | .storageFull => "v2reference: device checkpoint storage is full"
  | .stateMismatch => "v2reference: submission does not extend the device checkpoint head"
  | .frozen => "v2reference: device checkpoint is frozen after a conflicting entry"
  | .notAcknowledged => "v2reference: checkpoint refused the acknowledgement"
  | .store e => reprStr e

/-- Where the next submission loses power. -/
inductive DevicePowerLoss where
  | ok
  | beforeCommit
  | afterCommit
  deriving DecidableEq, Repr

/-- One signed component record. -/
structure DeviceAcknowledgement where
  logId : String
  sequence : Int
  entryHash : Bytes
  stateDigest : Bytes
  timestamp : Int
  signature : Bytes
  deriving DecidableEq, Repr

/-- `n as u64`. -/
def asU64 (n : Int) : Nat := (n % 2 ^ 64).toNat

def lpBytes (b : Bytes) : Bytes := u64BeBytes b.length ++ b

/-- The exact byte string the component signs. -/
def deviceAckMessage (a : DeviceAcknowledgement) : Bytes :=
  utf8 "ratify-test-device-checkpoint-v2\x00" ++ lpBytes (utf8 a.logId) ++ u64BeBytes (asU64 a.sequence)
    ++ lpBytes a.entryHash ++ lpBytes a.stateDigest ++ u64BeBytes (asU64 a.timestamp)

structure ComponentState where
  records : List DeviceAcknowledgement
  /-- The anchored complete-state digest; `none` until provisioned. -/
  state : Option Bytes
  frozen : Bool
  fault : DevicePowerLoss
  deriving DecidableEq, Repr

/-- A component: its signing key and its room for acknowledgements. -/
structure DeviceComponent where
  sign : Bytes → Bytes
  capacity : Nat
  capacity_pos : 1 ≤ capacity

/-- The state a component is built in. -/
def ComponentState.new : ComponentState :=
  { records := [], state := none, frozen := false, fault := .ok }

/-! ## Commands -/

abbrev ComponentM (α : Type) := Operation ComponentState DeviceError α

/-- Arm a power loss for the next submission only. -/
def setPowerLoss (fault : DevicePowerLoss) : ComponentM Unit :=
  .modify fun s => { s with fault }

/-- Anchor the primary's initial complete-state digest. -/
def provisionState (digest : Bytes) (s : ComponentState) : V2Result Unit × ComponentState :=
  if s.state.isSome || !s.records.isEmpty || digest.length != 48 then
    (plain "v2reference: device component is already provisioned or the digest is not 48 bytes", s)
  else (.ok (), { s with state := some digest })

/-- Advance the anchored complete-state digest from `previous` to `next`. -/
def anchorState (previous next : Bytes) : ComponentM Unit := fun s =>
  if s.frozen then (.error .frozen, s)
  else if s.state ≠ some previous ∨ next.length ≠ 48 then (.error .stateMismatch, s)
  else (.ok (), { s with state := some next })

/-- The record at a sequence, counted from 1. -/
def ComponentState.recordAt (s : ComponentState) (sequence : Int) : Option DeviceAcknowledgement :=
  if 1 ≤ sequence then s.records[(sequence - 1).toNat]? else none

/-- The entry hash the next record links to. -/
def ComponentState.headEntry (s : ComponentState) : Bytes :=
  (s.records.getLast?).elim (List.replicate 48 0) (·.entryHash)

/-- One submission: a log entry with the complete-state digest it is acknowledged
under and the clock reading taken before the component is asked. -/
structure DeviceSubmission where
  now : V2StoreResult Int
  logId : String
  sequence : Int
  previousEntryHash : Bytes
  entryHash : Bytes
  state : Bytes

/-- The record of a submission. -/
def DeviceComponent.acknowledgement (C : DeviceComponent) (sub : DeviceSubmission) (now : Int) :
    DeviceAcknowledgement :=
  let ack : DeviceAcknowledgement :=
    { logId := sub.logId, sequence := sub.sequence, entryHash := sub.entryHash,
      stateDigest := sub.state, timestamp := now, signature := [] }
  { ack with signature := C.sign (deviceAckMessage ack) }

/-- `commit_at`: record the next receipt-log entry. -/
def DeviceComponent.commitAt (C : DeviceComponent) (sub : DeviceSubmission) :
    ComponentM DeviceAcknowledgement := fun s =>
  if s.frozen then (.error .frozen, s)
  else
    match s.recordAt sub.sequence with
    | some existing =>
      if existing.logId = sub.logId ∧ existing.entryHash = sub.entryHash then (.ok existing, s)
      else (.error .frozen, { s with frozen := true })
    | none =>
      if (s.records.getLast?).any fun last => last.logId != sub.logId then
        (.error .stateMismatch, s)
      else if sub.sequence ≠ s.records.length + 1 ∨ s.headEntry ≠ sub.previousEntryHash
          ∨ s.state ≠ some sub.state then
        (.error .stateMismatch, s)
      else if C.capacity ≤ s.records.length then (.error .storageFull, s)
      else
        let fault := s.fault
        let s := { s with fault := .ok }
        if fault = .beforeCommit then (.error .powerLoss, s)
        else
          match sub.now with
          | .error e => (.error (.store e), s)
          | .ok now =>
            let ack := C.acknowledgement sub now
            let s := { s with records := s.records ++ [ack] }
            if fault = .afterCommit then (.error .powerLoss, s) else (.ok ack, s)

/-- The record for `sequence`. -/
def getRecord (logId : String) (sequence : Int) (s : ComponentState) :
    V2StoreResult DeviceAcknowledgement :=
  match s.recordAt sequence with
  | some r => if r.logId = logId then .ok r else .error .acknowledgementNotFound
  | none => .error .acknowledgementNotFound

/-! ## What a command does -/

/-- A submission extends the records. -/
structure Extends (C : DeviceComponent) (sub : DeviceSubmission) (now : Int)
    (s t : ComponentState) : Prop where
  live : s.frozen = false
  next : sub.sequence = (s.records.length : Int) + 1
  linked : sub.previousEntryHash = s.headEntry
  log : ∀ last, s.records.getLast? = some last → last.logId = sub.logId
  anchored : s.state = some sub.state
  room : s.records.length < C.capacity
  clock : sub.now = .ok now
  state : t = { s with records := s.records ++ [C.acknowledgement sub now], fault := .ok }

/-- What a submission may do. -/
inductive CommitEffect (C : DeviceComponent) (sub : DeviceSubmission) (s : ComponentState) :
    Except DeviceError DeviceAcknowledgement → ComponentState → Prop where
  | frozen (h : s.frozen = true) : CommitEffect C sub s (.error .frozen) s
  | retried {ack : DeviceAcknowledgement} (live : s.frozen = false)
      (found : s.recordAt sub.sequence = some ack) (log : ack.logId = sub.logId)
      (entry : ack.entryHash = sub.entryHash) : CommitEffect C sub s (.ok ack) s
  | conflicted {ack : DeviceAcknowledgement} (live : s.frozen = false)
      (found : s.recordAt sub.sequence = some ack)
      (other : ¬ (ack.logId = sub.logId ∧ ack.entryHash = sub.entryHash)) :
      CommitEffect C sub s (.error .frozen) { s with frozen := true }
  | refused {e : DeviceError} (fault : DevicePowerLoss) (live : s.frozen = false)
      (fresh : s.recordAt sub.sequence = none) :
      CommitEffect C sub s (.error e) { s with fault }
  | extended {now : Int} {r : Except DeviceError DeviceAcknowledgement} {t : ComponentState}
      (reply : r = .ok (C.acknowledgement sub now) ∨ r = .error .powerLoss)
      (new : Extends C sub now s t) : CommitEffect C sub s r t

theorem commitAt_effect {C : DeviceComponent} {sub : DeviceSubmission} {s t : ComponentState}
    {r : Except DeviceError DeviceAcknowledgement} (h : C.commitAt sub s = (r, t)) :
    CommitEffect C sub s r t := by
  unfold DeviceComponent.commitAt at h
  split at h
  · rename_i hfrozen
    cases h
    exact .frozen hfrozen
  rename_i hlive
  rw [Bool.not_eq_true] at hlive
  split at h
  · rename_i existing hfound
    split at h
    · rename_i hsame
      cases h
      exact .retried hlive hfound hsame.1 hsame.2
    · rename_i hother
      cases h
      exact .conflicted hlive hfound hother
  rename_i hfresh
  split at h
  · cases h
    exact .refused s.fault hlive hfresh
  rename_i hlog
  split at h
  · cases h
    exact .refused s.fault hlive hfresh
  rename_i hnext
  split at h
  · cases h
    exact .refused s.fault hlive hfresh
  rename_i hroom
  dsimp only at h
  split at h
  · cases h
    exact .refused .ok hlive hfresh
  split at h
  · cases h
    exact .refused .ok hlive hfresh
  rename_i now hnow
  rw [not_or, not_or, not_not, not_not, not_not] at hnext
  have hnew : Extends C sub now s
      { s with records := s.records ++ [C.acknowledgement sub now], fault := .ok } :=
    { live := hlive, next := hnext.1, linked := hnext.2.1.symm
      log := by
        intro last hlast
        rw [hlast] at hlog
        simpa using hlog
      anchored := hnext.2.2, room := not_le.mp hroom, clock := hnow, state := rfl }
  split at h
  · cases h
    exact .extended (.inr rfl) hnew
  · cases h
    exact .extended (.inl rfl) hnew

/-- An identical retry of a recorded entry returns the original record. -/
theorem commitAt_retry (C : DeviceComponent) {sub : DeviceSubmission} {s : ComponentState}
    {ack : DeviceAcknowledgement} (hlive : s.frozen = false)
    (hfound : s.recordAt sub.sequence = some ack) (hlog : ack.logId = sub.logId)
    (hentry : ack.entryHash = sub.entryHash) : C.commitAt sub s = (.ok ack, s) := by
  simp only [DeviceComponent.commitAt, hlive, hfound, hlog, hentry, and_self, ↓reduceIte,
    Bool.false_eq_true]

/-- A different entry at a recorded sequence freezes the component. -/
theorem commitAt_conflict (C : DeviceComponent) {sub : DeviceSubmission} {s : ComponentState}
    {ack : DeviceAcknowledgement} (hfound : s.recordAt sub.sequence = some ack)
    (hother : ¬ (ack.logId = sub.logId ∧ ack.entryHash = sub.entryHash)) :
    C.commitAt sub s = (.error .frozen, { s with frozen := true }) := by
  unfold DeviceComponent.commitAt
  cases hfrozen : s.frozen with
  | true =>
    obtain ⟨records, state, frozen, fault⟩ := s
    cases hfrozen
    rfl
  | false => simp only [hfound, hother, Bool.false_eq_true, ↓reduceIte]

theorem commitAt_frozen (C : DeviceComponent) (sub : DeviceSubmission) {s : ComponentState}
    (h : s.frozen = true) : C.commitAt sub s = (.error .frozen, s) := by
  simp only [DeviceComponent.commitAt, h, ↓reduceIte]

theorem anchorState_frozen (previous next : Bytes) {s : ComponentState} (h : s.frozen = true) :
    anchorState previous next s = (.error .frozen, s) := by
  simp only [anchorState, h, ↓reduceIte]

/-- Where an anchor leads: nowhere, or to the next digest of a live component. -/
theorem anchorState_cases {previous next : Bytes} {s t : ComponentState}
    {r : Except DeviceError Unit} (h : anchorState previous next s = (r, t)) :
    ((∃ e, r = .error e) ∧ t = s)
      ∨ (r = .ok () ∧ s.frozen = false ∧ s.state = some previous
        ∧ t = { s with state := some next }) := by
  unfold anchorState at h
  split at h
  · cases h
    exact .inl ⟨⟨_, rfl⟩, rfl⟩
  rename_i hlive
  split at h
  · cases h
    exact .inl ⟨⟨_, rfl⟩, rfl⟩
  rename_i hmatch
  rw [not_or, not_not] at hmatch
  cases h
  exact .inr ⟨rfl, by simpa using hlive, hmatch.1, rfl⟩

theorem provisionState_cases {digest : Bytes} {s t : ComponentState} {r : V2Result Unit}
    (h : provisionState digest s = (r, t)) :
    ((∃ e, r = .error e) ∧ t = s)
      ∨ (r = .ok () ∧ s.state = none ∧ s.records = [] ∧ t = { s with state := some digest }) := by
  unfold provisionState at h
  split at h
  · cases h
    exact .inl ⟨⟨_, rfl⟩, rfl⟩
  rename_i hfresh
  simp only [Bool.or_eq_true, not_or, Option.isSome_iff_ne_none, ne_eq, not_not,
    Bool.not_eq_true', Bool.not_eq_false, List.isEmpty_iff] at hfresh
  cases h
  exact .inr ⟨rfl, hfresh.1.1, hfresh.1.2, rfl⟩

/-! ## Every command keeps the records -/

/-- The component's records after a command that appends at most one. -/
structure ComponentStep (C : DeviceComponent) (s t : ComponentState) : Prop where
  records : t.records = s.records ∨ ∃ sub now, Extends C sub now s t
  frozen : s.frozen = true → t.frozen = true ∧ t.records = s.records
  froze : t.frozen = true → s.frozen = true ∨ s.records ≠ []

theorem ComponentStep.of_records {C : DeviceComponent} {s t : ComponentState}
    (hrecords : t.records = s.records) (hfrozen : t.frozen = s.frozen) : ComponentStep C s t :=
  { records := .inl hrecords
    frozen := fun h => ⟨hfrozen.trans h, hrecords⟩
    froze := fun h => .inl (hfrozen.symm.trans h) }

theorem recordAt_mem {s : ComponentState} {sequence : Int} {r : DeviceAcknowledgement}
    (h : s.recordAt sequence = some r) : r ∈ s.records := by
  unfold ComponentState.recordAt at h
  split at h
  · exact List.mem_of_getElem? h
  · cases h

theorem CommitEffect.step {C : DeviceComponent} {sub : DeviceSubmission} {s t : ComponentState}
    {r : Except DeviceError DeviceAcknowledgement} (h : CommitEffect C sub s r t) :
    ComponentStep C s t := by
  cases h with
  | frozen _ => exact .of_records rfl rfl
  | retried _ _ _ _ => exact .of_records rfl rfl
  | conflicted _ hfound _ =>
    exact { records := .inl rfl, frozen := fun _ => ⟨rfl, rfl⟩
            froze := fun _ => .inr (List.ne_nil_of_mem (recordAt_mem hfound)) }
  | refused _ _ _ => exact .of_records rfl rfl
  | extended _ hnew =>
    refine { records := .inr ⟨_, _, hnew⟩, frozen := fun hfrozen => ?_, froze := fun hfrozen => ?_ }
    · rw [hnew.live] at hfrozen
      cases hfrozen
    · rw [hnew.state] at hfrozen
      exact .inl hfrozen

/-- What holds of the records in every state. -/
structure RecordsSound (C : DeviceComponent) (s : ComponentState) : Prop where
  sequenced : ∀ (i : Nat) (r : DeviceAcknowledgement), s.records[i]? = some r →
    r.sequence = (i : Int) + 1
  oneLog : ∀ r r', r ∈ s.records → r' ∈ s.records → r.logId = r'.logId
  bounded : s.records.length ≤ C.capacity
  recorded : s.frozen = true → s.records ≠ []

theorem RecordsSound.initial (C : DeviceComponent) : RecordsSound C .new :=
  { sequenced := by
      intro i r h
      simp [ComponentState.new] at h
    oneLog := by
      intro r r' h
      simp [ComponentState.new] at h
    bounded := Nat.zero_le _
    recorded := by
      intro h
      cases h }

theorem RecordsSound.extends {C : DeviceComponent} {sub : DeviceSubmission} {now : Int}
    {s t : ComponentState} (h : RecordsSound C s) (hnew : Extends C sub now s t) :
    RecordsSound C t := by
  have hrecords : t.records = s.records ++ [C.acknowledgement sub now] := by
    rw [hnew.state]
  have hsame : ∀ r ∈ s.records, r.logId = sub.logId := by
    intro r hr
    cases hlast : s.records.getLast? with
    | none =>
      rw [List.getLast?_eq_none_iff.mp hlast] at hr
      cases hr
    | some last =>
      rw [← hnew.log last hlast]
      exact h.oneLog r last hr (List.mem_of_getLast? hlast)
  have hall : ∀ r ∈ t.records, r.logId = sub.logId := by
    intro r hr
    rw [hrecords, List.mem_append, List.mem_singleton] at hr
    rcases hr with hr | rfl
    · exact hsame r hr
    · rfl
  refine
    { sequenced := ?_
      oneLog := fun r r' hr hr' => (hall r hr).trans (hall r' hr').symm
      bounded := ?_
      recorded := ?_ }
  · intro i r hr
    rw [hrecords] at hr
    rcases lt_trichotomy i s.records.length with hi | rfl | hi
    · rw [List.getElem?_append_left hi] at hr
      exact h.sequenced i r hr
    · rw [List.getElem?_concat_length] at hr
      cases hr
      exact hnew.next
    · rw [List.getElem?_eq_none (by simp; omega)] at hr
      cases hr
  · have hroom := hnew.room
    rw [hrecords, List.length_append, List.length_singleton]
    omega
  · intro _
    rw [hrecords]
    exact List.append_ne_nil_of_right_ne_nil _ (List.cons_ne_nil _ _)

theorem RecordsSound.step {C : DeviceComponent} {s t : ComponentState} (h : RecordsSound C s)
    (hstep : ComponentStep C s t) : RecordsSound C t := by
  rcases hstep.records with hsame | ⟨sub, now, hnew⟩
  · refine
      { sequenced := hsame ▸ h.sequenced, oneLog := hsame ▸ h.oneLog, bounded := hsame ▸ h.bounded
        recorded := fun hfrozen => ?_ }
    rw [hsame]
    exact (hstep.froze hfrozen).elim h.recorded id
  · exact h.extends hnew

/-- The records a step leaves begin with those it found. -/
theorem ComponentStep.recordsGrow {C : DeviceComponent} {s t : ComponentState}
    (h : ComponentStep C s t) : s.records <+: t.records := by
  rcases h.records with hsame | ⟨sub, now, hnew⟩
  · rewrite [hsame]
    exact List.prefix_rfl
  · rw [hnew.state]
    exact List.prefix_append _ _

/-- The entry hash position `i` links to. -/
def previousEntry (records : List DeviceAcknowledgement) : Nat → Bytes
  | 0 => List.replicate 48 0
  | i + 1 => (records[i]?).elim (List.replicate 48 0) (·.entryHash)

theorem headEntry_eq (s : ComponentState) :
    s.headEntry = previousEntry s.records s.records.length := by
  cases hlen : s.records.length with
  | zero =>
    rw [List.length_eq_zero_iff] at hlen
    simp [ComponentState.headEntry, previousEntry, hlen]
  | succ n =>
    have hlast : s.records.length - 1 = n := by omega
    rw [ComponentState.headEntry, previousEntry, List.getLast?_eq_getElem?, hlast]

/-- A position links to the same entry in every extension. -/
theorem previousEntry_grow {records records' : List DeviceAcknowledgement} {i : Nat}
    (h : records <+: records') (hi : i ≤ records.length) :
    previousEntry records' i = previousEntry records i := by
  cases i with
  | zero => rfl
  | succ i =>
    obtain ⟨rest, rfl⟩ := h
    rw [previousEntry, previousEntry, List.getElem?_append_left hi]

end RatifyProtocol.V2
