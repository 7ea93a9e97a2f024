import RatifyProtocol.Foundation.Run
import RatifyProtocol.V2.Device.Checkpoint
import RatifyProtocol.V2.Reference.Admission
set_option autoImplicit false

/-!
# Device component and uplink: whole runs

One component, the calls any number of primaries make on it, and one uplink.  A
call that reads a primary carries the primary as it is at that moment, so a run
covers every interleaving and every sequence of primaries, restored copies
included.  An upload is two kinds of steps, for other calls may come between its
receipts.
-/

namespace RatifyProtocol.V2

open Foundation

variable (P : Primitives) (D : DeviceCheckpoint)

/-! ## Events -/

/-- One call on the component, or one step of an upload. -/
inductive DeviceEvent where
  | setPowerLoss (fault : DevicePowerLoss)
  | provision (digest : Bytes)
  | anchor (previous next : Bytes)
  | commit (sub : DeviceSubmission)
  | acknowledge (primary : LoggedPrimary P) (now : V2StoreResult Int) (state : V2Result Bytes)
      (logId : String) (sequence : Int) (previousEntryHash entryHash : Bytes)
  | resubmit (primary : LoggedPrimary P) (now : V2StoreResult Int) (state : V2Result Bytes)
      (sequence : Int)
  | beginUpload
  | uploadNext (primary : LoggedPrimary P)

inductive DeviceReply where
  | done
  | provisioned (r : V2Result Unit)
  | anchored (r : Except DeviceError Unit)
  | recorded (r : Except DeviceError DeviceAcknowledgement)
  | acknowledged (r : Except DeviceError V2CheckpointAcknowledgement)
  | sent (sequence : Option Int)
  deriving DecidableEq, Repr

/-- The component, the uplink, and the head the upload in progress has read. -/
structure DeviceState where
  component : ComponentState
  uplink : UplinkState
  head : Nat
  deriving DecidableEq, Repr

def DeviceState.new : DeviceState :=
  { component := .new, uplink := .new, head := 0 }

variable {P}

/-- A command that leaves the uplink alone. -/
def onComponent {α : Type} (f : α → DeviceReply) (m : ComponentState → α × ComponentState)
    (s : DeviceState) : DeviceReply × DeviceState :=
  (f (m s.component).1, { s with component := (m s.component).2 })

/-- The upload loop's next receipt, while the head that was read is not reached. -/
def sendNext (primary : StoreState) (s : DeviceState) : DeviceReply × DeviceState :=
  if s.uplink.uploaded < s.head then
    match uploadNext primary s.uplink with
    | some uplink => (.sent (some ((s.uplink.uploaded : Int) + 1)), { s with uplink })
    | none => (.sent none, s)
  else (.sent none, s)

def DeviceEvent.perform : DeviceEvent P → DeviceState → DeviceReply × DeviceState
  | .setPowerLoss fault => onComponent (fun _ => .done) (V2.setPowerLoss fault)
  | .provision digest => onComponent .provisioned (provisionState digest)
  | .anchor previous next => onComponent .anchored (anchorState previous next)
  | .commit sub => onComponent .recorded (D.component.commitAt sub)
  | .acknowledge primary now state logId sequence previous entry =>
    onComponent .acknowledged
      (D.acknowledge primary.store now state logId sequence previous entry)
  | .resubmit primary now state sequence =>
    onComponent .acknowledged (D.resubmit primary.store now state sequence)
  | .beginUpload => fun s => (.done, { s with head := s.component.records.length })
  | .uploadNext primary => sendNext primary.store

/-- One step of a run. -/
def DevicePerforms (s : DeviceState) (i : DeviceEvent P × DeviceReply) (t : DeviceState) : Prop :=
  i.1.perform D s = (i.2, t)

abbrev DeviceRun (events : List (DeviceEvent P × DeviceReply)) (s : DeviceState) : Prop :=
  Run (DevicePerforms D) .new events s

theorem devicePerforms_unique (s : DeviceState) (i : DeviceEvent P × DeviceReply)
    (t u : DeviceState) (ht : DevicePerforms D s i t) (hu : DevicePerforms D s i u) : t = u :=
  (Prod.mk.inj (ht.symm.trans hu)).2

/-- The sequences sent over a run, in the order they were sent. -/
def sentSequences (events : List (DeviceEvent P × DeviceReply)) : List Int :=
  events.filterMap fun i =>
    match i.2 with
    | .sent sequence => sequence
    | _ => none

theorem sentSequences_append (before after : List (DeviceEvent P × DeviceReply)) :
    sentSequences (before ++ after) = sentSequences before ++ sentSequences after :=
  List.filterMap_append

/-! ## The loops as runs -/

/-- The upload loop is a run of its rounds. -/
theorem uploadFrom_run (primary : LoggedPrimary P) (rest : Nat) (s : DeviceState)
    (h : s.uplink.uploaded + rest ≤ s.head) :
    ∃ events : List (DeviceEvent P × DeviceReply), Run (DevicePerforms D) s events
        { s with uplink := (uploadFrom primary.store rest s.uplink).2 }
      ∧ sentSequences events = (uploadFrom primary.store rest s.uplink).1 := by
  induction rest generalizing s with
  | zero => exact ⟨[], .nil, rfl⟩
  | succ rest ih =>
    rw [uploadFrom]
    cases hnext : uploadNext primary.store s.uplink with
    | none => exact ⟨[], .nil, rfl⟩
    | some v =>
      have huploaded : v.uploaded = s.uplink.uploaded + 1 := by
        simp only [uploadNext, Option.map_eq_some_iff] at hnext
        obtain ⟨wire, -, rfl⟩ := hnext
        rfl
      have hfirst : DevicePerforms D s
          (.uploadNext primary, .sent (some ((s.uplink.uploaded : Int) + 1)))
          { s with uplink := v } := by
        have hroom : s.uplink.uploaded < s.head := by omega
        simp only [DevicePerforms, DeviceEvent.perform, sendNext, hnext, if_pos hroom]
      obtain ⟨events, hrun, hsent⟩ := ih { s with uplink := v } (by simp only; omega)
      refine ⟨_ :: events, (Run.single hfirst).append hrun, ?_⟩
      rw [← List.singleton_append, sentSequences_append, hsent]
      rfl

/-- An upload is a run: its head is read first, then its rounds follow. -/
theorem upload_run (primary : LoggedPrimary P) (s : DeviceState) :
    ∃ events : List (DeviceEvent P × DeviceReply), Run (DevicePerforms D) s events
        { s with
          uplink := (upload primary.store s.component s.uplink).2
          head := s.component.records.length }
      ∧ sentSequences events = (upload primary.store s.component s.uplink).1 := by
  have hbegin : DevicePerforms D s ((.beginUpload : DeviceEvent P), .done)
      { s with head := s.component.records.length } := rfl
  by_cases hroom : s.uplink.uploaded ≤ s.component.records.length
  · obtain ⟨events, hrun, hsent⟩ := uploadFrom_run D primary
      (s.component.records.length - s.uplink.uploaded)
      { s with head := s.component.records.length } (by simp only; omega)
    refine ⟨_ :: events, (Run.single hbegin).append hrun, ?_⟩
    rw [← List.singleton_append, sentSequences_append, hsent]
    rfl
  · have hnone : upload primary.store s.component s.uplink = ([], s.uplink) := by
      rw [upload, show s.component.records.length - s.uplink.uploaded = 0 by omega]
      rfl
    rw [hnone]
    exact ⟨[(.beginUpload, .done)], Run.single hbegin, rfl⟩

/-- Submitting the pending entries is a run of resubmissions. -/
theorem submitPendingFrom_run (primary : LoggedPrimary P)
    (ask : Int → V2StoreResult Int × V2Result Bytes) (fuel : Nat) (next : Int) (s : DeviceState) :
    ∃ events : List (DeviceEvent P × DeviceReply), Run (DevicePerforms D) s events
        { s with component := (D.submitPendingFrom primary.store ask fuel next s.component).2 }
      ∧ ∀ i ∈ events, ∃ n, i.1 = .resubmit primary (ask n).1 (ask n).2 n := by
  induction fuel generalizing next s with
  | zero => exact ⟨[], .nil, fun i hi => absurd hi List.not_mem_nil⟩
  | succ fuel ih =>
    rw [DeviceCheckpoint.submitPendingFrom]
    split
    · exact ⟨[], .nil, fun i hi => absurd hi List.not_mem_nil⟩
    split
    · exact ih (next + 1) s
    rcases hr : D.resubmit primary.store (ask next).1 (ask next).2 next s.component with ⟨r, c⟩
    have hfirst : DevicePerforms D s
        (.resubmit primary (ask next).1 (ask next).2 next, .acknowledged r)
        { s with component := c } := by
      simp only [DevicePerforms, DeviceEvent.perform, onComponent, hr]
    cases r with
    | error e =>
      refine ⟨[_], Run.single hfirst, fun i hi => ⟨next, ?_⟩⟩
      rw [List.mem_singleton.mp hi]
    | ok ack =>
      obtain ⟨events, hrun, hevents⟩ := ih (next + 1) { s with component := c }
      refine ⟨_ :: events, (Run.single hfirst).append hrun, fun i hi => ?_⟩
      rcases List.mem_cons.mp hi with rfl | hi
      · exact ⟨next, rfl⟩
      · exact hevents i hi

/-! ## Submissions -/

/-- The submission an `acknowledge` call makes, if its checks pass. -/
def acknowledgedSubmission (primary : StoreState) (now : V2StoreResult Int)
    (state : V2Result Bytes) (logId : String) (sequence : Int)
    (previousEntryHash entryHash : Bytes) : Option DeviceSubmission :=
  if appendedEntry primary sequence ≠ some entryHash then none
  else
    match state with
    | .error _ => none
    | .ok state => some { now, logId, sequence, previousEntryHash, entryHash, state }

/-- The submission a `resubmit` call makes, if the primary has the entry. -/
def resubmission (primary : StoreState) (now : V2StoreResult Int) (state : V2Result Bytes)
    (sequence : Int) : Option DeviceSubmission :=
  match appendedEntry primary sequence with
  | none => none
  | some entry =>
    match if sequence > 1 then appendedEntry primary (sequence - 1)
      else some (List.replicate 48 0) with
    | none => none
    | some previous =>
      acknowledgedSubmission primary now state primary.logId sequence previous entry

/-- What an event submits to the component. -/
def DeviceEvent.submission : DeviceEvent P → Option DeviceSubmission
  | .commit sub => some sub
  | .acknowledge primary now state logId sequence previous entry =>
    acknowledgedSubmission primary.store now state logId sequence previous entry
  | .resubmit primary now state sequence => resubmission primary.store now state sequence
  | _ => none

/-- How an event answers what the component answered. -/
def DeviceEvent.answer (e : DeviceEvent P) (r : Except DeviceError DeviceAcknowledgement) :
    DeviceReply :=
  match e with
  | .commit _ => .recorded r
  | _ => .acknowledged (r.bind D.toAck)

theorem acknowledge_submitted {primary : StoreState} {now : V2StoreResult Int}
    {state : V2Result Bytes} {logId : String} {sequence : Int} {previous entry : Bytes}
    {sub : DeviceSubmission}
    (h : acknowledgedSubmission primary now state logId sequence previous entry = some sub)
    (s : ComponentState) :
    D.acknowledge primary now state logId sequence previous entry s
      = ((D.component.commitAt sub s).1.bind D.toAck, (D.component.commitAt sub s).2) := by
  unfold acknowledgedSubmission at h
  split at h
  · cases h
  rename_i hentry
  split at h
  · cases h
  cases h
  rw [DeviceCheckpoint.acknowledge, if_neg hentry]
  rcases hr : D.component.commitAt _ s with ⟨r, t⟩
  cases r with
  | error e => exact Operation.bind_apply_error hr
  | ok ack => exact Operation.bind_apply_ok hr

theorem acknowledge_unsubmitted {primary : StoreState} {now : V2StoreResult Int}
    {state : V2Result Bytes} {logId : String} {sequence : Int} {previous entry : Bytes}
    (h : acknowledgedSubmission primary now state logId sequence previous entry = none)
    (s : ComponentState) :
    (D.acknowledge primary now state logId sequence previous entry s).2 = s := by
  unfold acknowledgedSubmission at h
  unfold DeviceCheckpoint.acknowledge
  split at h
  · rename_i hentry
    rw [if_pos hentry]
    rfl
  rename_i hentry
  rw [if_neg hentry]
  split at h
  · rfl
  · cases h

theorem resubmit_submitted {primary : StoreState} {now : V2StoreResult Int}
    {state : V2Result Bytes} {sequence : Int} {sub : DeviceSubmission}
    (h : resubmission primary now state sequence = some sub) (s : ComponentState) :
    D.resubmit primary now state sequence s
      = ((D.component.commitAt sub s).1.bind D.toAck, (D.component.commitAt sub s).2) := by
  unfold resubmission at h
  unfold DeviceCheckpoint.resubmit
  split at h
  · cases h
  rename_i entry hentry
  split at h
  · cases h
  rename_i previous hprevious
  simp only [hentry, hprevious]
  exact acknowledge_submitted D h s

theorem resubmit_unsubmitted {primary : StoreState} {now : V2StoreResult Int}
    {state : V2Result Bytes} {sequence : Int}
    (h : resubmission primary now state sequence = none) (s : ComponentState) :
    (D.resubmit primary now state sequence s).2 = s := by
  unfold resubmission at h
  unfold DeviceCheckpoint.resubmit
  split at h
  · rename_i hentry
    simp only [hentry]
    rfl
  rename_i entry hentry
  split at h
  · rename_i hprevious
    simp only [hentry, hprevious]
    rfl
  rename_i previous hprevious
  simp only [hentry, hprevious]
  exact acknowledge_unsubmitted D h s

/-- An event that submits does what its submission does. -/
theorem performs_submission {s t : DeviceState} {e : DeviceEvent P} {r : DeviceReply}
    {sub : DeviceSubmission} (h : DevicePerforms D s (e, r) t) (hsub : e.submission = some sub) :
    r = e.answer D (D.component.commitAt sub s.component).1
      ∧ t = { s with component := (D.component.commitAt sub s.component).2 } := by
  cases e with
  | commit sub' =>
    cases hsub
    cases h
    exact ⟨rfl, rfl⟩
  | acknowledge primary now state logId sequence previous entry =>
    have hack := acknowledge_submitted D hsub s.component
    simp only [DevicePerforms, DeviceEvent.perform, onComponent, hack, Prod.mk.injEq] at h
    exact ⟨h.1.symm, h.2.symm⟩
  | resubmit primary now state sequence =>
    have hack := resubmit_submitted D hsub s.component
    simp only [DevicePerforms, DeviceEvent.perform, onComponent, hack, Prod.mk.injEq] at h
    exact ⟨h.1.symm, h.2.symm⟩
  | _ => cases hsub

/-! ## What an event does -/

/-- What an event may do to the component and the uplink. -/
inductive DeviceEffect (s : DeviceState) : DeviceEvent P → DeviceReply → DeviceState → Prop where
  | submitted {e : DeviceEvent P} {sub : DeviceSubmission}
      {r : Except DeviceError DeviceAcknowledgement} {c : ComponentState}
      (hsub : e.submission = some sub) (effect : CommitEffect D.component sub s.component r c) :
      DeviceEffect s e (e.answer D r) { s with component := c }
  | quiet {e : DeviceEvent P} {r : DeviceReply} (hsub : e.submission = none)
      (unsent : ∀ n, r ≠ .sent (some n)) : DeviceEffect s e r s
  | armed (fault : DevicePowerLoss) :
      DeviceEffect s (.setPowerLoss fault) .done
        { s with component := { s.component with fault } }
  | provisioned {digest : Bytes} (fresh : s.component.state = none)
      (empty : s.component.records = []) :
      DeviceEffect s (.provision digest) (.provisioned (.ok ()))
        { s with component := { s.component with state := some digest } }
  | anchored {previous next : Bytes} (live : s.component.frozen = false)
      (same : s.component.state = some previous) :
      DeviceEffect s (.anchor previous next) (.anchored (.ok ()))
        { s with component := { s.component with state := some next } }
  | began :
      DeviceEffect s .beginUpload .done { s with head := s.component.records.length }
  | sent {primary : LoggedPrimary P} {wire : Bytes} (room : s.uplink.uploaded < s.head)
      (appended : appendedWire primary.store ((s.uplink.uploaded : Int) + 1) = some wire) :
      DeviceEffect s (.uploadNext primary) (.sent (some ((s.uplink.uploaded : Int) + 1)))
        { s with uplink :=
          { uploaded := s.uplink.uploaded + 1, collected := s.uplink.collected ++ [wire] } }

theorem devicePerforms_effect {s t : DeviceState} {e : DeviceEvent P} {r : DeviceReply}
    (h : DevicePerforms D s (e, r) t) : DeviceEffect D s e r t := by
  cases hsub : e.submission with
  | some sub =>
    obtain ⟨hr, ht⟩ := performs_submission D h hsub
    rw [hr, ht]
    exact .submitted hsub (commitAt_effect rfl)
  | none =>
    cases e with
    | commit sub => cases hsub
    | setPowerLoss fault =>
      cases h
      exact .armed fault
    | provision digest =>
      rcases hp : provisionState digest s.component with ⟨r', c⟩
      simp only [DevicePerforms, DeviceEvent.perform, onComponent, hp, Prod.mk.injEq] at h
      obtain ⟨rfl, rfl⟩ := h
      rcases provisionState_cases hp with ⟨⟨e, rfl⟩, rfl⟩ | ⟨rfl, hfresh, hempty, rfl⟩
      · exact .quiet hsub (by simp)
      · exact .provisioned hfresh hempty
    | anchor previous next =>
      rcases ha : anchorState previous next s.component with ⟨r', c⟩
      simp only [DevicePerforms, DeviceEvent.perform, onComponent, ha, Prod.mk.injEq] at h
      obtain ⟨rfl, rfl⟩ := h
      rcases anchorState_cases ha with ⟨⟨e, rfl⟩, rfl⟩ | ⟨rfl, hlive, hsame, rfl⟩
      · exact .quiet hsub (by simp)
      · exact .anchored hlive hsame
    | acknowledge primary now state logId sequence previous entry =>
      have hquiet := acknowledge_unsubmitted D hsub s.component
      simp only [DevicePerforms, DeviceEvent.perform, onComponent, hquiet, Prod.mk.injEq] at h
      obtain ⟨rfl, rfl⟩ := h
      exact .quiet hsub (by simp)
    | resubmit primary now state sequence =>
      have hquiet := resubmit_unsubmitted D hsub s.component
      simp only [DevicePerforms, DeviceEvent.perform, onComponent, hquiet, Prod.mk.injEq] at h
      obtain ⟨rfl, rfl⟩ := h
      exact .quiet hsub (by simp)
    | beginUpload =>
      cases h
      exact .began
    | uploadNext primary =>
      simp only [DevicePerforms, DeviceEvent.perform, sendNext, V2.uploadNext] at h
      split at h
      · rename_i hroom
        cases hwire : appendedWire primary.store ((s.uplink.uploaded : Int) + 1) with
        | none =>
          rw [hwire] at h
          cases h
          exact .quiet hsub (by simp)
        | some wire =>
          rw [hwire] at h
          cases h
          exact .sent hroom hwire
      · cases h
        exact .quiet hsub (by simp)

/-- Every event is a step of the component. -/
theorem DeviceEffect.step {s t : DeviceState} {e : DeviceEvent P} {r : DeviceReply}
    (h : DeviceEffect D s e r t) : ComponentStep D.component s.component t.component := by
  cases h with
  | submitted _ effect => exact effect.step
  | quiet _ _ => exact .of_records rfl rfl
  | armed _ => exact .of_records rfl rfl
  | provisioned _ _ => exact .of_records rfl rfl
  | anchored _ _ => exact .of_records rfl rfl
  | began => exact .of_records rfl rfl
  | sent _ _ => exact .of_records rfl rfl

/-- Only the submission of an event adds a record. -/
theorem DeviceEffect.added {s t : DeviceState} {e : DeviceEvent P} {r : DeviceReply}
    (h : DeviceEffect D s e r t) :
    t.component.records = s.component.records
      ∨ ∃ sub now, e.submission = some sub
        ∧ Extends D.component sub now s.component t.component := by
  cases h with
  | submitted hsub effect =>
    cases effect with
    | extended _ hnew => exact .inr ⟨_, _, hsub, hnew⟩
    | _ => exact .inl rfl
  | _ => exact .inl rfl

end RatifyProtocol.V2
