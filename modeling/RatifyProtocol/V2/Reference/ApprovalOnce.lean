import RatifyProtocol.V2.Delegation.RoundTrip
import RatifyProtocol.V2.Reference.ApprovalRuns
import RatifyProtocol.V2.Reference.Admission
set_option autoImplicit false

/-!
# Reference: one execution from two approvals

In a run of the approval ledger an accepted claim and the slot it fills belong to each
other, and a set executes at most once, from an approval of each of its two roots.
-/

namespace RatifyProtocol.V2

open Foundation

variable {P : Primitives}

/-! ## What a run has accepted -/

/-- An approval was accepted for a slot of a set. -/
def Accepted (events : List LedgerEvent) (setId : String) (slot : Nat) (d : V2ReleasedDecision)
    (wire : Bytes) : Prop :=
  ∃ complete, (LedgerCall.recordApproval setId slot (some d) wire,
    Except.ok (LedgerReply.recorded complete)) ∈ events

/-- The set a call executed. -/
def executedSet : LedgerEvent → Option String
  | (.execute setId _ _, .ok .executed) => some setId
  | _ => none

def executedSets (events : List LedgerEvent) : List String := events.filterMap executedSet

/-- The state as `open` recorded it. -/
def ApprovalState.emptied (state : ApprovalState) : ApprovalState :=
  { state with approvals := fun _ => none, executed := false }

@[simp] theorem emptied_fill (state : ApprovalState) (slot : Fin 2) (approval : ApprovalRecord) :
    (state.fill slot approval).emptied = state.emptied := rfl

@[simp] theorem emptied_executed (state : ApprovalState) (executed : Bool) :
    ApprovalState.emptied { state with executed } = state.emptied := rfl

theorem fill_approvals (state : ApprovalState) (slot slot' : Fin 2) (approval : ApprovalRecord) :
    (state.fill slot approval).approvals slot'
      = if slot' = slot then some approval else state.approvals slot' :=
  Function.update_apply _ _ _ _

/-- An approval reads no field of the state that a later call changes. -/
theorem Approves.emptied_congr {state state' : ApprovalState} {slot : Fin 2}
    {shown : PresentedApproval} (h : Approves P state slot shown)
    (heq : state.emptied = state'.emptied) : Approves P state' slot shown := by
  obtain ⟨set, agentId, rootIds, sessionContext, approvals, executed⟩ := state
  obtain ⟨set', agentId', rootIds', sessionContext', approvals', executed'⟩ := state'
  obtain ⟨rfl, rfl, rfl, rfl, -⟩ := (ApprovalState.mk.injEq ..).mp heq
  exact { h with }

/-! ## A fresh set -/

theorem freshApprovalState_eq_ok {set : ApprovalSetTestOnly} {state : ApprovalState}
    (h : freshApprovalState P set = .ok state) :
    state.set = set ∧ state.emptied = state ∧ state.rootIds 0 ≠ state.rootIds 1
      ∧ state.approvals = (fun _ => none) ∧ state.executed = false := by
  simp only [freshApprovalState, bind_eq_ok_iff, refuseApproval_eq_ok_iff, orRefuse_eq_ok_iff,
    Except.ok.injEq] at h
  obtain ⟨_, _, _, _, agentId, _, first, _, second, _, _, hne, context, _, rfl⟩ := h
  exact ⟨rfl, rfl, hne, rfl, rfl⟩

/-! ## The invariant -/

/-- What a ledger holds after the calls `events`. -/
structure LedgerInv (P : Primitives) (events : List LedgerEvent) (s : Ledger) : Prop where
  opened : ∀ id u, s.sets.get? id = some u → freshApprovalState P u.set = .ok u.emptied
    ∧ u.set.approvalSetId.1 = id ∧ (LedgerCall.openSet u.set, Except.ok LedgerReply.opened) ∈ events
  filled : ∀ id u slot a, s.sets.get? id = some u → u.approvals slot = some a →
    ∃ shown wire, a = { claimId := shown.decision.claimId, decision := shown.decision }
      ∧ decodeProofBundleV2 P wire = .ok shown.bundle ∧ Approves P u slot shown
      ∧ Accepted events id slot shown.decision wire
  accepted : ∀ id slot d wire, Accepted events id slot d wire → ∃ u a, ∃ h : slot < 2,
    s.sets.get? id = some u ∧ u.approvals ⟨slot, h⟩ = some a ∧ a.claimId = d.claimId
      ∧ s.recorded.get? d.claimId = some id
  executed : ∀ id, id ∈ executedSets events ↔ ∃ u, s.sets.get? id = some u ∧ u.executed = true
  once : (executedSets events).Nodup

theorem Accepted.mono {events : List LedgerEvent} {i : LedgerEvent} {setId : String} {slot : Nat}
    {d : V2ReleasedDecision} {wire : Bytes} (h : Accepted events setId slot d wire) :
    Accepted (events ++ [i]) setId slot d wire := by
  obtain ⟨complete, h⟩ := h
  exact ⟨complete, List.mem_append_left _ h⟩

/-- An accepted call is one of the earlier ones or the last. -/
theorem accepted_append {events : List LedgerEvent} {i : LedgerEvent} {setId : String} {slot : Nat}
    {d : V2ReleasedDecision} {wire : Bytes} (h : Accepted (events ++ [i]) setId slot d wire) :
    Accepted events setId slot d wire
      ∨ ∃ complete, i = (.recordApproval setId slot (some d) wire, .ok (.recorded complete)) := by
  obtain ⟨complete, h⟩ := h
  rcases List.mem_append.mp h with h | h
  · exact .inl ⟨complete, h⟩
  · exact .inr ⟨complete, (List.mem_singleton.mp h).symm⟩

theorem executedSets_append (events : List LedgerEvent) (i : LedgerEvent) :
    executedSets (events ++ [i]) = executedSets events ++ (executedSet i).toList := by
  rw [executedSets, List.filterMap_append]
  cases h : executedSet i <;> simp [executedSets, h]

theorem executedSets_of_none {events : List LedgerEvent} {i : LedgerEvent}
    (h : executedSet i = none) : executedSets (events ++ [i]) = executedSets events := by
  rw [executedSets_append, h, Option.toList_none, List.append_nil]

theorem executedSet_error (call : LedgerCall) (e : ApprovalErrorTestOnly) :
    executedSet (call, .error e) = none := by
  cases call <;> rfl

theorem ledgerInv_empty : LedgerInv P [] .empty where
  opened id u h := by cases h
  filled id u slot a h := by cases h
  accepted id slot d wire h := by
    obtain ⟨_, h⟩ := h
    cases h
  executed id := by
    constructor
    · intro h
      cases h
    · rintro ⟨_, h, _⟩
      cases h
  once := List.nodup_nil

variable {events : List LedgerEvent} {s : Ledger}

/-- A call that changes nothing keeps the invariant, if an approval it accepts is the one
its slot holds. -/
theorem LedgerInv.unchanged (hs : LedgerInv P events s) {i : LedgerEvent}
    (hexec : executedSet i = none)
    (hheld : ∀ id slot d wire complete,
      i = (.recordApproval id slot (some d) wire, .ok (.recorded complete)) →
      ∃ u a, ∃ h : slot < 2, s.sets.get? id = some u ∧ u.approvals ⟨slot, h⟩ = some a
        ∧ a.claimId = d.claimId ∧ s.recorded.get? d.claimId = some id) :
    LedgerInv P (events ++ [i]) s where
  opened id u hu := by
    obtain ⟨hfresh, hid, hopen⟩ := hs.opened id u hu
    exact ⟨hfresh, hid, List.mem_append_left _ hopen⟩
  filled id u slot a hu ha := by
    obtain ⟨shown, wire, heq, hdecoded, happroves, haccepted⟩ := hs.filled id u slot a hu ha
    exact ⟨shown, wire, heq, hdecoded, happroves, haccepted.mono⟩
  accepted id slot d wire h := by
    rcases accepted_append h with h | ⟨complete, rfl⟩
    · exact hs.accepted id slot d wire h
    · exact hheld id slot d wire complete rfl
  executed id := by
    rw [executedSets_of_none hexec]
    exact hs.executed id
  once := by
    rw [executedSets_of_none hexec]
    exact hs.once

theorem LedgerInv.opened_step (hs : LedgerInv P events s) {set : ApprovalSetTestOnly}
    {state : ApprovalState} (hfresh : freshApprovalState P set = .ok state)
    (hnew : s.sets.get? set.approvalSetId.1 = none) :
    LedgerInv P (events ++ [(.openSet set, .ok .opened)])
      { s with sets := s.sets.insert set.approvalSetId.1 state } := by
  obtain ⟨hset, hemptied, -, hnone, hpending⟩ := freshApprovalState_eq_ok hfresh
  refine ⟨fun id u hu => ?_, fun id u slot a hu ha => ?_, fun id slot d wire h => ?_,
    fun id => ?_, ?_⟩
  · rw [OrderedMap.get?_insert] at hu
    split at hu
    case isTrue hid =>
      cases hu
      exact ⟨by rw [hset, hemptied]; exact hfresh, by rw [hset, hid], by simp [hset]⟩
    case isFalse =>
      obtain ⟨hfresh, hid, hopen⟩ := hs.opened id u hu
      exact ⟨hfresh, hid, List.mem_append_left _ hopen⟩
  · rw [OrderedMap.get?_insert] at hu
    split at hu
    case isTrue =>
      cases hu
      rw [hnone] at ha
      cases ha
    case isFalse =>
      obtain ⟨shown, wire, heq, hdecoded, happroves, haccepted⟩ := hs.filled id u slot a hu ha
      exact ⟨shown, wire, heq, hdecoded, happroves, haccepted.mono⟩
  · rcases accepted_append h with h | ⟨_, hi⟩
    · obtain ⟨u, a, hslot, hu, ha, hclaim, howner⟩ := hs.accepted id slot d wire h
      have hne : id ≠ set.approvalSetId.1 := by
        rintro rfl
        rw [hnew] at hu
        cases hu
      exact ⟨u, a, hslot, (OrderedMap.get?_insert_of_ne _ _ hne).trans hu, ha, hclaim, howner⟩
    · cases hi
  · rw [executedSets_of_none rfl, hs.executed id, OrderedMap.get?_insert]
    split
    case isTrue hid =>
      subst hid
      simp [hnew, hpending]
    case isFalse => rfl
  · rw [executedSets_of_none rfl]
    exact hs.once

theorem LedgerInv.filled_step (hs : LedgerInv P events s) {setId : String} {slot : Fin 2}
    {wire : Bytes} {state : ApprovalState} {shown : PresentedApproval} {complete : Bool}
    (hfound : s.sets.get? setId = some state) (hempty : state.approvals slot = none)
    (hunused : ∀ owner, s.recorded.get? shown.decision.claimId = some owner → owner = setId)
    (hdecoded : decodeProofBundleV2 P wire = .ok shown.bundle)
    (happroves : Approves P state slot shown) :
    LedgerInv P
      (events ++ [(.recordApproval setId slot (some shown.decision) wire, .ok (.recorded complete))])
      { sets := s.sets.insert setId
          (state.fill slot { claimId := shown.decision.claimId, decision := shown.decision })
        recorded := s.recorded.insert shown.decision.claimId setId } := by
  -- A claim recorded before keeps its owner: it is another claim, or the owner is this set.
  have howner : ∀ claim id, s.recorded.get? claim = some id →
      (s.recorded.insert shown.decision.claimId setId).get? claim = some id := by
    intro claim id h
    rw [OrderedMap.get?_insert]
    split
    case isTrue hclaim =>
      subst hclaim
      rw [hunused id h]
    case isFalse => exact h
  refine ⟨fun id u hu => ?_, fun id u slot' a hu ha => ?_, fun id slot' d wire' h => ?_,
    fun id => ?_, ?_⟩
  · rw [OrderedMap.get?_insert] at hu
    split at hu
    case isTrue hid =>
      cases hu
      obtain ⟨hfresh, hid', hopen⟩ := hs.opened setId state hfound
      exact ⟨hfresh, hid'.trans hid.symm, List.mem_append_left _ hopen⟩
    case isFalse =>
      obtain ⟨hfresh, hid, hopen⟩ := hs.opened id u hu
      exact ⟨hfresh, hid, List.mem_append_left _ hopen⟩
  · rw [OrderedMap.get?_insert] at hu
    split at hu
    case isTrue hid =>
      subst hid
      cases hu
      rw [fill_approvals] at ha
      split at ha
      case isTrue hslot =>
        subst hslot
        cases ha
        exact ⟨shown, wire, rfl, hdecoded, happroves.emptied_congr (emptied_fill ..).symm,
          complete, List.mem_append_right _ List.mem_cons_self⟩
      case isFalse =>
        obtain ⟨old, wire', heq, hdec, happ, hacc⟩ := hs.filled id state slot' a hfound ha
        exact ⟨old, wire', heq, hdec, happ.emptied_congr (emptied_fill ..).symm, hacc.mono⟩
    case isFalse =>
      obtain ⟨old, wire', heq, hdec, happ, hacc⟩ := hs.filled id u slot' a hu ha
      exact ⟨old, wire', heq, hdec, happ, hacc.mono⟩
  · rcases accepted_append h with h | ⟨_, hi⟩
    · obtain ⟨u, a, hlt, hu, ha, hclaim, hown⟩ := hs.accepted id slot' d wire' h
      by_cases hid : id = setId
      · subst hid
        obtain rfl := Option.some.inj (hfound.symm.trans hu)
        refine ⟨_, a, hlt, OrderedMap.get?_insert_self _ _ _, ?_, hclaim, howner _ _ hown⟩
        rw [fill_approvals, if_neg, ha]
        rintro rfl
        rw [hempty] at ha
        cases ha
      · exact ⟨u, a, hlt, (OrderedMap.get?_insert_of_ne _ _ hid).trans hu, ha, hclaim,
          howner _ _ hown⟩
    · cases hi
      exact ⟨_, _, slot.isLt, OrderedMap.get?_insert_self _ _ _,
        by rw [fill_approvals, if_pos rfl], rfl, OrderedMap.get?_insert_self _ _ _⟩
  · rw [executedSets_of_none rfl, hs.executed id, OrderedMap.get?_insert]
    split
    case isTrue hid =>
      subst hid
      simp [hfound, ApprovalState.fill]
    case isFalse => rfl
  · rw [executedSets_of_none rfl]
    exact hs.once

theorem LedgerInv.executed_step (hs : LedgerInv P events s) {setId : String}
    {first second : V2StoreResult Int} {state : ApprovalState}
    (hfound : s.sets.get? setId = some state) (hpending : state.executed = false) :
    LedgerInv P (events ++ [(.execute setId first second, .ok .executed)])
      { s with sets := s.sets.insert setId { state with executed := true } } := by
  refine ⟨fun id u hu => ?_, fun id u slot a hu ha => ?_, fun id slot d wire h => ?_,
    fun id => ?_, ?_⟩
  · rw [OrderedMap.get?_insert] at hu
    split at hu
    case isTrue hid =>
      cases hu
      obtain ⟨hfresh, hid', hopen⟩ := hs.opened setId state hfound
      exact ⟨hfresh, hid'.trans hid.symm, List.mem_append_left _ hopen⟩
    case isFalse =>
      obtain ⟨hfresh, hid, hopen⟩ := hs.opened id u hu
      exact ⟨hfresh, hid, List.mem_append_left _ hopen⟩
  · rw [OrderedMap.get?_insert] at hu
    split at hu
    case isTrue hid =>
      subst hid
      cases hu
      obtain ⟨old, wire, heq, hdec, happ, hacc⟩ := hs.filled id state slot a hfound ha
      exact ⟨old, wire, heq, hdec, happ.emptied_congr (emptied_executed ..).symm, hacc.mono⟩
    case isFalse =>
      obtain ⟨old, wire, heq, hdec, happ, hacc⟩ := hs.filled id u slot a hu ha
      exact ⟨old, wire, heq, hdec, happ, hacc.mono⟩
  · rcases accepted_append h with h | ⟨_, hi⟩
    · obtain ⟨u, a, hlt, hu, ha, hclaim, hown⟩ := hs.accepted id slot d wire h
      by_cases hid : id = setId
      · subst hid
        obtain rfl := Option.some.inj (hfound.symm.trans hu)
        exact ⟨_, a, hlt, OrderedMap.get?_insert_self _ _ _, ha, hclaim, hown⟩
      · exact ⟨u, a, hlt, (OrderedMap.get?_insert_of_ne _ _ hid).trans hu, ha, hclaim, hown⟩
    · cases hi
  · rw [executedSets_append, List.mem_append, hs.executed id, OrderedMap.get?_insert]
    by_cases hid : id = setId <;> simp [executedSet, hid]
  · rw [executedSets_append]
    refine List.nodup_append.mpr ⟨hs.once, List.nodup_singleton _, ?_⟩
    -- The set was pending, so no earlier call executed it.
    rintro id hid _ hlast rfl
    cases List.mem_singleton.mp hlast
    obtain ⟨u, hu, hdone⟩ := (hs.executed setId).mp hid
    obtain rfl := Option.some.inj (hfound.symm.trans hu)
    rw [hpending] at hdone
    cases hdone

/-- Every call keeps the invariant. -/
theorem LedgerInv.step (hs : LedgerInv P events s) {i : LedgerEvent} {t : Ledger}
    (h : LedgerStep P s i t) : LedgerInv P (events ++ [i]) t := by
  obtain ⟨call, r⟩ := i
  have heffect := ledgerStep_effect h
  cases heffect with
  | refused e =>
    refine hs.unchanged (executedSet_error call e) ?_
    intro id slot d wire complete hi
    cases hi
  | opened fresh new => exact hs.opened_step fresh new
  | held found holds same =>
    refine hs.unchanged rfl ?_
    intro id slot d wire complete hi
    cases hi
    obtain ⟨old, wire', heq, -, -, hacc⟩ := hs.filled _ _ _ _ found holds
    obtain ⟨-, -, -, -, -, -, hown⟩ := hs.accepted _ _ _ _ hacc
    refine ⟨_, _, Fin.isLt _, found, holds, same, ?_⟩
    rw [← same, heq]
    exact hown
  | filled found empty unused decoded approves =>
    exact hs.filled_step found empty unused decoded approves
  | executed found pending _ _ _ _ => exact hs.executed_step found pending

theorem ledgerRun_inv {t : Ledger} (h : LedgerRun P .empty events t) : LedgerInv P events t :=
  h.history (LedgerInv P) ledgerInv_empty fun _ _ _ _ _ hs hstep => hs.step hstep

/-! ## Executions -/

/-- What an execution of `setId` rested on: `state` is the set it executed and `shown` the
approvals in its two slots. -/
structure Execution (P : Primitives) (before : List LedgerEvent) (setId : String)
    (first second : V2StoreResult Int) (state : ApprovalState) (shown : Fin 2 → PresentedApproval) :
    Prop where
  named : state.set.approvalSetId.1 = setId
  opened : (LedgerCall.openSet state.set, Except.ok LedgerReply.opened) ∈ before
  fresh : freshApprovalState P state.set = .ok state.emptied
  approves : ∀ slot, Approves P state slot (shown slot)
  accepted : ∀ slot : Fin 2, ∃ wire, decodeProofBundleV2 P wire = .ok (shown slot).bundle
    ∧ Accepted before setId slot (shown slot).decision wire
  allowedFirst : (shown 0).decision.allowed first = true
  allowedSecond : (shown 1).decision.allowed second = true

theorem LedgerInv.execution (hs : LedgerInv P events s) {setId : String}
    {first second : V2StoreResult Int} {t : Ledger}
    (h : LedgerStep P s (.execute setId first second, .ok .executed) t) :
    ∃ state shown, Execution P events setId first second state shown := by
  have heffect := ledgerStep_effect h
  cases heffect with
  | @executed _ _ _ _ state a b found pending zero one allowedZero allowedOne =>
    obtain ⟨hfresh, hid, hopen⟩ := hs.opened setId state found
    obtain ⟨x, wx, hx, hxdec, hxapp, hxacc⟩ := hs.filled setId state 0 a found zero
    obtain ⟨y, wy, hy, hydec, hyapp, hyacc⟩ := hs.filled setId state 1 b found one
    subst hx hy
    refine ⟨state, fun slot => if slot = 0 then x else y, ?_⟩
    exact
      { named := hid, opened := hopen, fresh := hfresh
        approves := Fin.forall_fin_two.mpr ⟨hxapp, hyapp⟩
        accepted := Fin.forall_fin_two.mpr ⟨⟨wx, hxdec, hxacc⟩, wy, hydec, hyacc⟩
        allowedFirst := allowedZero, allowedSecond := allowedOne }

/-! ## Later ledgers -/

/-- What no later call takes back of a ledger. -/
def LedgerKeeps (s t : Ledger) : Prop :=
  ∀ id u, s.sets.get? id = some u → ∃ v, t.sets.get? id = some v ∧ v.emptied = u.emptied
    ∧ (∀ slot a, u.approvals slot = some a → v.approvals slot = some a)
    ∧ (u.executed = true → v.executed = true)

theorem LedgerKeeps.refl (s : Ledger) : LedgerKeeps s s :=
  fun _ u hu => ⟨u, hu, rfl, fun _ _ ha => ha, id⟩

theorem LedgerKeeps.trans {s t u : Ledger} (h₁ : LedgerKeeps s t) (h₂ : LedgerKeeps t u) :
    LedgerKeeps s u := by
  intro id a ha
  obtain ⟨b, hb, hb₁, hb₂, hb₃⟩ := h₁ id a ha
  obtain ⟨c, hc, hc₁, hc₂, hc₃⟩ := h₂ id b hb
  exact ⟨c, hc, hc₁.trans hb₁, fun slot x hx => hc₂ slot x (hb₂ slot x hx), fun hx => hc₃ (hb₃ hx)⟩

/-- One set changes, to a state that takes nothing back. -/
theorem extends_insert {s t : Ledger} {setId : String} {new : ApprovalState}
    (ht : t.sets = s.sets.insert setId new)
    (h : ∀ u, s.sets.get? setId = some u → new.emptied = u.emptied
      ∧ (∀ slot a, u.approvals slot = some a → new.approvals slot = some a)
      ∧ (u.executed = true → new.executed = true)) : LedgerKeeps s t := by
  intro id u hu
  rw [ht]
  by_cases hid : id = setId
  · subst hid
    exact ⟨new, OrderedMap.get?_insert_self _ _ _, h u hu⟩
  · exact ⟨u, (OrderedMap.get?_insert_of_ne _ _ hid).trans hu, rfl, fun _ _ ha => ha, fun hx => hx⟩

theorem ledgerKeeps_step {t : Ledger} {i : LedgerEvent} (h : LedgerStep P s i t) :
    LedgerKeeps s t := by
  obtain ⟨call, r⟩ := i
  have heffect := ledgerStep_effect h
  cases heffect with
  | refused e => exact .refl _
  | held found holds same => exact .refl _
  | opened fresh new =>
    refine extends_insert rfl fun u hu => ?_
    rw [new] at hu
    cases hu
  | @filled _ slot _ _ state shown found empty unused decoded approves =>
    refine extends_insert rfl fun u hu => ?_
    obtain rfl := Option.some.inj (found.symm.trans hu)
    refine ⟨emptied_fill .., fun slot' a ha => ?_, fun hx => hx⟩
    rw [fill_approvals, if_neg, ha]
    rintro rfl
    rw [empty] at ha
    cases ha
  | executed found pending _ _ _ _ =>
    refine extends_insert rfl fun u hu => ?_
    obtain rfl := Option.some.inj (found.symm.trans hu)
    exact ⟨rfl, fun _ _ ha => ha, fun _ => rfl⟩

theorem LedgerRun.keeps {t : Ledger} (h : LedgerRun P s events t) : LedgerKeeps s t :=
  h.invariant (LedgerKeeps s) (.refl s) fun _ _ _ hs hstep => hs.trans (ledgerKeeps_step hstep)

/-! ## A set that executes -/

def approvalSession : SessionContextV2Inputs where
  verifierId := ⟨hexEncode (1 :: List.replicate 31 0), by decide +kernel⟩
  workspaceId := ⟨"01234567-89ab-4def-8123-456789abcdef", by decide⟩
  agentId := ⟨hexEncode (3 :: List.replicate 31 0), by decide +kernel⟩
  sessionId := ⟨"session", by decide⟩
  invocationId := ⟨"approval", by decide⟩
  requestHash := ⟨List.replicate 32 0, by decide⟩

/-- One action under the roots `tabledKey 4` and `tabledKey 5`. -/
def approvalSet : ApprovalSetTestOnly where
  approvalSetId := approvalSession.invocationId
  verifierId := approvalSession.verifierId
  workspaceId := approvalSession.workspaceId
  sessionId := approvalSession.sessionId
  agentPublicKey := tabledKey 3
  requiredScope := "data:read"
  requestHash := approvalSession.requestHash
  roots := fun slot => tabledKey (if slot.val = 0 then 4 else 5)

/-- The session context of the set. -/
def approvalContext : Bytes :=
  ((buildSessionContextV2 (counting []) approvalSession).toOption).getD []

theorem buildSessionContextV2_approval (table : List Bytes) :
    buildSessionContextV2 (counting table) approvalSession = .ok approvalContext
      ∧ approvalContext.length = 32 := by
  obtain ⟨b, hb⟩ : ∃ b, sessionContextV2Bytes approvalSession = .ok b := by
    rw [sessionContextV2Bytes, if_neg (by decide +kernel), if_neg (by decide +kernel),
      if_neg (by decide +kernel), if_neg (by decide +kernel)]
    exact ⟨_, rfl⟩
  have hcontext : ∀ table, buildSessionContextV2 (counting table) approvalSession
      = .ok ((counting table).sha256 b) := by
    intro table
    simp only [buildSessionContextV2, hb, ok_bind]
  have happroval : approvalContext = (counting table).sha256 b := by
    rw [approvalContext, hcontext]
    rfl
  exact ⟨(hcontext table).trans (congrArg Except.ok happroval.symm),
    (congrArg List.length happroval).trans ((counting table).length_sha256 b)⟩

/-- The certificate of the root `tabledKey n` for the agent. -/
def approvalCert (n : UInt8) : DelegationCertV2 where
  version := 2
  certId := "cert"
  issuerId := hexEncode (n :: List.replicate 31 0)
  issuerPubKey := tabledKey n
  subjectId := hexEncode (3 :: List.replicate 31 0)
  subjectPubKey := tabledKey 3
  scope := ["data:read"]
  constraints := []
  issuedAt := 0
  expiresAt := 1000
  signature := tabledSignature

/-- The bundle in which the root `tabledKey n` delegates the action to the agent. -/
def approvalBundle (n : UInt8) : ProofBundleV2 where
  version := 2
  verifierId := hexEncode (1 :: List.replicate 31 0)
  agentId := hexEncode (3 :: List.replicate 31 0)
  agentPubKey := tabledKey 3
  delegations := [approvalCert n]
  delegationDigest := List.replicate 48 0
  challenge := List.replicate 32 0
  challengeAt := 100
  challengeSig := tabledSignature
  sessionContext := some approvalContext
  streamId := none
  streamSeq := none

theorem plainBundle_approval (table : List Bytes) (n : UInt8) :
    PlainBundle (counting table) (approvalBundle n) where
  valid :=
    { version := rfl, verifier := hexEncode_first 1, agent := hexEncode_first 3
      chain := show 1 ≤ 8 by decide
      challenge := List.length_replicate
      challengeAt := show (0 : Int) ≤ 100 ∧ (100 : Int) ≤ v2MaxTimestampSeconds by decide
      digest := List.length_replicate
      session := fun s hs => Option.some.inj hs ▸ (buildSessionContextV2_approval table).2
      streamBoth := rfl, stream := rfl, lengths := signatureLengths_tabled
      certs := by
        intro c hc
        rw [List.mem_singleton.mp hc]
        refine ⟨?_, signatureLengths_tabled⟩
        have h := accepting_counting table
        exact
          { version := rfl
            issuedAt := show (0 : Int) ≤ 0 ∧ (0 : Int) ≤ v2MaxTimestampSeconds by decide
            expiresAt := show (0 : Int) ≤ 1000 ∧ (1000 : Int) ≤ v2MaxTimestampSeconds by decide
            certId := show "cert" ≠ "" ∧ (utf8 "cert").length ≤ maxIdentifierLengthBytes by decide
            issuer := ⟨hexEncode_first n, h.keyIdV2 n⟩
            subject := ⟨hexEncode_first 3, h.keyIdV2 3⟩
            scopes := show ∀ s ∈ ["data:read"], (utf8 s).length ≤ maxScopeLengthBytes by decide
            scopeCount := show 1 ≤ 128 by decide
            constraintCount := show 0 ≤ 32 by decide
            constraints := fun k hk => absurd hk List.not_mem_nil } }
  cert := ⟨_, _, rfl, shortConstraints_nil, rfl⟩
  agentKey := keyLengths_of_keyIdV2 ((accepting_counting table).keyIdV2 3)
  streamId := rfl

/-- The bundle has one wire form under every table. -/
theorem exists_approvalBundle (n : UInt8) :
    ∃ wire, ∀ table, decodeProofBundleV2 (counting table) wire = .ok (approvalBundle n)
      ∧ encodeProofBundleV2 (counting table) (approvalBundle n) = .ok wire := by
  obtain ⟨wire, hwire, -⟩ := (plainBundle_approval [] n).exists_wire
  refine ⟨wire, fun table => ?_⟩
  obtain ⟨wire', hwire', hdecoded, hencoded⟩ := (plainBundle_approval table n).exists_wire
  obtain rfl := Except.ok.inj (hwire.symm.trans hwire')
  exact ⟨hdecoded, hencoded⟩

theorem validPrefixedDigest_bundleHash (P : Primitives) (wire : Bytes) :
    validPrefixedDigest (bundleHashOfBytes P wire) = true :=
  validPrefixedDigest_hexEncode (P.length_sha384 _)

/-- The set, as it is recorded. -/
def approvalState : ApprovalState where
  set := approvalSet
  agentId := hexEncode (3 :: List.replicate 31 0)
  rootIds := fun slot => if slot.val = 0 then hexEncode (4 :: List.replicate 31 0)
    else hexEncode (5 :: List.replicate 31 0)
  sessionContext := approvalContext
  approvals := fun _ => none
  executed := false

theorem keyIdText_eq {P : Primitives} {key : HybridPublicKey} {id : Text}
    (h : keyIdV2 P key = .ok id.1) : keyIdText P key = .ok id := by
  unfold keyIdText
  split
  · rename_i e he
    rw [h] at he
    cases he
  · rename_i id' hid
    rw [h] at hid
    obtain rfl := Except.ok.inj hid
    rfl

theorem freshApprovalState_approval (table : List Bytes) :
    freshApprovalState (counting table) approvalSet = .ok approvalState := by
  have hkey : ∀ n : UInt8, ∃ id, keyIdText (counting table) (tabledKey n) = .ok id
      ∧ id.1 = hexEncode (n :: List.replicate 31 0) := by
    intro n
    have hid := (accepting_counting table).keyIdV2 n
    have hlen := validV2Id_of_keyIdV2 _ hid
    simp only [validV2Id, Bool.and_eq_true, beq_iff_eq] at hlen
    have hfits : (utf8 (hexEncode (n :: List.replicate 31 0))).length ≤ isizeMax := by
      rw [hlen.1, isizeMax]
      omega
    exact ⟨⟨_, hfits⟩, keyIdText_eq hid, rfl⟩
  obtain ⟨agentId, hagent, hagentId⟩ := hkey 3
  obtain ⟨first, hfirst, hfirstId⟩ := hkey 4
  obtain ⟨second, hsecond, hsecondId⟩ := hkey 5
  have hne : first.1 ≠ second.1 := by
    rw [hfirstId, hsecondId]
    exact hexEncode_first_ne (by decide)
  have hsession : buildSessionContextV2 (counting table) { approvalSession with agentId }
      = .ok approvalContext := by
    obtain rfl : agentId = approvalSession.agentId := Subtype.ext hagentId
    exact (buildSessionContextV2_approval table).1
  simp only [freshApprovalState, bind_eq_ok_iff, refuseApproval_eq_ok_iff, orRefuse_eq_ok_iff]
  refine ⟨(), by decide, (), by decide +kernel, agentId, hagent, first, hfirst, second, hsecond, (),
    hne, approvalContext, hsession, ?_⟩
  have hids : (fun slot : Fin 2 => if slot = 0 then first.1 else second.1)
      = approvalState.rootIds := by
    funext slot
    rw [hfirstId, hsecondId, approvalState]
    simp only [Fin.ext_iff, Fin.val_zero]
  rw [hagentId, hids]
  rfl

/-- An approval that binds to an empty slot is recorded there. -/
theorem recordApproval_fills {P : Primitives} {setId : String} {slot : Fin 2} {wire : Bytes}
    {s : Ledger} {state : ApprovalState} {shown : PresentedApproval}
    (hshown : presentApproval P (some shown.decision) wire = .ok shown)
    (hfound : s.sets.get? setId = some state)
    (hunused : s.recorded.get? shown.decision.claimId = none)
    (hbind : bindApproval state slot shown = .ok ()) (hempty : state.approvals slot = none) :
    V2.recordApproval P setId slot (some shown.decision) wire s
      = (.ok (state.fill slot
            { claimId := shown.decision.claimId, decision := shown.decision }).complete,
        { sets := s.sets.insert setId
            (state.fill slot { claimId := shown.decision.claimId, decision := shown.decision })
          recorded := s.recorded.insert shown.decision.claimId setId }) := by
  have howned : refuseApproval (∃ owner ∈ s.recorded.get? shown.decision.claimId, owner ≠ setId)
      .reused = .ok () := by
    rw [refuseApproval_eq_ok_iff, hunused]
    rintro ⟨_, h, _⟩
    cases h
  rw [V2.recordApproval, dif_pos slot.isLt,
    Operation.bind_apply_ok (a := shown) (t := s) (by rw [Operation.lift_apply, hshown]),
    Operation.bind_apply_ok (m := Operation.get) (a := s) (t := s) rfl,
    Operation.bind_apply_ok (a := state) (t := s)
      (by rw [Operation.lift_apply, find_eq_ok_iff.mpr hfound]),
    Operation.bind_apply_ok (a := ()) (t := s) (by rw [Operation.lift_apply, howned]),
    Operation.bind_apply_ok (a := ()) (t := s) (by rw [Operation.lift_apply, hbind])]
  simp only [hempty]
  rfl

/-- The claim of the root `tabledKey n` on its bundle. -/
def approvalClaim (n : UInt8) (bundleHash : String) : V2ChallengeClaim :=
  rootClaim n.toNat n bundleHash []

/-- The decision released on the receipt of `tabledKey n`. -/
def approvalDecision (n : UInt8) (wire : Bytes) : V2ReleasedDecision where
  claimId := (approvalClaim n "").claimId
  decision := "allow"
  reason := "authorized"
  identityStatus := "authorized_agent"
  grantedScope := ["data:read"]
  receiptWire := wire
  releaseTime := 100
  challengeExpiresAt := 1000
  allowHorizon := 500

/-- The wire forms that present the approval of the root `tabledKey n`. -/
structure RootApproval (table : List Bytes) (n : UInt8) (bundleHash : String) (head : ReceiptV2Head)
    (bundleWire wire : Bytes) : Prop where
  bundle : decodeProofBundleV2 (counting table) bundleWire = .ok (approvalBundle n)
  hash : bundleHashV2 (counting table) (approvalBundle n) = .ok bundleHash
  receipt : decodeVerificationReceiptV2 wire = .ok (signedAllow n bundleHash head)
  wire : wire ≠ []

theorem AllowTexts.rootApproval {table : List Bytes} {n : UInt8} {head : ReceiptV2Head}
    {bundleWire terminal body wire signable : Bytes} {bundleHash : String}
    (h : AllowTexts n bundleHash head terminal body wire signable)
    (hhash : bundleHash = bundleHashOfBytes (counting table) bundleWire)
    (hdecoded : decodeProofBundleV2 (counting table) bundleWire = .ok (approvalBundle n))
    (hencoded : encodeProofBundleV2 (counting table) (approvalBundle n) = .ok bundleWire) :
    RootApproval table n bundleHash head bundleWire wire where
  bundle := hdecoded
  hash := hhash ▸ bundleHashV2_of_encode hencoded
  receipt := h.decoded
  wire := h.wire_ne_nil

/-- The approval of the root `tabledKey n`, presented. -/
def shownApproval (n : UInt8) (bundleHash : String) (head : ReceiptV2Head) (wire : Bytes) :
    PresentedApproval where
  decision := approvalDecision n wire
  receipt := signedAllow n bundleHash head
  bundle := approvalBundle n

theorem RootApproval.presented {table : List Bytes} {n : UInt8} {bundleHash : String}
    {head : ReceiptV2Head} {bundleWire wire : Bytes}
    (h : RootApproval table n bundleHash head bundleWire wire) :
    presentApproval (counting table) (some (approvalDecision n wire)) bundleWire
      = .ok (shownApproval n bundleHash head wire) := by
  have hreceipt : (approvalDecision n wire).receipt = .ok (signedAllow n bundleHash head) := by
    rw [V2ReleasedDecision.receipt, if_neg, approvalDecision, h.receipt]
    simpa [approvalDecision] using h.wire
  have hhash : (signedAllow n bundleHash head).bundleHash = bundleHash := rfl
  simp only [presentApproval, bind_eq_ok_iff, refuseApproval_eq_ok_iff, orRefuse_eq_ok_iff]
  exact ⟨(), by simp [approvalDecision], _, hreceipt, _, h.bundle, _, h.hash, (), by simp [hhash],
    rfl⟩

theorem bindApproval_shown {n : UInt8} {slot : Fin 2} {bundleHash : String} {head : ReceiptV2Head}
    {wire : Bytes} (hroot : approvalState.rootIds slot = hexEncode (n :: List.replicate 31 0))
    (hkey : approvalSet.roots slot = tabledKey n) :
    bindApproval approvalState slot (shownApproval n bundleHash head wire) = .ok () := by
  simp only [bindApproval, bind_eq_ok_iff, refuseApproval_eq_ok_iff]
  refine ⟨(), ?_, ?_⟩
  · simp [approvalState, approvalSet, shownApproval, signedAllow, VerificationReceiptV2.signed,
      VerificationReceiptV2.atHead, allowReceipt, approvalBundle, approvalSession]
  · have hlast : (shownApproval n bundleHash head wire).bundle.delegations.getLast?
        = some (approvalCert n) := rfl
    simp only [hlast, refuseApproval_eq_ok_iff]
    rintro (h | h | h)
    · exact h hroot.symm
    · exact h hkey.symm
    · exact h (by rw [hroot]; exact List.mem_singleton_self _)

/-- A fresh set under a new name is opened. -/
theorem openSet_opens {P : Primitives} {set : ApprovalSetTestOnly} {state : ApprovalState} {s : Ledger}
    (hfresh : freshApprovalState P set = .ok state)
    (hnew : s.sets.get? set.approvalSetId.1 = none) :
    V2.openSet P set s
      = (.ok (), { s with sets := s.sets.insert set.approvalSetId.1 state }) := by
  have hunknown : ¬ s.sets.contains set.approvalSetId.1 = true := by
    rw [OrderedMap.contains, hnew]
    exact Bool.false_ne_true
  rw [V2.openSet, Operation.bind_apply_ok (a := state) (t := s)
      (by rw [Operation.lift_apply, hfresh]),
    Operation.bind_apply_ok (m := Operation.get) (a := s) (t := s) rfl, if_neg hunknown]
  rfl

/-- A set with two approvals inside their deadlines is executed. -/
theorem execute_executes {setId : String} {first second : V2StoreResult Int} {s : Ledger}
    {state : ApprovalState} {a b : ApprovalRecord} (hfound : s.sets.get? setId = some state)
    (hpending : state.executed = false) (hzero : state.approvals 0 = some a)
    (hone : state.approvals 1 = some b) (ha : a.decision.allowed first = true)
    (hb : b.decision.allowed second = true) :
    V2.execute setId first second s
      = (.ok (), { s with sets := s.sets.insert setId { state with executed := true } }) := by
  rw [V2.execute, Operation.bind_apply_ok (m := Operation.get) (a := s) (t := s) rfl,
    Operation.bind_apply_ok (a := state) (t := s)
      (by rw [Operation.lift_apply, find_eq_ok_iff.mpr hfound]), if_neg (by simp [hpending])]
  simp only [hzero, hone, ha, hb, Bool.and_self, if_true]
  rfl

theorem allowed_approvalDecision {n : UInt8} {wire : Bytes} (hne : wire ≠ []) :
    (approvalDecision n wire).allowed (.ok 120) = true := by
  have htime : readV2AuthoritativeTime (.ok 120) = .ok 120 := rfl
  have hwire : wire.isEmpty = false := List.isEmpty_eq_false_iff.mpr hne
  simp [V2ReleasedDecision.allowed, approvalDecision, hwire, htime]

/-- The ledger after the set is opened, and after an approval for `tabledKey n` is put in a slot. -/
def openedLedger : Ledger :=
  { Ledger.empty with sets := Ledger.empty.sets.insert "approval" approvalState }

def approvedLedger (s : Ledger) (state : ApprovalState) (slot : Fin 2) (n : UInt8) (wire : Bytes) :
    Ledger where
  sets := s.sets.insert "approval" (state.fill slot
    { claimId := (approvalClaim n "").claimId, decision := approvalDecision n wire })
  recorded := s.recorded.insert (approvalClaim n "").claimId "approval"

theorem approvalClaim_named :
    (approvalClaim 4 "").claimId ≠ "" ∧ (approvalClaim 5 "").claimId ≠ "" :=
  ⟨claimId_ne_empty (counting []) (claimIdMatchesKey_of_derived _ rfl List.length_replicate rfl),
    claimId_ne_empty (counting []) (claimIdMatchesKey_of_derived _ rfl List.length_replicate rfl)⟩

theorem approvalClaim_ids : (approvalClaim 4 "").claimId ≠ (approvalClaim 5 "").claimId :=
  @claimIds_counting [] 4 5 ⟨by decide, by decide⟩ ⟨by decide, by decide⟩ (by decide)

theorem ledgerStep_recorded {P : Primitives} {setId : String} {slot : Nat} {d : V2ReleasedDecision}
    {wire : Bytes} {s t : Ledger} {complete : Bool}
    (h : V2.recordApproval P setId slot (some d) wire s = (.ok complete, t)) :
    LedgerStep P s (.recordApproval setId slot (some d) wire, .ok (.recorded complete)) t := by
  rw [LedgerStep, LedgerCall.perform, Operation.reply_apply, h]
  rfl

theorem ledgerStep_executed {P : Primitives} {setId : String} {first second : V2StoreResult Int}
    {s t : Ledger} (h : V2.execute setId first second s = (.ok (), t)) :
    LedgerStep P s (.execute setId first second, .ok .executed) t := by
  rw [LedgerStep, LedgerCall.perform, Operation.reply_apply, h]
  rfl

/-- The set is opened, approved by both roots and executed. -/
def approvalEvents (bundleWire wire bundleWire' wire' : Bytes) : List LedgerEvent :=
  [(.openSet approvalSet, .ok .opened),
    (.recordApproval "approval" 0 (some (approvalDecision 4 wire)) bundleWire,
      .ok (.recorded false)),
    (.recordApproval "approval" 1 (some (approvalDecision 5 wire')) bundleWire',
      .ok (.recorded true)),
    (.execute "approval" (.ok 120) (.ok 120), .ok .executed)]

theorem exists_approvalRun {table : List Bytes} {bundleHash bundleHash' : String}
    {head head' : ReceiptV2Head} {bundleWire wire bundleWire' wire' : Bytes}
    (h : RootApproval table 4 bundleHash head bundleWire wire)
    (h' : RootApproval table 5 bundleHash' head' bundleWire' wire') :
    ∃ t, LedgerRun (counting table) .empty (approvalEvents bundleWire wire bundleWire' wire') t := by
  have hopen : LedgerStep (counting table) .empty (.openSet approvalSet, .ok .opened)
      openedLedger := by
    rw [LedgerStep, LedgerCall.perform, Operation.reply_apply,
      openSet_opens (freshApprovalState_approval table) rfl]
    rfl
  have hzero : V2.recordApproval (counting table) "approval" ((0 : Fin 2) : Nat)
      (some (approvalDecision 4 wire)) bundleWire openedLedger
      = (.ok false, approvedLedger openedLedger approvalState 0 4 wire) :=
    recordApproval_fills h.presented (OrderedMap.get?_insert_self _ _ _) rfl
      (bindApproval_shown rfl rfl) rfl
  let first := approvalState.fill 0
    { claimId := (approvalClaim 4 "").claimId, decision := approvalDecision 4 wire }
  have hbind : bindApproval first 1 (shownApproval 5 bundleHash' head' wire') = .ok () :=
    show bindApproval approvalState 1 _ = .ok () from bindApproval_shown rfl rfl
  have hunused : (approvedLedger openedLedger approvalState 0 4 wire).recorded.get?
      (approvalClaim 5 "").claimId = none := OrderedMap.get?_insert_of_ne _ _ approvalClaim_ids.symm
  have hone : V2.recordApproval (counting table) "approval" ((1 : Fin 2) : Nat)
      (some (approvalDecision 5 wire')) bundleWire'
      (approvedLedger openedLedger approvalState 0 4 wire)
      = (.ok true, approvedLedger (approvedLedger openedLedger approvalState 0 4 wire) first 1 5
          wire') :=
    recordApproval_fills h'.presented (OrderedMap.get?_insert_self _ _ _) hunused hbind rfl
  let both := first.fill 1
    { claimId := (approvalClaim 5 "").claimId, decision := approvalDecision 5 wire' }
  have hfound : (approvedLedger (approvedLedger openedLedger approvalState 0 4 wire) first 1 5
      wire').sets.get? "approval" = some both := OrderedMap.get?_insert_self _ _ _
  have ha : both.approvals 0
      = some { claimId := (approvalClaim 4 "").claimId, decision := approvalDecision 4 wire } := rfl
  have hb : both.approvals 1
      = some { claimId := (approvalClaim 5 "").claimId, decision := approvalDecision 5 wire' } := rfl
  have hexecute := execute_executes hfound rfl ha hb (allowed_approvalDecision h.wire)
    (allowed_approvalDecision h'.wire)
  exact ⟨_, (((Run.single hopen).snoc (ledgerStep_recorded hzero)).snoc
    (ledgerStep_recorded hone)).snoc (ledgerStep_executed hexecute)⟩

/-- Each root has an approval on the empty table. -/
theorem exists_rootApproval {n : UInt8} (hn : n ≠ 9) :
    ∃ bundleHash bundleWire wire, RootApproval [] n bundleHash firstHead bundleWire wire := by
  obtain ⟨bundleWire, hbundle⟩ := exists_approvalBundle n
  obtain ⟨_, _, wire, _, htexts⟩ := exists_allowTexts hn
    (validPrefixedDigest_bundleHash (counting []) bundleWire) validateReceiptHead_first rfl
    (by simp [firstHead, maxSafe]) rfl
  exact ⟨_, bundleWire, wire, htexts.rootApproval rfl (hbundle []).1 (hbundle []).2⟩

/-! ## The law -/

/-- What holds of a run of the ledger, in whatever order its calls came. -/
structure LedgerLaw (P : Primitives) (events : List LedgerEvent) (t : Ledger) : Prop where
  kept : ∀ before after u, events = before ++ after → LedgerRun P .empty before u →
    LedgerRun P u after t → LedgerKeeps u t
  oneSet : ∀ id id' slot slot' d d' wire wire', Accepted events id slot d wire →
    Accepted events id' slot' d' wire' → d.claimId = d'.claimId → id = id'
  oneClaim : ∀ id slot d d' wire wire', Accepted events id slot d wire →
    Accepted events id slot d' wire' → d.claimId = d'.claimId
  once : (executedSets events).Nodup
  executed : ∀ before after id first second,
    events = before ++ (.execute id first second, .ok .executed) :: after →
    ∃ state shown, Execution P before id first second state shown

/-- A claim is accepted for one set. -/
theorem LedgerRun.oneSet {t : Ledger} (run : LedgerRun P .empty events t) {id id' : String}
    {slot slot' : Nat} {d d' : V2ReleasedDecision} {wire wire' : Bytes}
    (h : Accepted events id slot d wire) (h' : Accepted events id' slot' d' wire')
    (hclaim : d.claimId = d'.claimId) : id = id' := by
  obtain ⟨_, _, _, _, _, _, hown⟩ := (ledgerRun_inv run).accepted _ _ _ _ h
  obtain ⟨_, _, _, _, _, _, hown'⟩ := (ledgerRun_inv run).accepted _ _ _ _ h'
  rw [hclaim, hown'] at hown
  exact (Option.some.inj hown).symm

/-- A slot is filled by one claim. -/
theorem LedgerRun.oneClaim {t : Ledger} (run : LedgerRun P .empty events t) {id : String}
    {slot : Nat} {d d' : V2ReleasedDecision} {wire wire' : Bytes}
    (h : Accepted events id slot d wire) (h' : Accepted events id slot d' wire') :
    d.claimId = d'.claimId := by
  obtain ⟨u, a, hslot, hu, ha, hclaim, -⟩ := (ledgerRun_inv run).accepted _ _ _ _ h
  obtain ⟨u', a', _, hu', ha', hclaim', -⟩ := (ledgerRun_inv run).accepted _ _ _ _ h'
  obtain rfl := Option.some.inj (hu.symm.trans hu')
  obtain rfl := Option.some.inj (ha.symm.trans ha')
  exact hclaim.symm.trans hclaim'

/-- What a set was executed from. -/
theorem LedgerRun.execution {t : Ledger} {before after : List LedgerEvent} {id : String}
    {first second : V2StoreResult Int}
    (run : LedgerRun P .empty (before ++ (.execute id first second, .ok .executed) :: after) t) :
    ∃ state shown, Execution P before id first second state shown := by
  obtain ⟨u, hbefore, hrest⟩ := Run.append_iff.mp run
  have hsplit : LedgerRun P u ([(.execute id first second, .ok .executed)] ++ after) t := hrest
  obtain ⟨v, hlast, -⟩ := Run.append_iff.mp hsplit
  have hsnoc : LedgerRun P u ([] ++ [(.execute id first second, .ok .executed)]) v := hlast
  obtain ⟨w, hnil, hstep⟩ := Run.snoc_iff.mp hsnoc
  obtain rfl := Run.nil_iff.mp hnil
  exact (ledgerRun_inv hbefore).execution hstep

/-- However the calls of the ledger are interleaved, no call takes back an approval, a claim
is accepted for one set and a slot for one claim, and a set executes at most once, from an
accepted approval of each of its two roots. -/
theorem ledgerRun_law {t : Ledger} (run : LedgerRun P .empty events t) : LedgerLaw P events t where
  kept := fun _ _ _ _ _ hafter => hafter.keeps
  oneSet := fun _ _ _ _ _ _ _ _ h h' hclaim => run.oneSet h h' hclaim
  oneClaim := fun _ _ _ _ _ _ h h' => run.oneClaim h h'
  once := (ledgerRun_inv run).once
  executed := by
    rintro before after id first second rfl
    exact run.execution

/-- With a set that is opened, approved by both roots and executed. -/
theorem ledgerRun_law_approval : ∃ (P : Primitives) (events : List LedgerEvent) (t : Ledger),
    LedgerLaw P events t ∧ executedSets events = ["approval"] := by
  obtain ⟨_, bundleWire, wire, hzero⟩ := @exists_rootApproval 4 (by decide)
  obtain ⟨_, bundleWire', wire', hone⟩ := @exists_rootApproval 5 (by decide)
  obtain ⟨t, run⟩ := exists_approvalRun hzero hone
  exact ⟨counting [], _, t, ledgerRun_law run, rfl⟩

end RatifyProtocol.V2
