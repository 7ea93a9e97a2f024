import RatifyProtocol.V2.Reference.ApprovalLedger
import RatifyProtocol.V2.Delegation.RoundTrip
import RatifyProtocol.Foundation.Run
set_option autoImplicit false

/-!
# Reference: runs of the approval ledger

However the calls of the ledger are interleaved, a set executes at most once and only
on two released allows for two roots, a claim counts in one slot of one set, and a
filled slot keeps its approval.
-/

namespace RatifyProtocol.V2

open Foundation

/-! ## Calls -/

inductive LedgerCall where
  | openSet (set : ApprovalSetTestOnly)
  | recordApproval (setId : String) (slot : Nat) (decision : Option V2ReleasedDecision)
      (bundleWire : Bytes)
  | execute (setId : String) (first second : V2StoreResult Int)

inductive LedgerReply where
  | opened
  | recorded (complete : Bool)
  | executed
  deriving DecidableEq

variable (P : Primitives)

def LedgerCall.perform : LedgerCall → ApprovalM LedgerReply
  | openSet set => Operation.reply (fun _ => .opened) (V2.openSet P set)
  | recordApproval setId slot decision bundleWire =>
    Operation.reply .recorded (V2.recordApproval P setId slot decision bundleWire)
  | execute setId first second =>
    Operation.reply (fun _ => .executed) (V2.execute setId first second)

/-- A call with its answer. -/
abbrev LedgerEvent := LedgerCall × Except ApprovalErrorTestOnly LedgerReply

def LedgerStep (s : Ledger) (i : LedgerEvent) (t : Ledger) : Prop := i.1.perform P s = (i.2, t)

abbrev LedgerRun (s : Ledger) (events : List LedgerEvent) (t : Ledger) : Prop :=
  Run (LedgerStep P) s events t

variable {P}

/-! ## What a call checks -/

theorem refuseApproval_eq_ok_iff {bad : Prop} [Decidable bad] {e : ApprovalErrorTestOnly}
    {u : Unit} : refuseApproval bad e = .ok u ↔ ¬bad := by
  by_cases h : bad <;> simp [refuseApproval, h]

@[simp] theorem orRefuse_eq_ok_iff {α ε : Type} {e : ApprovalErrorTestOnly} {x : Except ε α}
    {a : α} : orRefuse e x = .ok a ↔ x = .ok a :=
  mapError_eq_ok_iff

theorem find_eq_ok_iff {s : Ledger} {setId : String} {state : ApprovalState} :
    s.find setId = .ok state ↔ s.sets.get? setId = some state := by
  unfold Ledger.find
  cases s.sets.get? setId <;> simp

/-- A presented approval approves the action of a set in a slot. -/
structure Approves (P : Primitives) (state : ApprovalState) (slot : Fin 2)
    (shown : PresentedApproval) : Prop where
  allow : shown.decision.decision = "allow"
  receipt : shown.decision.receipt = .ok shown.receipt
  hash : bundleHashV2 P shown.bundle = .ok shown.receipt.bundleHash
  verifier : shown.receipt.verifierId = state.set.verifierId.1
    ∧ shown.bundle.verifierId = state.set.verifierId.1
  agent : shown.receipt.agentId = state.agentId ∧ shown.bundle.agentId = state.agentId
    ∧ shown.bundle.agentPubKey = state.set.agentPublicKey
  scope : shown.receipt.requiredScope = state.set.requiredScope
  context : shown.bundle.sessionContext = some state.sessionContext
  root : ∃ root, shown.bundle.delegations.getLast? = some root
    ∧ root.issuerId = state.rootIds slot ∧ root.issuerPubKey = state.set.roots slot
  issuer : state.rootIds slot ∈ shown.receipt.issuerIds

theorem presentApproval_eq_ok {decision : Option V2ReleasedDecision} {bundleWire : Bytes}
    {shown : PresentedApproval} (h : presentApproval P decision bundleWire = .ok shown) :
    decision = some shown.decision ∧ shown.decision.decision = "allow"
      ∧ shown.decision.receipt = .ok shown.receipt
      ∧ decodeProofBundleV2 P bundleWire = .ok shown.bundle
      ∧ bundleHashV2 P shown.bundle = .ok shown.receipt.bundleHash := by
  cases decision with
  | none => cases h
  | some decision =>
    simp only [presentApproval, bind_eq_ok_iff, refuseApproval_eq_ok_iff, orRefuse_eq_ok_iff,
      Except.ok.injEq] at h
    obtain ⟨_, hallow, receipt, hreceipt, bundle, hbundle, hash, hhash, _, hsame, rfl⟩ := h
    exact ⟨rfl, not_not.mp hallow, hreceipt, hbundle, by rw [hhash, not_not.mp hsame]⟩

theorem approves_of_bindApproval {state : ApprovalState} {slot : Fin 2}
    {shown : PresentedApproval} {decision : Option V2ReleasedDecision} {bundleWire : Bytes}
    (hshown : presentApproval P decision bundleWire = .ok shown)
    (h : bindApproval state slot shown = .ok ()) : Approves P state slot shown := by
  obtain ⟨-, hallow, hreceipt, -, hhash⟩ := presentApproval_eq_ok hshown
  simp only [bindApproval, bind_eq_ok_iff, refuseApproval_eq_ok_iff, not_or, not_not] at h
  obtain ⟨_, ⟨hr, hb, hra, hba, hkey, hscope, hcontext⟩, h⟩ := h
  cases hlast : shown.bundle.delegations.getLast? with
  | none =>
    rw [hlast] at h
    cases h
  | some root =>
    rw [hlast] at h
    simp only [refuseApproval_eq_ok_iff, not_or, not_not] at h
    exact
      { allow := hallow, receipt := hreceipt, hash := hhash
        verifier := ⟨hr, hb⟩, agent := ⟨hra, hba, hkey⟩
        scope := hscope, context := hcontext, root := ⟨root, hlast, h.1, h.2.1⟩
        issuer := h.2.2 }

/-! ## What a call does -/

/-- What one call did to the ledger. -/
inductive LedgerEffect (P : Primitives) :
    LedgerCall → Ledger → Except ApprovalErrorTestOnly LedgerReply → Ledger → Prop
  | refused {call : LedgerCall} {s : Ledger} (e : ApprovalErrorTestOnly) :
      LedgerEffect P call s (.error e) s
  | opened {set : ApprovalSetTestOnly} {s : Ledger} {state : ApprovalState}
      (fresh : freshApprovalState P set = .ok state)
      (new : s.sets.get? set.approvalSetId.1 = none) :
      LedgerEffect P (.openSet set) s (.ok .opened)
        { s with sets := s.sets.insert set.approvalSetId.1 state }
  | held {setId : String} {slot : Fin 2} {decision : V2ReleasedDecision} {bundleWire : Bytes}
      {s : Ledger} {state : ApprovalState} {current : ApprovalRecord}
      (found : s.sets.get? setId = some state) (holds : state.approvals slot = some current)
      (same : current.claimId = decision.claimId) :
      LedgerEffect P (.recordApproval setId slot (some decision) bundleWire) s
        (.ok (.recorded state.complete)) s
  | filled {setId : String} {slot : Fin 2} {bundleWire : Bytes} {s : Ledger}
      {state : ApprovalState} {shown : PresentedApproval}
      (found : s.sets.get? setId = some state) (empty : state.approvals slot = none)
      (unused : ∀ owner, s.recorded.get? shown.decision.claimId = some owner → owner = setId)
      (decoded : decodeProofBundleV2 P bundleWire = .ok shown.bundle)
      (approves : Approves P state slot shown) :
      LedgerEffect P (.recordApproval setId slot (some shown.decision) bundleWire) s
        (.ok (.recorded
          (state.fill slot { claimId := shown.decision.claimId, decision := shown.decision }).complete))
        { sets := s.sets.insert setId
            (state.fill slot { claimId := shown.decision.claimId, decision := shown.decision })
          recorded := s.recorded.insert shown.decision.claimId setId }
  | executed {setId : String} {first second : V2StoreResult Int} {s : Ledger}
      {state : ApprovalState} {a b : ApprovalRecord} (found : s.sets.get? setId = some state)
      (pending : state.executed = false) (zero : state.approvals 0 = some a)
      (one : state.approvals 1 = some b) (allowedZero : a.decision.allowed first = true)
      (allowedOne : b.decision.allowed second = true) :
      LedgerEffect P (.execute setId first second) s (.ok .executed)
        { s with sets := s.sets.insert setId { state with executed := true } }

theorem openSet_effect {set : ApprovalSetTestOnly} {s t : Ledger}
    {r : Except ApprovalErrorTestOnly Unit} (h : V2.openSet P set s = (r, t)) :
    LedgerEffect P (.openSet set) s (r.map fun _ => .opened) t := by
  obtain ⟨e, rfl, rfl⟩ | ⟨state, hfresh, h⟩ := Operation.lift_bind_cases h
  · exact .refused e
  obtain ⟨_, hget, -⟩ | ⟨ledger, _, hget, h⟩ := Operation.bind_cases h
  · cases hget
  cases hget
  by_cases hknown : s.sets.contains set.approvalSetId.1 = true
  · rw [if_pos hknown] at h
    cases h
    exact .refused _
  · rw [if_neg hknown] at h
    cases h
    refine .opened hfresh ?_
    simpa only [OrderedMap.contains, Option.isSome_iff_ne_none, ne_eq, not_not] using hknown

theorem recordApproval_effect {setId : String} {slot : Nat} {decision : Option V2ReleasedDecision}
    {bundleWire : Bytes} {s t : Ledger} {r : Except ApprovalErrorTestOnly Bool}
    (h : V2.recordApproval P setId slot decision bundleWire s = (r, t)) :
    LedgerEffect P (.recordApproval setId slot decision bundleWire) s (r.map .recorded) t := by
  unfold V2.recordApproval at h
  split at h
  case isFalse =>
    cases h
    exact .refused _
  rename_i hslot
  obtain ⟨e, rfl, rfl⟩ | ⟨shown, hshown, hget⟩ := Operation.lift_bind_cases h
  · exact .refused e
  clear h
  obtain ⟨hdecision, -, -, hdecoded, -⟩ := presentApproval_eq_ok hshown
  subst hdecision
  obtain ⟨_, hno, -⟩ | ⟨ledger, s', hledger, hfind⟩ := Operation.bind_cases hget
  · cases hno
  clear hget
  obtain ⟨rfl, rfl⟩ : s = ledger ∧ s = s' := by
    cases hledger
    exact ⟨rfl, rfl⟩
  obtain ⟨e, rfl, rfl⟩ | ⟨state, hfound, howned⟩ := Operation.lift_bind_cases hfind
  · exact .refused e
  clear hfind hledger
  have hset := find_eq_ok_iff.mp hfound
  obtain ⟨e, rfl, rfl⟩ | ⟨_, hunused, hbound⟩ := Operation.lift_bind_cases howned
  · exact .refused e
  clear howned
  obtain ⟨e, rfl, rfl⟩ | ⟨_, hbind, hslotted⟩ := Operation.lift_bind_cases hbound
  · exact .refused e
  clear hbound
  have happroves := approves_of_bindApproval hshown hbind
  cases hcurrent : state.approvals ⟨slot, hslot⟩ with
  | some current =>
    simp only [hcurrent] at hslotted
    by_cases hother : current.claimId ≠ shown.decision.claimId
    · rw [if_pos hother] at hslotted
      cases hslotted
      exact .refused _
    · rw [if_neg hother] at hslotted
      cases hslotted
      exact .held hset hcurrent (not_not.mp hother)
  | none =>
    simp only [hcurrent] at hslotted
    cases hslotted
    refine .filled hset hcurrent (fun owner howner => ?_) hdecoded happroves
    by_contra hne
    exact refuseApproval_eq_ok_iff.mp hunused ⟨owner, howner, hne⟩

theorem execute_effect {setId : String} {first second : V2StoreResult Int} {s t : Ledger}
    {r : Except ApprovalErrorTestOnly Unit} (h : V2.execute setId first second s = (r, t)) :
    LedgerEffect P (.execute setId first second) s (r.map fun _ => .executed) t := by
  obtain ⟨_, hget, -⟩ | ⟨ledger, _, hget, h⟩ := Operation.bind_cases h
  · cases hget
  cases hget
  obtain ⟨e, rfl, rfl⟩ | ⟨state, hfound, h⟩ := Operation.lift_bind_cases h
  · exact .refused e
  have hset := find_eq_ok_iff.mp hfound
  by_cases hdone : state.executed = true
  · rw [if_pos hdone] at h
    cases h
    exact .refused _
  rw [if_neg hdone] at h
  cases hzero : state.approvals 0 with
  | none =>
    rw [hzero] at h
    cases h
    exact .refused _
  | some a =>
    cases hone : state.approvals 1 with
    | none =>
      rw [hzero, hone] at h
      cases h
      exact .refused _
    | some b =>
      rw [hzero, hone] at h
      by_cases hallowed : (a.decision.allowed first && b.decision.allowed second) = true
      · simp only [if_pos hallowed] at h
        cases h
        obtain ⟨ha, hb⟩ := Bool.and_eq_true_iff.mp hallowed
        exact .executed hset (Bool.not_eq_true _ ▸ hdone) hzero hone ha hb
      · simp only [if_neg hallowed] at h
        cases h
        exact .refused _

theorem ledgerStep_effect {s t : Ledger} {i : LedgerEvent} (h : LedgerStep P s i t) :
    LedgerEffect P i.1 s i.2 t := by
  obtain ⟨call, r⟩ := i
  cases call with
  | openSet set =>
    obtain ⟨hr, ht⟩ := Prod.mk.inj h
    subst hr
    exact openSet_effect (Prod.ext rfl ht)
  | recordApproval setId slot decision bundleWire =>
    obtain ⟨hr, ht⟩ := Prod.mk.inj h
    subst hr
    exact recordApproval_effect (Prod.ext rfl ht)
  | execute setId first second =>
    obtain ⟨hr, ht⟩ := Prod.mk.inj h
    subst hr
    exact execute_effect (Prod.ext rfl ht)

end RatifyProtocol.V2
