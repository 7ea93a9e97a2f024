import RatifyProtocol.V2.Journal.Valid
set_option autoImplicit false

/-!
# Journal: what a later record keeps of an earlier one

`Succeeds` is the order the validator enforces from one record to the next:
bindings are only added, epochs never go back, denials only grow, and within an
epoch the floor and the highest observed sequence never fall.  It composes, so
it holds between any two records of a chain.
-/

namespace RatifyProtocol.V2

open Foundation

/-- A later state of one issuer. -/
structure IssuerSucceeds (a b : RevocationStatusStateV2) : Prop where
  epoch : a.statusKeyEpoch ≤ b.statusKeyEpoch
  key : a.statusKeyEpoch = b.statusKeyEpoch → a.statusKeyId = b.statusKeyId
  rekeyed : a.statusKeyEpoch < b.statusKeyEpoch → a.statusKeyId ∈ b.retiredStatusKeyIds
  retired : a.retiredStatusKeyIds ⊆ b.retiredStatusKeyIds
  notReinstated : b.statusKeyId ∉ a.retiredStatusKeyIds
  denyUnion : a.denyUnionCertIds ⊆ b.denyUnionCertIds
  hasFloor : a.statusKeyEpoch = b.statusKeyEpoch → a.hasFloor = true → b.hasFloor = true
  floor : a.statusKeyEpoch = b.statusKeyEpoch → a.floor ≤ b.floor
  maxObserved : a.statusKeyEpoch = b.statusKeyEpoch →
    a.maxObservedSequence ≤ b.maxObservedSequence

/-- A later record. -/
structure Succeeds (a b : SecurityJournalV2) : Prop where
  keyRoles : a.keyRoleHistory ⊆ b.keyRoleHistory
  statusKeys : a.statusKeyHistory ⊆ b.statusKeyHistory
  issuers : ∀ id s, a.statusByIssuer.get? id = some s →
    ∃ t, b.statusByIssuer.get? id = some t ∧ IssuerSucceeds s t

theorem IssuerSucceeds.trans {a b c : RevocationStatusStateV2} (h : IssuerSucceeds a b)
    (h' : IssuerSucceeds b c) : IssuerSucceeds a c where
  epoch := h.epoch.trans h'.epoch
  key heq := by
    have hab : a.statusKeyEpoch = b.statusKeyEpoch := by
      have h₁ := h.epoch
      have h₂ := h'.epoch
      omega
    exact (h.key hab).trans (h'.key (hab.symm.trans heq))
  rekeyed hlt := by
    rcases Nat.lt_or_ge a.statusKeyEpoch b.statusKeyEpoch with hab | hab
    · exact h'.retired (h.rekeyed hab)
    · have heq : a.statusKeyEpoch = b.statusKeyEpoch := Nat.le_antisymm h.epoch hab
      rw [h.key heq]
      exact h'.rekeyed (heq ▸ hlt)
  retired := List.Subset.trans h.retired h'.retired
  notReinstated hmem := h'.notReinstated (h.retired hmem)
  denyUnion := List.Subset.trans h.denyUnion h'.denyUnion
  hasFloor heq hfloor := by
    have h₁ := h.epoch
    have h₂ := h'.epoch
    exact h'.hasFloor (by omega) (h.hasFloor (by omega) hfloor)
  floor heq := by
    have h₁ := h.epoch
    have h₂ := h'.epoch
    exact (h.floor (by omega)).trans (h'.floor (by omega))
  maxObserved heq := by
    have h₁ := h.epoch
    have h₂ := h'.epoch
    exact (h.maxObserved (by omega)).trans (h'.maxObserved (by omega))

theorem Succeeds.trans {a b c : SecurityJournalV2} (h : Succeeds a b) (h' : Succeeds b c) :
    Succeeds a c where
  keyRoles := List.Subset.trans h.keyRoles h'.keyRoles
  statusKeys := List.Subset.trans h.statusKeys h'.statusKeys
  issuers id s hs := by
    obtain ⟨t, ht, hst⟩ := h.issuers id s hs
    obtain ⟨u, hu, htu⟩ := h'.issuers id t ht
    exact ⟨u, hu, hst.trans htu⟩

/-! ## Bounds validation sets -/

/-- The parts of `validate_binding` that a later state is compared by. -/
structure BindingBounds (s : RevocationStatusStateV2) : Prop where
  floor : 0 ≤ s.floor
  maxObserved : 0 ≤ s.maxObservedSequence
  unset : s.hasFloor = false → s.floor = 0
  current : s.statusKeyId ∉ s.retiredStatusKeyIds

theorem bindingBounds_of_ok {s : RevocationStatusStateV2} {issuerId : String} {epoch : Nat}
    {u : Unit} (h : validateBinding s issuerId epoch = .ok u) : BindingBounds s := by
  obtain ⟨-, h⟩ := refuseIf_bind_eq_ok_iff.mp h
  obtain ⟨-, h⟩ := refuseIf_bind_eq_ok_iff.mp h
  obtain ⟨hnegative, h⟩ := refuseIf_bind_eq_ok_iff.mp h
  obtain ⟨-, h⟩ := refuseIf_bind_eq_ok_iff.mp h
  obtain ⟨-, h⟩ := refuseIf_bind_eq_ok_iff.mp h
  obtain ⟨hunset, h⟩ := refuseIf_bind_eq_ok_iff.mp h
  obtain ⟨-, h⟩ := refuseIf_bind_eq_ok_iff.mp h
  obtain ⟨-, h⟩ := refuseIf_bind_eq_ok_iff.mp h
  obtain ⟨hretired, -⟩ := refuseIf_bind_eq_ok_iff.mp h
  simp only [Bool.or_eq_false_iff, decide_eq_false_iff_not, not_lt] at hnegative
  simp only [Bool.or_eq_false_iff] at hretired
  refine {
    floor := hnegative.1.1
    maxObserved := hnegative.1.2
    unset := fun hno => ?_
    current := by simpa using hretired.2 }
  simp only [hno, Bool.not_false, Bool.true_and, Bool.or_eq_false_iff,
    bne_eq_false_iff_eq] at hunset
  exact hunset.1.1

variable {P : Primitives} {J : JournalPrimitives}

/-! ## One transition -/

/-- States whose key IDs one history fixes have one key in one epoch. -/
theorem key_eq_of_histories {history history' : List StatusKeyBindingV2} {id : String}
    {s t : RevocationStatusStateV2} (hasc : EpochsAscend history')
    (hsub : history ⊆ history') (hs : IssuerValid P history id s)
    (ht : IssuerValid P history' id t) (hepoch : s.statusKeyEpoch = t.statusKeyEpoch) :
    s.statusKeyId = t.statusKeyId := by
  obtain ⟨b, hb, hbs⟩ := hs.key
  obtain ⟨c, hc, hct⟩ := ht.key
  have hb' : b ∈ history ∧ b.issuerId = id ∧ b.epoch = s.statusKeyEpoch := by
    have hmatch := List.find?_some hb
    simp only [Bool.and_eq_true, beq_iff_eq] at hmatch
    exact ⟨List.mem_of_find?_eq_some hb, hmatch⟩
  have hc' := (statusBindingAtEpoch_eq_some_iff hasc).mp hc
  have heq : b = c := hasc.eq_of_epoch (hsub hb'.1) hc'.1 (hb'.2.1.trans hc'.2.1.symm)
    (hb'.2.2.trans (hepoch.trans hc'.2.2.symm))
  rw [← hbs, heq, hct]

/-- What an accepted change of one issuer's state keeps. -/
theorem issuerSucceeds_of_transition {history history' : List StatusKeyBindingV2} {id : String}
    {s t : RevocationStatusStateV2} {u : Unit} (hasc : EpochsAscend history')
    (hsub : history ⊆ history') (hs : IssuerValid P history id s)
    (ht : IssuerValid P history' id t) (h : validateIssuerTransition s t = .ok u) :
    IssuerSucceeds s t := by
  obtain ⟨hdeny, h⟩ := refuseIf_bind_eq_ok_iff.mp h
  obtain ⟨-, h⟩ := refuseIf_bind_eq_ok_iff.mp h
  obtain ⟨hepoch, h⟩ := refuseIf_bind_eq_ok_iff.mp h
  obtain ⟨hreset, h⟩ := refuseIf_bind_eq_ok_iff.mp h
  obtain ⟨-, h⟩ := refuseIf_bind_eq_ok_iff.mp h
  obtain ⟨hfloor, h⟩ := refuseIf_bind_eq_ok_iff.mp h
  obtain ⟨hmax, -⟩ := refuseIf_bind_eq_ok_iff.mp h
  have hbounds := bindingBounds_of_ok hs.binding
  have hbounds' := bindingBounds_of_ok ht.binding
  have hkey := key_eq_of_histories hasc hsub hs ht
  have hle : s.statusKeyEpoch ≤ t.statusKeyEpoch := by simpa using hepoch
  have hretire : s.statusKeyEpoch < t.statusKeyEpoch →
      ∀ k, k ∈ t.retiredStatusKeyIds ↔ k ∈ s.retiredStatusKeyIds ++ [s.statusKeyId] := by
    intro hlt
    simp only [hlt, decide_true, Bool.true_and, epochResetMissing, Bool.or_eq_false_iff,
      Bool.not_eq_false'] at hreset
    exact equalSets_iff.mp hreset.1.1.1.1.1.1.1.1.1.1.1.2
  have hretired : s.retiredStatusKeyIds ⊆ t.retiredStatusKeyIds := by
    intro k hk
    rcases Nat.lt_or_ge s.statusKeyEpoch t.statusKeyEpoch with hlt | hge
    · exact (hretire hlt k).mpr (List.mem_append_left _ hk)
    · -- Within an epoch both states retire what their histories retire.
      have heq : s.statusKeyEpoch = t.statusKeyEpoch := Nat.le_antisymm hle hge
      refine (ht.retired k).mpr ?_
      have hmem := (hs.retired k).mp hk
      simp only [retiredKeys, List.mem_map, List.mem_filter] at hmem ⊢
      obtain ⟨b, ⟨hb, hold⟩, hbk⟩ := hmem
      exact ⟨b, ⟨hsub hb, heq ▸ hold⟩, hbk⟩
  refine {
    epoch := hle
    key := hkey
    rekeyed := fun hlt => (hretire hlt _).mpr (List.mem_append_right _ (by simp))
    retired := hretired
    notReinstated := fun hmem => hbounds'.current (hretired hmem)
    denyUnion := fun k hk => ?_
    hasFloor := fun heq hhas => ?_
    floor := fun heq => ?_
    maxObserved := fun heq => ?_ }
  · exact containsAll_iff.mp (by simpa using hdeny) k hk
  · simp only [heq, hhas, beq_self_eq_true, Bool.true_and, Bool.or_eq_false_iff,
      Bool.not_eq_false'] at hfloor
    exact hfloor.1
  · cases hhas : s.hasFloor with
    | false =>
      rw [hbounds.unset hhas]
      exact hbounds'.floor
    | true =>
      simp only [heq, hhas, beq_self_eq_true, Bool.true_and, Bool.or_eq_false_iff,
        decide_eq_false_iff_not, not_lt] at hfloor
      exact hfloor.2
  · simp only [heq, beq_self_eq_true, Bool.true_and, decide_eq_false_iff_not, not_lt] at hmax
    exact hmax

theorem validateIssuerTransitions_ok {next : SecurityJournalV2}
    {entries : List (String × RevocationStatusStateV2)} {u : Unit}
    (h : validateIssuerTransitions next entries = .ok u) :
    ∀ e ∈ entries, ∃ t, next.statusByIssuer.get? e.1 = some t
      ∧ validateIssuerTransition e.2 t = .ok () := by
  induction entries with
  | nil => intro e he; simp at he
  | cons e entries ih =>
    obtain ⟨v, hv, hrest⟩ := bind_eq_ok_iff.mp h
    intro x hx
    rcases List.mem_cons.mp hx with rfl | hx
    · unfold validateIssuerKept at hv
      split at hv
      · exact absurd hv plain_ne_ok
      · rename_i t ht
        exact ⟨t, ht, hv⟩
    · exact ih hrest x hx

/-- A transition the validator accepts. -/
structure AcceptedTransition (J : JournalPrimitives) (current next : SecurityJournalV2) :
    Prop where
  currentValid : JournalValid J current
  nextValid : JournalValid J next
  generation : next.generation = current.generation + 1
  previous : next.previousDigest = current.digest
  version : next.version = securityJournalVersionV2
  succeeds : Succeeds current next

theorem acceptedTransition_of_ok {current next : SecurityJournalV2} {u : Unit}
    (h : validateSecurityJournalTransitionInner J current next = .ok u) :
    AcceptedTransition J current next := by
  obtain ⟨v, hcurrent, h⟩ := bind_eq_ok_iff.mp h
  obtain ⟨w, hnext, h⟩ := bind_eq_ok_iff.mp h
  obtain ⟨hplace, h⟩ := refuseIf_bind_eq_ok_iff.mp h
  obtain ⟨hversion, h⟩ := refuseIf_bind_eq_ok_iff.mp h
  obtain ⟨-, h⟩ := refuseIf_bind_eq_ok_iff.mp h
  obtain ⟨hhistory, h⟩ := refuseIf_bind_eq_ok_iff.mp h
  obtain ⟨x, hissuers, -⟩ := bind_eq_ok_iff.mp h
  have hcurrent' := journalValid_of_ok J (withContext_eq_ok_iff.mp hcurrent)
  have hnext' := journalValid_of_ok J (withContext_eq_ok_iff.mp hnext)
  simp only [Bool.or_eq_false_iff, bne_eq_false_iff_eq] at hplace
  simp only [Bool.or_eq_false_iff, Bool.not_eq_false', List.all_eq_true,
    List.contains_iff_mem] at hhistory
  refine {
    currentValid := hcurrent'
    nextValid := hnext'
    generation := hplace.1.symm
    previous := hplace.2
    version := by simpa using hversion
    succeeds := {
      keyRoles := hhistory.1
      statusKeys := hhistory.2
      issuers := fun id s hs => ?_ } }
  obtain ⟨t, ht, hst⟩ := validateIssuerTransitions_ok hissuers (id, s)
    (OrderedMap.mem_entries_iff.mpr hs)
  exact ⟨t, ht, issuerSucceeds_of_transition (epochsAscend_of_valid hnext'.statusKeys) hhistory.2
    (hcurrent'.issuers id s hs) (hnext'.issuers id t ht) hst⟩

end RatifyProtocol.V2
