import RatifyProtocol.Foundation.Run
import RatifyProtocol.V2.Status.Checks
set_option autoImplicit false

/-!
# Status: runs of the reducer and what a state remembers of them

A run is a sequence of deliveries and epoch transitions that all succeed, from
the default state and under one policy.  `History` ties a state to the deliveries
so far: the deny union is exactly the IDs they name, and every retained
observation comes from one of them.
-/

namespace RatifyProtocol.V2

open Foundation

/-! ## Runs -/

/-- One object handed to the reducer. -/
structure Delivery where
  object : StatusObject
  issuerId : String
  epoch : Nat
  key : HybridPublicKey
  now : Int
  deriving DecidableEq, Repr

/-- One step on an issuer's state. -/
inductive StatusStep
  | deliver (d : Delivery)
  | transition (issuerId : String) (nextEpoch : Nat) (nextStatusKey : HybridPublicKey)
  deriving DecidableEq, Repr

/-- Apply the delivered object. -/
def applyDelivery (P : Primitives) (policy : RevocationStatusPolicyV2)
    (s : RevocationStatusStateV2) (d : Delivery) : V2Result RevocationStatusStateV2 :=
  match d.object with
  | .list l => applyRevocationListV2 P s l d.issuerId d.epoch d.key policy d.now
  | .push p => applyRevocationPushV2 P s p d.issuerId d.epoch d.key policy d.now

def statusStep (P : Primitives) (policy : RevocationStatusPolicyV2)
    (s : RevocationStatusStateV2) : StatusStep → V2Result RevocationStatusStateV2
  | .deliver d => applyDelivery P policy s d
  | .transition issuerId nextEpoch nextStatusKey =>
    transitionRevocationStatusEpochV2 P s issuerId nextEpoch nextStatusKey

/-- A successful step. -/
def StatusTransition (P : Primitives) (policy : RevocationStatusPolicyV2)
    (s : RevocationStatusStateV2) (i : StatusStep) (t : RevocationStatusStateV2) : Prop :=
  statusStep P policy s i = .ok t

/-- The successful steps `is` lead from the default state to `s`. -/
abbrev StatusRun (P : Primitives) (policy : RevocationStatusPolicyV2) (is : List StatusStep)
    (s : RevocationStatusStateV2) : Prop :=
  Run (StatusTransition P policy) {} is s

theorem statusRun_unique {P : Primitives} {policy : RevocationStatusPolicyV2}
    {is : List StatusStep} {s t : RevocationStatusStateV2} (h₁ : StatusRun P policy is s)
    (h₂ : StatusRun P policy is t) : s = t := by
  refine Run.unique ?_ h₁ h₂
  intro s i t u ht hu
  exact Except.ok.inj (ht.symm.trans hu)

/-- The deliveries among the steps, in order. -/
def deliveries (is : List StatusStep) : List Delivery :=
  is.filterMap fun
    | .deliver d => some d
    | .transition .. => none

@[simp] theorem deliveries_nil : deliveries [] = [] := rfl

@[simp] theorem deliveries_deliver (is : List StatusStep) (d : Delivery) :
    deliveries (is ++ [.deliver d]) = deliveries is ++ [d] := by
  simp [deliveries]

@[simp] theorem deliveries_transition (is : List StatusStep) (issuerId : String) (epoch : Nat)
    (key : HybridPublicKey) :
    deliveries (is ++ [.transition issuerId epoch key]) = deliveries is := by
  simp [deliveries]

theorem deliveries_append (is js : List StatusStep) :
    deliveries (is ++ js) = deliveries is ++ deliveries js := by
  simp [deliveries]

/-- The objects delivered. -/
def objectsOf (H : List Delivery) : Set StatusObject := {x | ∃ d ∈ H, d.object = x}

theorem objectsOf_append_left (H K : List Delivery) : objectsOf H ⊆ objectsOf (H ++ K) := by
  rintro x ⟨d, hd, rfl⟩
  exact ⟨d, by simp [hd], rfl⟩

/-! ## Provenance -/

/-- The delivery is of the observation's type, epoch and sequence. -/
def Delivery.Matches (d : Delivery) (o : RevocationObservationV2) : Prop :=
  d.epoch = o.statusKeyEpoch ∧ d.object.objectType = o.objectType ∧
    d.object.sequence = o.sequence

/-- The digests and the IDs of an observation come from deliveries of `H`.
Compaction may take them from two of them. -/
structure Sourced (P : Primitives) (H : List Delivery) (o : RevocationObservationV2) : Prop where
  evidence : ∃ d ∈ H, d.Matches o ∧ d.object.evidenceDigest P = .ok o.evidenceDigest
  body : ∃ d ∈ H, d.Matches o ∧
    (∃ text, d.object.signable = .ok text ∧ o.bodyDigest = P.sha384 text) ∧
    d.object.setDigest P = .ok o.revokedSetDigest ∧
    ∀ id ∈ o.revokedCertIds, id ∈ d.object.ids

/-- What the state keeps of the deliveries so far. -/
structure History (P : Primitives) (H : List Delivery) (s : RevocationStatusStateV2) : Prop where
  sourced : ∀ o ∈ s.observations, Sourced P H o
  denied : ∀ id, id ∈ s.denyUnionCertIds ↔ ∃ d ∈ H, id ∈ d.object.ids
  epoch_le : ∀ d ∈ H, d.epoch ≤ s.statusKeyEpoch
  observed : ∀ d ∈ H, d.epoch = s.statusKeyEpoch → d.object.sequence ≤ s.maxObservedSequence
  snapshot : ∀ snap, s.acceptedSnapshot = some snap →
    ∃ d ∈ H, d.object = .list snap ∧ d.epoch = s.statusKeyEpoch

variable {P : Primitives} {H : List Delivery} {s s' b r : RevocationStatusStateV2}
  {o a : RevocationObservationV2}

theorem Sourced.mono {K : List Delivery} (h : Sourced P H o) (hsub : ∀ d ∈ H, d ∈ K) :
    Sourced P K o := by
  obtain ⟨d, hd, hrest⟩ := h.evidence
  obtain ⟨d', hd', hrest'⟩ := h.body
  exact ⟨⟨d, hsub d hd, hrest⟩, ⟨d', hsub d' hd', hrest'⟩⟩

theorem history_default : History P [] {} where
  sourced := by simp
  denied := by simp
  epoch_le := by simp
  observed := by simp
  snapshot := by simp

/-- Marking an observation leaves its source. -/
theorem Sourced.mark (h : Sourced P H o) (f g c : Bool) :
    Sourced P H { o with fork := f, gap := g, accepted := c } :=
  ⟨h.evidence, h.body⟩

/-! ## One delivery -/

section Delivery

variable {d : Delivery} {policy : RevocationStatusPolicyV2}

/-- The checks of a delivery. -/
abbrev Delivery.Checks (P : Primitives) (policy : RevocationStatusPolicyV2)
    (s : RevocationStatusStateV2) (d : Delivery) (b : RevocationStatusStateV2)
    (o : RevocationObservationV2) : Prop :=
  V2.Checks P s d.object d.issuerId d.epoch d.key policy d.now b o

theorem Delivery.Checks.matches (hc : d.Checks P policy s b o) : d.Matches o :=
  ⟨hc.epoch_eq.symm, hc.objectType.symm, hc.sequence.symm⟩

/-- The sighting of a delivery comes from it. -/
theorem Delivery.Checks.sourced (hc : d.Checks P policy s b o) : Sourced P (H ++ [d]) o :=
  ⟨⟨d, by simp, hc.matches, hc.digest⟩,
    ⟨d, by simp, hc.matches, hc.body, hc.set, fun id hid => hc.ids ▸ hid⟩⟩

/-- Binding a state keeps what it remembers. -/
theorem History.bound (h : History P H s) (hs : WellFormed P s) (hc : d.Checks P policy s b o) :
    History P H b := by
  rw [hc.bound, boundState]
  split
  · rename_i hi
    obtain rfl := hs.unbound hi
    have hpos := hc.epoch_pos
    refine ⟨by simp, h.denied, fun e he => (h.epoch_le e he).trans (Nat.zero_le _), ?_, by simp⟩
    intro e he heq
    have hle : e.epoch ≤ 0 := h.epoch_le e he
    have heq : e.epoch = d.epoch := heq
    omega
  · exact h

/-- An object that shares a digest with a retained observation is one the state
already knows: nothing it names is new. -/
theorem History.redelivered (h : History P H b) (hfree : CollisionFree P (objectsOf (H ++ [d])))
    (hb : WellFormed P b) (hc : d.Checks P policy s b o) (ha : a ∈ b.observations)
    (hrec : Recalls a o) : Redelivered b o := by
  obtain ⟨hep, hty, hseq, hdig⟩ := hrec
  have hnew : d.object ∈ objectsOf (H ++ [d]) := ⟨d, by simp, rfl⟩
  have hold : ∀ e ∈ H, e.object ∈ objectsOf (H ++ [d]) := fun e he => ⟨e, by simp [he], rfl⟩
  refine ⟨?_, ?_⟩
  · rw [← hseq]
    exact (hb.evidence.observations a ha).observed (hep.trans hc.sightingOk.epoch)
  -- Some earlier delivery names the same IDs.
  suffices hsame : ∃ e ∈ H, ∀ id, id ∈ d.object.ids → id ∈ e.object.ids by
    obtain ⟨e, he, hids⟩ := hsame
    intro id hid
    exact (h.denied id).mpr ⟨e, he, hids id (hc.ids ▸ hid)⟩
  have hsrc := h.sourced a ha
  rcases hdig with hdig | hdig | ⟨hpush, hdig⟩
  · obtain ⟨e, he, hm, hev⟩ := hsrc.evidence
    have heq : e.object = d.object := hfree.eq_of_evidenceDigest (hold e he) hnew
      (hm.2.1.trans (hty.trans hc.objectType)) hev (hdig ▸ hc.digest)
    exact ⟨e, he, fun id hid => heq ▸ hid⟩
  · obtain ⟨e, he, hm, -, hset, -⟩ := hsrc.body
    exact ⟨e, he, fun id hid =>
      (hfree.ids_of_setDigest (hold e he) hnew hset (hdig ▸ hc.set) id).mpr hid⟩
  · obtain ⟨e, he, hm, ⟨text, ht, hbody⟩, -⟩ := hsrc.body
    obtain ⟨text', ht', hbody'⟩ := hc.body
    have hxe : e.object.objectType = PUSH := hm.2.1.trans (hty.trans hpush)
    have hxd : d.object.objectType = PUSH := hc.objectType.symm.trans hpush
    refine ⟨e, he, fun id hid => ?_⟩
    have hne : ¬ LIST = PUSH := by decide
    have hoe := hold e he
    cases hx : e.object with
    | list l => rw [hx] at hxe; exact absurd hxe hne
    | push p =>
      cases hy : d.object with
      | list l => rw [hy] at hxd; exact absurd hxd hne
      | push q =>
        rw [hx] at hoe ht
        rw [hy] at hnew ht' hid
        have hrefs := hfree.ids_of_bodyDigest hoe hnew ht ht' (by rw [← hbody, ← hbody', hdig])
        simpa [StatusObject.ids, StatusObject.refs, hrefs] using hid

/-- The state after a delivery remembers it. -/
theorem History.deliver (h : History P H b) (hc : d.Checks P policy s b o)
    (hobs : ∀ a ∈ r.observations, a ∈ b.observations ∨ ∃ f g c,
      a = { o with fork := f, gap := g, accepted := c })
    (hdeny : ∀ id, id ∈ r.denyUnionCertIds ↔ id ∈ b.denyUnionCertIds ∨ id ∈ o.revokedCertIds)
    (hep : r.statusKeyEpoch = b.statusKeyEpoch)
    (hmax : r.maxObservedSequence = max b.maxObservedSequence o.sequence)
    (hsnap : r.acceptedSnapshot = b.acceptedSnapshot ∨
      ∃ l, d.object = .list l ∧ r.acceptedSnapshot = some l) :
    History P (H ++ [d]) r where
  sourced := by
    intro a ha
    rcases hobs a ha with ha | ⟨f, g, c, rfl⟩
    · exact (h.sourced a ha).mono fun e he => by simp [he]
    · exact hc.sourced.mark f g c
  denied := by
    intro id
    rw [hdeny, h.denied, hc.ids]
    constructor
    · rintro (⟨e, he, hid⟩ | hid)
      · exact ⟨e, by simp [he], hid⟩
      · exact ⟨d, by simp, hid⟩
    · rintro ⟨e, he, hid⟩
      rcases List.mem_append.mp he with he | he
      · exact .inl ⟨e, he, hid⟩
      · exact .inr (List.mem_singleton.mp he ▸ hid)
  epoch_le := by
    intro e he
    rw [hep]
    rcases List.mem_append.mp he with he | he
    · exact h.epoch_le e he
    · rw [List.mem_singleton.mp he, hc.bound_fields.2.1]
  observed := by
    intro e he heq
    rw [hmax]
    rcases List.mem_append.mp he with he | he
    · exact (h.observed e he (heq.trans hep)).trans (le_max_left _ _)
    · rw [List.mem_singleton.mp he, ← hc.sequence]
      exact le_max_right _ _
  snapshot := by
    intro snap hs
    rw [hep]
    rcases hsnap with hsame | ⟨l, hl, hnew⟩
    · obtain ⟨e, he, hrest⟩ := h.snapshot snap (hsame ▸ hs)
      exact ⟨e, by simp [he], hrest⟩
    · obtain rfl := Option.some.inj (hnew.symm.trans hs)
      exact ⟨d, by simp, hl, hc.bound_fields.2.1.symm⟩

/-! ## Outcomes of a delivery -/

/-- The reducer on a bound state and a checked object. -/
def reduceObject (P : Primitives) (policy : RevocationStatusPolicyV2) (now : Int)
    (b : RevocationStatusStateV2) (x : StatusObject) (o : RevocationObservationV2) :
    V2Result RevocationStatusStateV2 :=
  match x with
  | .list l => reduceList P b l o.evidenceDigest o (listFresh l policy now)
  | .push p => .ok (reducePush b p o)

/-- The outcomes of a delivery, list or push, before compaction. -/
inductive Outcome (P : Primitives) (policy : RevocationStatusPolicyV2)
    (b : RevocationStatusStateV2) (d : Delivery) (o : RevocationObservationV2) :
    RevocationStatusStateV2 → Prop
  | settled (known : Redelivered b o) : Outcome P policy b d o b
  | retained (dup : Bool) (f : Option Int) (g : Bool) (known : dup = true → Redelivered b o)
      (fork_le : ∀ n, f = some n → n ≤ max b.maxObservedSequence o.sequence)
      (differs : ∀ a ∈ b.observations, PushesDiffer a o) :
      Outcome P policy b d o (retain b o dup f g)
  | list (l : RevocationListV2) (dup : Bool) (object : d.object = .list l)
      (accepted : listPlacement (sighted b o dup none) o (listFresh l policy d.now)
        (listConflicts b o) = .accepted)
      (known : dup = true → Redelivered b o) :
      Outcome P policy b d o (acceptedList P (sighted b o dup none) l o.evidenceDigest o)
  | push (p : RevocationPushV2) (object : d.object = .push p)
      (continues : pushContinues b o = true)
      (differs : ∀ a ∈ b.observations, PushesDiffer a o) :
      Outcome P policy b d o (acceptedPush (sighted b o false none) o)

theorem outcome_of_reduce (hfree : CollisionFree P (objectsOf (H ++ [d]))) (hb : WellFormed P b)
    (h : History P H b) (hc : d.Checks P policy s b o)
    (hred : reduceObject P policy d.now b d.object o = .ok r) : Outcome P policy b d o r := by
  have hknown : ∀ a ∈ b.observations, Recalls a o → Redelivered b o :=
    fun a ha hrec => h.redelivered hfree hb hc ha hrec
  cases hx : d.object with
  | list l =>
    have hcl : V2.Checks P s (.list l) d.issuerId d.epoch d.key policy d.now b o := hx ▸ hc
    have hdup : duplicates b l o = true → Redelivered b o := by
      intro hd
      obtain ⟨a, ha⟩ := Option.isSome_iff_exists.mp hd
      obtain ⟨hm, hrec⟩ := redelivers_recalls hcl ha
      exact hknown a hm hrec
    rw [hx, reduceObject] at hred
    rcases reduceList_cases hcl hred with ⟨hset, rfl⟩ | ⟨-, g, -, rfl⟩ | ⟨-, hp, rfl⟩
    · obtain ⟨a, ha, hrec⟩ := listSettled_recalls hcl hset
      exact .settled (hknown a ha hrec)
    · refine .retained _ _ g hdup (fun n hn => ?_) (pushesDiffer_of_list hcl)
      rw [listFork_le hn]
      exact le_max_right _ _
    · exact .list l _ hx hp hdup
  | push p =>
    have hcp : V2.Checks P s (.push p) d.issuerId d.epoch d.key policy d.now b o := hx ▸ hc
    rw [hx, reduceObject] at hred
    rcases reducePush_cases hcp (Except.ok.inj hred).symm with
      ⟨hset, rfl⟩ | ⟨hset, -, rfl⟩ | ⟨hset, hcont, rfl⟩
    · obtain ⟨a, ha, hrec⟩ := pushSettled_recalls hcp hset
      exact .settled (hknown a ha hrec)
    · exact .retained false _ _ (by simp) (fun n hn => pushFork_le hb hc.sightingOk hn)
        (pushesDiffer_of_not_settled hcp hset)
    · exact .push p hx hcont (pushesDiffer_of_not_settled hcp hset)

theorem Outcome.wellFormed (hout : Outcome P policy b d o r) (hb : WellFormed P b)
    (hc : d.Checks P policy s b o) : WellFormed P r := by
  cases hout with
  | settled _ => exact hb
  | retained dup f g known fork_le differs =>
    exact hb.retain hc.bound_ne hc.sightingOk hc.unmarked.2.2 known fork_le fun _ => differs
  | list l dup object accepted known =>
    have hcl : V2.Checks P s (.list l) d.issuerId d.epoch d.key policy d.now b o := object ▸ hc
    exact hb.acceptedList hc.bound_ne hc.sightingOk (hcl.acceptable accepted) known
  | push p object continues differs =>
    exact hb.acceptedPush hc.bound_ne hc.sightingOk (hc.objectType.trans (object ▸ rfl)) continues
      differs

/-- Every outcome adds the object's IDs and its sequence, keeps the binding, and
takes no other snapshot than the object. -/
theorem Outcome.effect (hout : Outcome P policy b d o r) (hb : WellFormed P b) :
    r.issuerId = b.issuerId ∧ r.statusKeyEpoch = b.statusKeyEpoch ∧
      r.statusKeyId = b.statusKeyId ∧
      (∀ a ∈ r.observations, a ∈ b.observations ∨ ∃ f g c,
        a = { o with fork := f, gap := g, accepted := c }) ∧
      (∀ id, id ∈ r.denyUnionCertIds ↔ id ∈ b.denyUnionCertIds ∨ id ∈ o.revokedCertIds) ∧
      r.maxObservedSequence = max b.maxObservedSequence o.sequence ∧
      (r.acceptedSnapshot = b.acceptedSnapshot ∨
        ∃ l, d.object = .list l ∧ r.acceptedSnapshot = some l) := by
  have hdeny : ∀ (dup : Bool) (f : Option Int), (dup = true → Redelivered b o) →
      ∀ id, id ∈ (sighted b o dup f).denyUnionCertIds ↔
        id ∈ b.denyUnionCertIds ∨ id ∈ o.revokedCertIds := by
    intro dup f known id
    rw [sighted_denyUnion hb.evidence known, mem_sortedUnique, List.mem_append]
  cases hout with
  | settled known =>
    refine ⟨rfl, rfl, rfl, fun a ha => .inl ha, fun id => ?_,
      (max_eq_left known.1).symm, .inl rfl⟩
    exact ⟨.inl, fun hid => hid.elim (fun h => h) (known.2 id)⟩
  | retained dup f g known fork_le differs =>
    refine ⟨rfl, rfl, rfl, fun a ha => ?_, hdeny dup f known,
      sighted_maxObserved (f := f) known, .inl rfl⟩
    cases dup with
    | true => exact .inl ha
    | false =>
      rcases List.mem_append.mp ha with ha | ha
      · exact .inl ha
      · exact .inr ⟨f.isSome, g, o.accepted, List.mem_singleton.mp ha⟩
  | list l dup object accepted known =>
    obtain ⟨e₁, e₂, e₃, -, e₅, e₆⟩ := acceptedList_same (P := P) (s := sighted b o dup none)
      (o := o) l o.evidenceDigest
    refine ⟨e₁, e₂, e₃, fun a ha => ?_, fun id => e₅ ▸ hdeny dup none known id,
      e₆.trans (sighted_maxObserved known), ?_⟩
    · rcases List.mem_append.mp ha with ha | ha
      · exact .inl ha
      · exact .inr ⟨o.fork, o.gap, true, List.mem_singleton.mp ha⟩
    · unfold acceptedList refreshSnapshot
      dsimp only
      split
      · split
        · exact .inr ⟨l, object, rfl⟩
        · exact .inl rfl
      · exact .inr ⟨l, object, rfl⟩
  | push p object continues differs =>
    refine ⟨rfl, rfl, rfl, fun a ha => ?_, hdeny false none (by simp), rfl, .inl rfl⟩
    rcases List.mem_append.mp ha with ha | ha
    · exact .inl ha
    · exact .inr ⟨o.fork, o.gap, true, List.mem_singleton.mp ha⟩

/-- An application is the checks, the reducer and compaction. -/
theorem applyDelivery_eq_ok_iff (hs : WellFormed P s) {t : RevocationStatusStateV2} :
    applyDelivery P policy s d = .ok t ↔
      ∃ b o r, d.Checks P policy s b o ∧
        reduceObject P policy d.now b d.object o = .ok r ∧ t = compactBound P r := by
  unfold applyDelivery
  cases hx : d.object with
  | list l =>
    simp only [applyRevocationListV2, classify_eq_ok_iff, bind_eq_ok_iff,
      applyListInner_eq_ok_iff hs, Except.ok.injEq, Delivery.Checks, hx, reduceObject]
    constructor
    · rintro ⟨r, ⟨b, o, hc, hr⟩, rfl⟩
      exact ⟨b, o, r, hc, hr, rfl⟩
    · rintro ⟨b, o, r, hc, hr, rfl⟩
      exact ⟨r, ⟨b, o, hc, hr⟩, rfl⟩
  | push p =>
    simp only [applyRevocationPushV2, classify_eq_ok_iff, bind_eq_ok_iff,
      applyPushInner_eq_ok_iff hs, Except.ok.injEq, Delivery.Checks, hx, reduceObject]
    constructor
    · rintro ⟨r, ⟨b, o, hc, rfl⟩, rfl⟩
      exact ⟨b, o, _, hc, rfl, rfl⟩
    · rintro ⟨b, o, r, hc, rfl, rfl⟩
      exact ⟨_, ⟨b, o, hc, rfl⟩, rfl⟩

/-- An object that passes its checks is always applied. -/
theorem Delivery.Checks.applies (hs : WellFormed P s) (hc : d.Checks P policy s b o) :
    ∃ t, applyDelivery P policy s d = .ok t := by
  obtain ⟨r, hr⟩ : ∃ r, reduceObject P policy d.now b d.object o = .ok r := by
    cases hx : d.object with
    | list l =>
      have hcl : V2.Checks P s (.list l) d.issuerId d.epoch d.key policy d.now b o := hx ▸ hc
      exact ⟨_, reduceList_eq (cloneList_of_digest hcl.digest) hcl.sequence hcl.ids
        hcl.unmarked.1 hcl.unmarked.2.1⟩
    | push p => exact ⟨_, rfl⟩
  exact ⟨_, (applyDelivery_eq_ok_iff hs).mpr ⟨b, o, r, hc, hr, rfl⟩⟩

/-! ## Steps and runs -/

theorem compactBound_of_bound (h : r.issuerId ≠ "") : compactBound P r = compact P r := by
  simp [compactBound, h]

/-- Compaction takes every digest and ID from what was retained. -/
theorem History.compact (h : History P H r) (hr : WellFormed P r)
    (hfree : CollisionFree P (objectsOf H)) : History P H (compact P r) where
  sourced := by
    have hobj : ∀ e ∈ H, e.object ∈ objectsOf H := fun e he => ⟨e, he, rfl⟩
    intro c hcm
    obtain ⟨e, he, rfl⟩ := (mem_compact_observations P).mp hcm
    obtain ⟨g, hrep, hg, -⟩ := (compactionOf_compactEntries P r).group he
    have hmatch : ∀ {d : Delivery} {x : RevocationObservationV2}, x ∈ g → d.Matches x →
        d.Matches e.2 := by
      intro d x hx hm
      obtain ⟨m₁, m₂, m₃, -⟩ := hrep.member hx
      exact ⟨hm.1.trans m₂.symm, hm.2.1.trans m₁.symm, hm.2.2.trans m₃.symm⟩
    obtain ⟨x, hx, hev⟩ := hrep.evidence
    obtain ⟨y, hy, -, hbody, hset⟩ := hrep.origin
    obtain ⟨d₁, hd₁, hm₁, hdig⟩ := (h.sourced x (hg x hx)).evidence
    obtain ⟨d₂, hd₂, hm₂, htext, hsetd, hids⟩ := (h.sourced y (hg y hy)).body
    refine ⟨⟨d₁, hd₁, hmatch hx hm₁, hev ▸ hdig⟩, ⟨d₂, hd₂, hmatch hy hm₂, hbody ▸ htext,
      hset ▸ hsetd, ?_⟩⟩
    -- The members of a group name the same IDs: a list by its set, a push by its body.
    intro id hid
    obtain ⟨z, hz, hmem⟩ := hrep.ids_of id hid
    have hkey : semanticKey z = semanticKey y := (hrep.key z hz).trans (hrep.key y hy).symm
    rcases (hr.evidence.observations y (hg y hy)).objectType with ht | ht
    · obtain ⟨d₃, hd₃, -, -, hset₃, hids₃⟩ := (h.sourced z (hg z hz)).body
      obtain ⟨-, htz, -, hdz, -⟩ := semanticKey_eq_iff.mp hkey
      have hsame : z.revokedSetDigest = y.revokedSetDigest := by
        simpa [htz.trans ht, ht] using hdz
      exact (hfree.ids_of_setDigest (hobj d₃ hd₃) (hobj d₂ hd₂) hset₃ (hsame ▸ hsetd) id).mp
        (hids₃ id hmem)
    · have htz : z.objectType = PUSH := (semanticKey_eq_iff.mp hkey).2.1.trans ht
      have heq := push_eq_of_key hr.evidence (hg z hz) (hg y hy) htz hkey
      exact hids id (heq ▸ hmem)
  denied := by
    intro id
    rw [compact_denyUnionCertIds, mem_sortedUnique, h.denied]
  epoch_le := h.epoch_le
  observed := h.observed
  snapshot := h.snapshot

/-- A delivery keeps the invariant and is remembered. -/
theorem deliver_keeps (hfree : CollisionFree P (objectsOf (H ++ [d]))) (hs : WellFormed P s)
    (h : History P H s) {t : RevocationStatusStateV2}
    (happ : applyDelivery P policy s d = .ok t) :
    WellFormed P t ∧ History P (H ++ [d]) t ∧ ∃ b o r, d.Checks P policy s b o ∧
      Outcome P policy b d o r ∧ reduceObject P policy d.now b d.object o = .ok r ∧
      t = compact P r := by
  obtain ⟨b, o, r, hc, hred, rfl⟩ := (applyDelivery_eq_ok_iff hs).mp happ
  have hb := hc.wellFormed hs
  have hh := h.bound hs hc
  have hout := outcome_of_reduce hfree hb hh hc hred
  have hr := hout.wellFormed hb hc
  obtain ⟨e₁, e₂, -, e₄, e₅, e₆, e₇⟩ := hout.effect hb
  have hne : r.issuerId ≠ "" := e₁ ▸ hc.bound_ne
  rw [compactBound_of_bound hne]
  exact ⟨hr.compact hne, (hh.deliver hc e₄ e₅ e₂ e₆ e₇).compact hr hfree, b, o, r, hc, hout, hred,
    rfl⟩

end Delivery

/-! ## Epoch transitions -/

/-- The state after a transition: a new epoch with nothing accepted in it. -/
def epochState (s : RevocationStatusStateV2) (nextEpoch : Nat) (keyId : String) :
    RevocationStatusStateV2 :=
  { s with
    retiredStatusKeyIds := sortedUnique (s.retiredStatusKeyIds ++ [s.statusKeyId])
    statusKeyEpoch := nextEpoch
    statusKeyId := keyId
    hasFloor := false
    floor := 0
    acceptedSnapshot := none
    acceptedCertIds := []
    hasPrecedingCheckpoint := false
    precedingFloor := 0
    precedingAcceptedCertIds := []
    maxObservedSequence := 0
    forkSequence := 0
    reconciliationRequired := false
    futureDatedObjectObserved := false }

/-- Exactly when a transition of a well-formed state succeeds, and its result. -/
theorem transition_eq_ok_iff (hs : WellFormed P s) {issuerId : String} {nextEpoch : Nat}
    {key : HybridPublicKey} {t : RevocationStatusStateV2} :
    transitionRevocationStatusEpochV2 P s issuerId nextEpoch key = .ok t ↔
      issuerId ≠ "" ∧ s.issuerId = issuerId ∧ nextEpoch = s.statusKeyEpoch + 1 ∧
        (nextEpoch : Int) ≤ maxSafe ∧ validateAcceptedState P s = .ok () ∧
        ∃ keyId, keyIdV2 P key = .ok keyId ∧ keyId ≠ s.statusKeyId ∧
          keyId ∉ s.retiredStatusKeyIds ∧ t = epochState s nextEpoch keyId := by
  simp only [transitionRevocationStatusEpochV2, classify_eq_ok_iff, bind_eq_ok_iff,
    refuseIf_eq_ok_iff, withContext_eq_ok_iff, hs.validateBinding_iff, keyIdPlain_eq_ok_iff,
    hs.cloneState, ok_bind, Except.ok.injEq, Bool.or_eq_false_iff, beq_eq_false_iff_ne,
    bne_eq_false_iff_eq, decide_eq_false_iff_not, not_lt, ge_iff_le, not_le,
    List.contains_eq_mem]
  constructor
  · rintro ⟨_, ⟨⟨hi, -⟩, hle⟩, _, ⟨⟨⟨heq, -⟩, -⟩, hnext⟩, _, -, _, hacc, keyId, hk, _, ⟨hne, hret⟩,
      rfl⟩
    exact ⟨hi, heq, hnext, hle, hacc, keyId, hk, hne, hret, rfl⟩
  · rintro ⟨hi, heq, hnext, hle, hacc, keyId, hk, hne, hret, rfl⟩
    have hbound : s.issuerId ≠ "" := heq ▸ hi
    have hpos := hs.binding.epoch_pos hbound
    refine ⟨(), ⟨⟨hi, by omega⟩, hle⟩, (), ⟨⟨⟨heq, by omega⟩, by omega⟩, hnext⟩, (),
      ⟨fun _ => ⟨heq.symm, trivial⟩, hpos, hs.binding.epoch_le⟩, (), hacc, keyId, hk, (), ⟨hne, hret⟩,
      rfl⟩

theorem WellFormed.epochState (hs : WellFormed P s) (hbound : s.issuerId ≠ "") {keyId : String}
    (hle : ((s.statusKeyEpoch + 1 : Nat) : Int) ≤ maxSafe) (hkey : validV2Id keyId = true)
    (hne : keyId ≠ s.statusKeyId) (hret : keyId ∉ s.retiredStatusKeyIds) :
    WellFormed P (epochState s (s.statusKeyEpoch + 1) keyId) where
  unbound := fun he => absurd he hbound
  binding :=
    { epoch_pos := fun _ => Nat.succ_pos _
      epoch_le := hle
      keyId := fun _ => hkey
      retired_sorted := sortedUnique_idem _
      retired_other := by simp [V2.epochState, hne, hret]
      retired_valid := by
        intro k hk
        rcases List.mem_append.mp (mem_sortedUnique.mp hk) with hk | hk
        · exact hs.binding.retired_valid k hk
        · rw [List.mem_singleton.mp hk]
          exact hs.binding.keyId hbound }
  evidence := by
    have hd := (wellFormed_default P).evidence
    have hold : ∀ o ∈ s.observations, o.statusKeyEpoch ≠ s.statusKeyEpoch + 1 := by
      intro o ho he
      have := (hs.evidence.observations o ho).epoch_le
      omega
    refine ⟨fun o ho => ?_, hs.evidence.pushes, hs.evidence.accepted, ?_, hs.evidence.deny_sorted,
      hs.evidence.witnessed, le_refl _, hd.max_le, le_refl _, le_refl _, le_refl _, hd.fork_open,
      hd.future_open⟩
    · exact
        { hs.evidence.observations o ho with
          epoch_le := (hs.evidence.observations o ho).epoch_le.trans (Nat.le_succ _)
          observed := fun he => absurd he (hold o ho) }
    · exact fun o ho he _ => absurd he (hold o ho)
  floor := ⟨rfl, rfl, le_refl _, (wellFormed_default P).floor.preceding_le, fun _ => rfl,
    fun _ => ⟨rfl, rfl, rfl⟩, by simp [V2.epochState]⟩

theorem History.epochState (h : History P H s) (keyId : String) :
    History P H (epochState s (s.statusKeyEpoch + 1) keyId) where
  sourced := h.sourced
  denied := h.denied
  epoch_le := fun d hd => (h.epoch_le d hd).trans (Nat.le_succ _)
  observed := fun d hd he => by
    have h₁ := h.epoch_le d hd
    have h₂ : d.epoch = s.statusKeyEpoch + 1 := he
    omega
  snapshot := by simp [V2.epochState]

/-- A transition keeps the invariant. -/
theorem transition_keeps (hs : WellFormed P s) (h : History P H s) {issuerId : String}
    {nextEpoch : Nat} {key : HybridPublicKey} {t : RevocationStatusStateV2}
    (htr : transitionRevocationStatusEpochV2 P s issuerId nextEpoch key = .ok t) :
    WellFormed P t ∧ History P H t := by
  obtain ⟨hi, heq, rfl, hle, -, keyId, hk, hne, hret, rfl⟩ := (transition_eq_ok_iff hs).mp htr
  exact ⟨hs.epochState (heq ▸ hi) hle (validV2Id_of_keyIdV2 P hk) hne hret, h.epochState keyId⟩

/-- Every run from the default state reaches a well-formed state that remembers
its deliveries, as long as SHA-384 does not collide on them. -/
theorem reachable_keeps {policy : RevocationStatusPolicyV2} {is : List StatusStep}
    (hrun : StatusRun P policy is s) (hfree : CollisionFree P (objectsOf (deliveries is))) :
    WellFormed P s ∧ History P (deliveries is) s := by
  induction hrun with
  | nil => exact ⟨wellFormed_default P, history_default⟩
  | @snoc is t u i run last ih =>
    cases i with
    | deliver d =>
      rw [deliveries_deliver] at hfree ⊢
      obtain ⟨ht, hh⟩ := ih (hfree.mono (objectsOf_append_left _ _))
      obtain ⟨hu, hhu, -⟩ := deliver_keeps hfree ht hh last
      exact ⟨hu, hhu⟩
    | transition issuerId nextEpoch key =>
      rw [deliveries_transition] at hfree ⊢
      obtain ⟨ht, hh⟩ := ih hfree
      exact transition_keeps ht hh last

end RatifyProtocol.V2
