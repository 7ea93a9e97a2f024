import RatifyProtocol.Foundation.StableSort
import RatifyProtocol.V2.Status.Covering
set_option autoImplicit false

/-!
# Status: how a reachable state arranges its observations

`compact` strips an ID from an observation once an earlier one witnesses it.  In
every reachable state the observations are sorted, and each of its prefixes
still witnesses every ID that the set digests in it stand for (`Arranged`).
Compaction establishes this from a sorted list whose prefixes do, and a delivery
adds one observation with all its IDs.
-/

namespace RatifyProtocol.V2

open Foundation

variable {P : Primitives} {X : Set StatusObject} {s : RevocationStatusStateV2} {base : Bytes}
  {a b o r : RevocationObservationV2} {c : CompactLoop}
  {seen obs xs ys : List RevocationObservationV2}

/-! ## The sort key -/

instance : Std.TransCmp compareObservations :=
  inferInstanceAs (Std.TransCmp (compareLex (compareOn RevocationObservationV2.statusKeyEpoch)
    (compareLex (compareOn RevocationObservationV2.sequence)
      (compareLex (compareOn RevocationObservationV2.objectType)
        (compareLex (compareOn RevocationObservationV2.revokedSetDigest)
          (compareOn RevocationObservationV2.bodyDigest))))))

/-- The sort leaves `a` before `b`. -/
abbrev InOrder (a b : RevocationObservationV2) : Prop := compareObservations a b ≠ .gt

instance : Std.Total InOrder := total_of_compare compareObservations

instance : IsTrans RevocationObservationV2 InOrder := trans_of_compare compareObservations

/-- The five fields `compact` sorts by. -/
def sortFields (o : RevocationObservationV2) : Nat × Int × Nat × Bytes × Bytes :=
  (o.statusKeyEpoch, o.sequence, o.objectType, o.revokedSetDigest, o.bodyDigest)

theorem inOrder_congr {a' b' : RevocationObservationV2} (ha : sortFields a = sortFields a')
    (hb : sortFields b = sortFields b') : InOrder a b ↔ InOrder a' b' := by
  simp only [sortFields, Prod.mk.injEq] at ha hb
  obtain ⟨h₁, h₂, h₃, h₄, h₅⟩ := ha
  obtain ⟨k₁, k₂, k₃, k₄, k₅⟩ := hb
  simp only [InOrder, compareObservations, h₁, h₂, h₃, h₄, h₅, k₁, k₂, k₃, k₄, k₅]

theorem inOrder_of_tie (h : sortFields a = sortFields b) : InOrder a b := by
  rw [inOrder_congr h rfl]
  exact (Std.Total.total (r := InOrder) b b).elim id id

/-- A list whose sort fields are a sublist of a sorted list's is sorted. -/
theorem pairwise_of_sortFields (h : (xs.map sortFields).Sublist (ys.map sortFields))
    (hy : ys.Pairwise InOrder) : xs.Pairwise InOrder := by
  obtain ⟨zs, hzs, hmap⟩ := List.sublist_map_iff.mp h
  have hz := hy.sublist hzs
  clear h hzs hy
  induction xs generalizing zs with
  | nil => exact .nil
  | cons x xs ih =>
    cases zs with
    | nil => cases hmap
    | cons z zs =>
      rw [List.map_cons, List.map_cons, List.cons.injEq] at hmap
      rw [List.pairwise_cons] at hz ⊢
      refine ⟨fun y hy => ?_, ih zs hmap.2 hz.2⟩
      have hmem : sortFields y ∈ zs.map sortFields := hmap.2 ▸ List.mem_map_of_mem hy
      obtain ⟨w, hw, hyw⟩ := List.mem_map.mp hmem
      exact (inOrder_congr hmap.1 hyw.symm).mpr (hz.1 w hw)

/-! ## Witnesses -/

/-- The set digest stands for a set with `id` in it. -/
def Named (P : Primitives) (X : Set StatusObject) (digest : Bytes) (id : String) : Prop :=
  ∃ x ∈ X, x.setDigest P = .ok digest ∧ id ∈ x.ids

/-- Every ID that the set digests of `obs` stand for is in an observation of `obs`. -/
def SelfWitnessed (P : Primitives) (X : Set StatusObject) (obs : List RevocationObservationV2) :
    Prop :=
  ∀ o ∈ obs, ∀ id, Named P X o.revokedSetDigest id → ∃ w ∈ obs, id ∈ w.revokedCertIds

/-- The set digest of an observation and the IDs left in it. -/
def witness (o : RevocationObservationV2) : Bytes × List String :=
  (o.revokedSetDigest, sortedUnique o.revokedCertIds)

theorem selfWitnessed_nil : SelfWitnessed P X [] := by
  simp [SelfWitnessed]

theorem SelfWitnessed.congr (h : SelfWitnessed P X xs) (heq : xs.map witness = ys.map witness) :
    SelfWitnessed P X ys := by
  intro o ho id hid
  have hmem : witness o ∈ xs.map witness := heq ▸ List.mem_map_of_mem ho
  obtain ⟨o', ho', heq'⟩ := List.mem_map.mp hmem
  have hset : o'.revokedSetDigest = o.revokedSetDigest := congrArg Prod.fst heq'
  obtain ⟨w, hw, hin⟩ := h o' ho' id (hset ▸ hid)
  have hmem' : witness w ∈ ys.map witness := heq ▸ List.mem_map_of_mem hw
  obtain ⟨w', hw', heqw⟩ := List.mem_map.mp hmem'
  have hids : sortedUnique w'.revokedCertIds = sortedUnique w.revokedCertIds :=
    congrArg Prod.snd heqw
  refine ⟨w', hw', ?_⟩
  rw [← mem_sortedUnique, hids, mem_sortedUnique]
  exact hin

/-- Prefixes witness their sets whatever the other fields are. -/
theorem selfWitnessed_congr (h : ∀ pre, pre <+: xs → SelfWitnessed P X pre)
    (heq : xs.map witness = ys.map witness) : ∀ pre, pre <+: ys → SelfWitnessed P X pre := by
  intro pre hpre
  have hmap : pre.map witness <+: xs.map witness := heq ▸ hpre.map witness
  obtain ⟨pre', hpre', heq'⟩ := List.prefix_map_iff.mp hmap
  exact (h pre' hpre').congr heq'.symm

/-- More IDs in the same observations witness no less. -/
theorem SelfWitnessed.map {β : Type} {f g : β → RevocationObservationV2} {l : List β}
    (h : SelfWitnessed P X (l.map f))
    (hset : ∀ e, (g e).revokedSetDigest = (f e).revokedSetDigest)
    (hids : ∀ e, ∀ id ∈ (f e).revokedCertIds, id ∈ (g e).revokedCertIds) :
    SelfWitnessed P X (l.map g) := by
  intro o ho id hid
  obtain ⟨e, he, rfl⟩ := List.mem_map.mp ho
  obtain ⟨w, hw, hin⟩ := h (f e) (List.mem_map_of_mem he) id (hset e ▸ hid)
  obtain ⟨e', he', rfl⟩ := List.mem_map.mp hw
  exact ⟨g e', List.mem_map_of_mem he', hids e' id hin⟩

/-- One more observation is witnessed when the longer list witnesses its set. -/
theorem SelfWitnessed.concat (h : SelfWitnessed P X xs)
    (ho : ∀ id, Named P X o.revokedSetDigest id → ∃ w ∈ xs ++ [o], id ∈ w.revokedCertIds) :
    SelfWitnessed P X (xs ++ [o]) := by
  intro a ha id hid
  rcases List.mem_append.mp ha with ha | ha
  · obtain ⟨w, hw, hin⟩ := h a ha id hid
    exact ⟨w, List.mem_append_left _ hw, hin⟩
  · rw [List.mem_singleton.mp ha] at hid
    exact ho id hid

/-! ## The loop -/

/-- The IDs one round keeps of an observation. -/
def keptIds (s : RevocationStatusStateV2) (base : Bytes) (c : CompactLoop)
    (o : RevocationObservationV2) : List String :=
  if acceptedBase s base o || mustRetain s o then o.revokedCertIds
  else newWitnesses c.witnessed o.revokedCertIds

/-- One round folds the observation into the entry of its key, or adds an entry. -/
theorem compactStep_cases (s : RevocationStatusStateV2) (base : Bytes) (c : CompactLoop)
    (o : RevocationObservationV2) :
    ((∃ e ∈ c.retained, e.1 = semanticKey o) ∧
      (compactStep s base c o).retained = c.retained.map fun e =>
        if e.1 == semanticKey o then (e.1, mergeInto s base o (keptIds s base c o) e.2) else e) ∨
    (semanticKey o ∉ c.retained.map Prod.fst ∧ (compactStep s base c o).retained
      = c.retained ++ [(semanticKey o, { o with revokedCertIds := keptIds s base c o })]) := by
  by_cases hin : (c.retained.any fun e => e.1 == semanticKey o) = true
  · left
    obtain ⟨e, he, hk⟩ := List.any_eq_true.mp hin
    refine ⟨⟨e, he, by simpa using hk⟩, ?_⟩
    simp only [compactStep, hin, ↓reduceIte]
    rfl
  · right
    refine ⟨fun hmem => ?_, ?_⟩
    · obtain ⟨e, he, hk⟩ := List.mem_map.mp hmem
      exact hin (List.any_eq_true.mpr ⟨e, he, by simpa using hk⟩)
    · simp only [compactStep, hin, Bool.false_eq_true, ↓reduceIte]
      rfl

@[simp] theorem sortFields_mergeInto {ids : List String} :
    sortFields (mergeInto s base o ids r) = sortFields r := by
  unfold mergeInto
  split <;> rfl

@[simp] theorem mergeInto_revokedSetDigest {ids : List String} :
    (mergeInto s base o ids r).revokedSetDigest = r.revokedSetDigest := by
  unfold mergeInto
  split <;> rfl

/-- What the loop keeps of the order of the observations `seen`. -/
structure LoopOrder (P : Primitives) (X : Set StatusObject) (seen : List RevocationObservationV2)
    (c : CompactLoop) : Prop where
  fields : (c.retained.map fun e => sortFields e.2).Sublist (seen.map sortFields)
  witnessed : ∀ pre, pre <+: c.retained.map Prod.snd → SelfWitnessed P X pre

theorem LoopOrder.nil : LoopOrder P X [] { retained := [], witnessed := [] } where
  fields := List.Sublist.refl _
  witnessed := by
    intro pre hpre
    rw [List.map_nil, List.prefix_nil] at hpre
    exact hpre ▸ selfWitnessed_nil

theorem LoopOrder.step (h : LoopOrder P X seen c) (hinv : LoopInvariant s base seen c)
    (hwit : SelfWitnessed P X (seen ++ [o])) :
    LoopOrder P X (seen ++ [o]) (compactStep s base c o) := by
  have hnext := hinv.step o
  rcases compactStep_cases s base c o with ⟨-, hret⟩ | ⟨-, hret⟩
  · -- Folding changes neither the sort fields nor the set digest, and adds IDs.
    refine ⟨?_, fun pre hpre => ?_⟩
    · rw [hret, List.map_map]
      have hsame : (c.retained.map ((fun e => sortFields e.2) ∘ fun e =>
          if e.1 == semanticKey o then (e.1, mergeInto s base o (keptIds s base c o) e.2) else e))
          = c.retained.map fun e => sortFields e.2 := by
        refine List.map_congr_left fun e _ => ?_
        simp only [Function.comp_apply]
        split
        · exact sortFields_mergeInto
        · rfl
      rw [hsame, List.map_append]
      exact h.fields.trans (List.sublist_append_left _ _)
    · rw [hret, List.map_map] at hpre
      obtain ⟨pre', hpre', rfl⟩ := List.prefix_map_iff.mp hpre
      refine (h.witnessed _ (hpre'.map Prod.snd)).map (fun e => ?_) fun e id hid => ?_
      · simp only [Function.comp_apply]
        split
        · exact mergeInto_revokedSetDigest
        · rfl
      · simp only [Function.comp_apply]
        split
        · exact mergeInto_ids.mpr (.inl hid)
        · exact hid
  · refine ⟨?_, fun pre hpre => ?_⟩
    · rw [hret, List.map_append, List.map_append]
      exact h.fields.append (List.Sublist.refl _)
    · rw [hret, List.map_append, List.map_singleton] at hpre
      rcases List.prefix_concat_iff.mp hpre with rfl | hpre
      · refine (h.witnessed _ (List.prefix_refl _)).concat fun id hid => ?_
        -- Whatever the round has witnessed is in some entry.
        obtain ⟨w, hw, hin⟩ := hwit o (by simp) id hid
        obtain ⟨e, he, hmem⟩ := hnext.kept id ((hnext.witnessed id).mpr ⟨w, hw, hin⟩)
        rw [hret] at he
        refine ⟨e.2, ?_, hmem⟩
        rcases List.mem_append.mp he with he | he
        · exact List.mem_append_left _ (List.mem_map_of_mem he)
        · rw [List.mem_singleton.mp he]
          exact List.mem_append_right _ (List.mem_singleton_self _)
      · exact h.witnessed pre hpre

theorem LoopOrder.foldl (h : LoopOrder P X seen c) (hinv : LoopInvariant s base seen c)
    (hwit : ∀ pre, pre <+: seen ++ obs → SelfWitnessed P X pre) :
    LoopOrder P X (seen ++ obs) (obs.foldl (compactStep s base) c) := by
  induction obs generalizing seen c with
  | nil => simpa using h
  | cons o obs ih =>
    rw [← List.singleton_append, ← List.append_assoc] at hwit ⊢
    rw [List.singleton_append, List.foldl_cons]
    exact ih (h.step hinv (hwit _ (List.prefix_append _ _))) (hinv.step o) hwit

/-! ## The arrangement -/

/-- The arrangement of the observations of a reachable state.  `X` are the objects
that set digests stand for. -/
structure Arranged (P : Primitives) (X : Set StatusObject) (obs : List RevocationObservationV2) :
    Prop where
  sorted : obs.Pairwise InOrder
  keys : obs.Pairwise fun a b => semanticKey a = semanticKey b → a.futureDated = false
  witnessed : ∀ pre, pre <+: obs → SelfWitnessed P X pre

theorem arranged_nil : Arranged P X [] where
  sorted := .nil
  keys := .nil
  witnessed := by
    intro pre hpre
    rw [List.prefix_nil.mp hpre]
    exact selfWitnessed_nil

/-- An entry keeps its key but for the future mark, which it may lose. -/
theorem Represents.semanticKey_eq {k : SemanticKey} {g : List RevocationObservationV2}
    (h : Represents s base k g r) : semanticKey r = { k with futureDated := r.futureDated } := by
  obtain ⟨o, ho, -, hbody, hset⟩ := h.origin
  have hk := h.key o ho
  have htype : r.objectType = o.objectType := (h.member ho).1
  have hdigest : k.digest = (semanticKey r).digest := by
    rw [← hk]
    simp only [semanticKey, htype, hbody, hset]
  cases k
  simp only [semanticKey, SemanticKey.mk.injEq] at hdigest ⊢
  exact ⟨h.epoch, h.objectType, h.sequence, hdigest.symm, trivial, h.fork⟩

/-- Two entries end with one key only after one of them has lost its future mark. -/
theorem keys_compact : (compact P s).observations.Pairwise
    fun a b => semanticKey a = semanticKey b → a.futureDated = false := by
  have hc := compactionOf_compactEntries P s
  refine pairwise_compact fun a ha b hb hne heq => ?_
  obtain ⟨ga, hra, -⟩ := hc.group ha
  obtain ⟨gb, hrb, -⟩ := hc.group hb
  by_contra hf
  have hfa : a.2.futureDated = true := by simpa using hf
  have hfb : b.2.futureDated = true := by
    rw [← hfa]
    exact (congrArg SemanticKey.futureDated heq).symm
  have hka := hra.semanticKey_eq
  have hkb := hrb.semanticKey_eq
  have hea : semanticKey a.2 = a.1 := by
    rw [hka, hfa, ← hra.future_of hfa]
  have heb : semanticKey b.2 = b.1 := by
    rw [hkb, hfb, ← hrb.future_of hfb]
  exact hne (by rw [← hea, heq, heb])

/-- Compaction arranges what it is given. -/
theorem arranged_compact (hwit : ∀ pre, pre <+: s.observations.insertionSort InOrder →
    SelfWitnessed P X pre) : Arranged P X (compact P s).observations := by
  have hloop := (LoopInvariant.nil s (baseDigest P s))
  have hpre : ∀ pre, pre <+: [] ++ s.observations.insertionSort InOrder →
      SelfWitnessed P X pre := hwit
  have horder := (LoopOrder.nil (P := P) (X := X)).foldl hloop hpre
  rw [List.nil_append] at horder
  refine ⟨?_, keys_compact, ?_⟩
  · refine pairwise_of_sortFields ?_ (List.pairwise_insertionSort InOrder s.observations)
    rw [compact_observations, compactEntries, List.map_map, List.map_map]
    have hmap := settleEntries_map s (baseDigest P s) (fun e => sortFields e.2) (fun _ => rfl)
      ((s.observations.insertionSort InOrder).foldl (compactStep s (baseDigest P s))
        { retained := [], witnessed := [] }).retained
    exact (congrArg (List.Sublist · _) hmap).mpr horder.fields
  · refine selfWitnessed_congr horder.witnessed ?_
    rw [compact_observations, compactEntries, List.map_map, List.map_map, List.map_map]
    have hmap := settleEntries_map s (baseDigest P s) (fun e => witness e.2) (fun _ => rfl)
      ((s.observations.insertionSort InOrder).foldl (compactStep s (baseDigest P s))
        { retained := [], witnessed := [] }).retained
    refine hmap.symm.trans (List.map_congr_left fun e _ => ?_)
    simp [witness]

/-! ## Runs -/

/-- One more observation with all its IDs keeps every prefix witnessed, wherever
the sort puts it. -/
theorem Arranged.concat (h : Arranged P X obs)
    (ho : ∀ id, Named P X o.revokedSetDigest id → id ∈ o.revokedCertIds) :
    ∀ pre, pre <+: (obs ++ [o]).insertionSort InOrder → SelfWitnessed P X pre := by
  obtain ⟨front, back, rfl, hsort⟩ := exists_insertionSort_concat h.sorted o
  rw [hsort]
  intro pre hpre
  rcases List.prefix_or_prefix_of_prefix hpre (List.prefix_append front _) with hle | ⟨rest, rfl⟩
  · exact h.witnessed pre (hle.trans (List.prefix_append _ _))
  · cases rest with
    | nil =>
      rw [List.append_nil]
      exact h.witnessed front (List.prefix_append _ _)
    | cons x rest =>
      obtain ⟨rfl, hrest⟩ := List.cons_prefix_cons.mp ((List.prefix_append_right_inj front).mp hpre)
      have hold := h.witnessed (front ++ rest) ((List.prefix_append_right_inj front).mpr hrest)
      intro a ha id hid
      by_cases hax : a = x
      · subst hax
        exact ⟨a, by simp, ho id hid⟩
      · have ha' : a ∈ front ++ rest := by
          simp only [List.mem_append, List.mem_cons, hax, false_or] at ha ⊢
          exact ha
        obtain ⟨w, hw, hin⟩ := hold a ha' id hid
        refine ⟨w, ?_, hin⟩
        simp only [List.mem_append, List.mem_cons] at hw ⊢
        exact hw.imp_right .inr

section Runs

variable {H : List Delivery} {d : Delivery} {policy : RevocationStatusPolicyV2}
  {r t : RevocationStatusStateV2} {b : RevocationStatusStateV2}

/-- A delivery retains the state's observations and adds at most its own sighting. -/
theorem Outcome.observations (h : Outcome P policy b d o r) :
    r.observations = b.observations ∨ ∃ f g c, r.observations
      = b.observations ++ [{ o with fork := f, gap := g, accepted := c }] := by
  cases h with
  | settled _ => exact .inl rfl
  | retained dup f g known fork_le differs =>
    cases dup with
    | true => exact .inl rfl
    | false => exact .inr ⟨f.isSome, g, o.accepted, rfl⟩
  | list l dup object accepted known => exact .inr ⟨o.fork, o.gap, true, rfl⟩
  | push p object continues differs => exact .inr ⟨o.fork, o.gap, true, rfl⟩

/-- The set digest of a checked object stands for its own IDs. -/
theorem Delivery.Checks.named (hc : d.Checks P policy s b o) (hfree : CollisionFree P X)
    (hX : d.object ∈ X) : ∀ id, Named P X o.revokedSetDigest id → id ∈ o.revokedCertIds := by
  rintro id ⟨x, hx, hset, hid⟩
  rw [hc.ids]
  exact (hfree.ids_of_setDigest hx hX hset hc.set id).mp hid

/-- The observations of every reachable state are arranged. -/
theorem arranged_of_run {is : List StatusStep} (hrun : StatusRun P policy is s)
    (hfree : CollisionFree P X) (hX : objectsOf (deliveries is) ⊆ X) :
    Arranged P X s.observations := by
  induction hrun with
  | nil => exact arranged_nil
  | @snoc is t u i run last ih =>
    cases i with
    | deliver d =>
      rw [deliveries_deliver] at hX
      have hold : objectsOf (deliveries is) ⊆ X := (objectsOf_append_left _ _).trans hX
      obtain ⟨ht, hh⟩ := reachable_keeps run (hfree.mono hold)
      have harr := ih hold
      obtain ⟨-, -, b, o, r, hc, hout, -, rfl⟩ := deliver_keeps (hfree.mono hX) ht hh last
      have hnamed := hc.named hfree (hX ⟨d, by simp, rfl⟩)
      rw [← (hc.bound_marks ht).2.2.1] at harr
      refine arranged_compact ?_
      rcases hout.observations with hobs | ⟨f, g, a, hobs⟩
      · rw [hobs, harr.sorted.insertionSort_eq]
        exact harr.witnessed
      · rw [hobs]
        exact harr.concat hnamed
    | transition issuerId nextEpoch key =>
      rw [deliveries_transition] at hX
      obtain ⟨ht, -⟩ := reachable_keeps run (hfree.mono hX)
      obtain ⟨-, -, rfl, -, -, keyId, -, -, -, rfl⟩ := (transition_eq_ok_iff ht).mp last
      exact ih hX

end Runs

end RatifyProtocol.V2
