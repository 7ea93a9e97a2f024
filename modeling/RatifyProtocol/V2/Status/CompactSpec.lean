import RatifyProtocol.V2.Status.Compact
set_option autoImplicit false

/-!
# Status: what compaction keeps

Each retained observation stands for the group of observations that share its
semantic key (`Represents`).  `compact_spec` says this once for the whole
function: the groups partition the observations, no two entries share a key, and
the union of the revoked IDs is unchanged.  Later proofs use only this.
-/

namespace RatifyProtocol.V2

open Foundation

variable (P : Primitives)

/-! ## Groups -/

/-- `r` stands for the group `g` of observations with the key `k`. -/
structure Represents (s : RevocationStatusStateV2) (base : Bytes) (k : SemanticKey)
    (g : List RevocationObservationV2) (r : RevocationObservationV2) : Prop where
  key : ∀ o ∈ g, semanticKey o = k
  objectType : r.objectType = k.objectType
  epoch : r.statusKeyEpoch = k.statusKeyEpoch
  sequence : r.sequence = k.sequence
  origin : ∃ o ∈ g, r.statusKeyId = o.statusKeyId ∧ r.bodyDigest = o.bodyDigest ∧
    r.revokedSetDigest = o.revokedSetDigest
  evidence : ∃ o ∈ g, r.evidenceDigest = o.evidenceDigest
  evidence_base : (∃ o ∈ g, acceptedBase s base o = true) → r.evidenceDigest = base
  accepted_of : r.accepted = true → ∃ o ∈ g, o.accepted = true ∨ acceptedBase s base o = true
  accepted_to : (∃ o ∈ g, o.accepted = true) → r.accepted = true
  fork : r.fork = k.fork
  gap_of : r.gap = true → ∃ o ∈ g, o.gap = true
  gap_to : (∃ o ∈ g, o.gap = true) →
    r.gap = true ∨ (s.reconciliationRequired = false ∧ r.evidenceDigest = base)
  future_of : r.futureDated = true → k.futureDated = true
  future_to : k.futureDated = true → r.futureDated = true ∨ (r.accepted = true ∧ 2 ≤ g.length)
  ids_of : ∀ id ∈ r.revokedCertIds, ∃ o ∈ g, id ∈ o.revokedCertIds
  ids_to : ∀ o ∈ g, acceptedBase s base o = true ∨ mustRetain s o = true →
    ∀ id ∈ o.revokedCertIds, id ∈ r.revokedCertIds

theorem acceptedBase_iff {s : RevocationStatusStateV2} {base : Bytes}
    {o : RevocationObservationV2} :
    acceptedBase s base o = true ↔
      base ≠ [] ∧ o.statusKeyEpoch = s.statusKeyEpoch ∧ o.objectType = LIST ∧
        s.acceptedSnapshot.map (·.sequence) = some o.sequence ∧ o.evidenceDigest = base := by
  simp [acceptedBase, and_assoc]

/-- The first observation of a key, with its IDs full or stripped. -/
theorem Represents.single {s : RevocationStatusStateV2} {base : Bytes}
    {o : RevocationObservationV2} {ids : List String} (hsub : ∀ id ∈ ids, id ∈ o.revokedCertIds)
    (hfull : acceptedBase s base o = true ∨ mustRetain s o = true → ids = o.revokedCertIds) :
    Represents s base (semanticKey o) [o] { o with revokedCertIds := ids } where
  key := by simp
  objectType := rfl
  epoch := rfl
  sequence := rfl
  origin := ⟨o, by simp, rfl, rfl, rfl⟩
  evidence := ⟨o, by simp, rfl⟩
  evidence_base := by
    rintro ⟨o', ho', h⟩
    obtain rfl := List.mem_singleton.mp ho'
    exact (acceptedBase_iff.mp h).2.2.2.2
  accepted_of := fun h => ⟨o, by simp, .inl h⟩
  accepted_to := by
    rintro ⟨o', ho', h⟩
    obtain rfl := List.mem_singleton.mp ho'
    exact h
  fork := rfl
  gap_of := fun h => ⟨o, by simp, h⟩
  gap_to := by
    rintro ⟨o', ho', h⟩
    obtain rfl := List.mem_singleton.mp ho'
    exact .inl h
  future_of := id
  future_to := fun h => .inl h
  ids_of := fun id hid => ⟨o, by simp, hsub id hid⟩
  ids_to := by
    intro o' ho' h id hid
    obtain rfl := List.mem_singleton.mp ho'
    rw [hfull h]
    exact hid

/-- Merging one more observation of the key keeps the representation. -/
theorem Represents.merge {s : RevocationStatusStateV2} {base : Bytes} {k : SemanticKey}
    {g : List RevocationObservationV2} {r o : RevocationObservationV2} {ids : List String}
    (h : Represents s base k g r) (hk : semanticKey o = k)
    (hsub : ∀ id ∈ ids, id ∈ o.revokedCertIds)
    (hfull : acceptedBase s base o = true ∨ mustRetain s o = true → ids = o.revokedCertIds) :
    Represents s base k (g ++ [o]) (mergeInto s base o ids r) := by
  have hfork : o.fork = k.fork := by rw [← hk]; rfl
  have hfuture : o.futureDated = k.futureDated := by rw [← hk]; rfl
  have hne : g ≠ [] := by
    obtain ⟨o', ho', -⟩ := h.evidence
    exact List.ne_nil_of_mem ho'
  have hids : (mergeInto s base o ids r).revokedCertIds
      = sortedUnique (r.revokedCertIds ++ ids) := by
    unfold mergeInto
    split <;> rfl
  refine
    { key := ?_, objectType := ?_, epoch := ?_, sequence := ?_, origin := ?_, evidence := ?_,
      evidence_base := ?_, accepted_of := ?_, accepted_to := ?_, fork := ?_, gap_of := ?_,
      gap_to := ?_, future_of := ?_, future_to := ?_, ids_of := ?_, ids_to := ?_ }
  · intro o' ho'
    rcases List.mem_append.mp ho' with ho' | ho'
    · exact h.key o' ho'
    · rw [List.mem_singleton.mp ho', hk]
  · rw [← h.objectType]; unfold mergeInto; split <;> rfl
  · rw [← h.epoch]; unfold mergeInto; split <;> rfl
  · rw [← h.sequence]; unfold mergeInto; split <;> rfl
  · obtain ⟨o', ho', h₁, h₂, h₃⟩ := h.origin
    refine ⟨o', by simp [ho'], ?_, ?_, ?_⟩
    · rw [← h₁]; unfold mergeInto; split <;> rfl
    · rw [← h₂]; unfold mergeInto; split <;> rfl
    · rw [← h₃]; unfold mergeInto; split <;> rfl
  · obtain ⟨o', ho', he⟩ := h.evidence
    unfold mergeInto
    split
    · exact ⟨o, by simp, rfl⟩
    · exact ⟨o', by simp [ho'], he⟩
  · rintro ⟨o', ho', hb⟩
    unfold mergeInto
    split
    · rename_i hbase
      exact (acceptedBase_iff.mp hbase).2.2.2.2
    · rename_i hbase
      rcases List.mem_append.mp ho' with ho' | ho'
      · exact h.evidence_base ⟨o', ho', hb⟩
      · rw [List.mem_singleton.mp ho'] at hb
        exact absurd hb hbase
  · intro hacc
    unfold mergeInto at hacc
    split at hacc
    · rename_i hbase
      exact ⟨o, by simp, .inr hbase⟩
    · simp only [Bool.or_eq_true] at hacc
      rcases hacc with hacc | hacc
      · obtain ⟨o', ho', ha⟩ := h.accepted_of hacc
        exact ⟨o', by simp [ho'], ha⟩
      · exact ⟨o, by simp, .inl hacc⟩
  · rintro ⟨o', ho', ha⟩
    unfold mergeInto
    split
    · rfl
    · simp only [Bool.or_eq_true]
      rcases List.mem_append.mp ho' with ho' | ho'
      · exact .inl (h.accepted_to ⟨o', ho', ha⟩)
      · exact .inr (List.mem_singleton.mp ho' ▸ ha)
  · have : (mergeInto s base o ids r).fork = (r.fork || o.fork) := by
      unfold mergeInto
      split <;> rfl
    rw [this, h.fork, hfork, Bool.or_self]
  · intro hgap
    have hor : r.gap = true ∨ o.gap = true := by
      unfold mergeInto at hgap
      split at hgap
      · simp only [Bool.and_eq_true, Bool.or_eq_true] at hgap
        exact hgap.1
      · simpa using hgap
    rcases hor with hr | ho
    · obtain ⟨o', ho', hg⟩ := h.gap_of hr
      exact ⟨o', by simp [ho'], hg⟩
    · exact ⟨o, by simp, ho⟩
  · rintro ⟨o', ho', hg⟩
    have hor : (r.gap = true ∨ o.gap = true) ∨
        (s.reconciliationRequired = false ∧ r.evidenceDigest = base) := by
      rcases List.mem_append.mp ho' with ho' | ho'
      · exact (h.gap_to ⟨o', ho', hg⟩).imp .inl id
      · exact .inl (.inr (List.mem_singleton.mp ho' ▸ hg))
    unfold mergeInto
    split
    · rename_i hbase
      have hev := (acceptedBase_iff.mp hbase).2.2.2.2
      cases hrec : s.reconciliationRequired with
      | false => exact .inr ⟨rfl, hev⟩
      | true =>
        rcases hor with hor | hor
        · exact .inl (by simpa using hor)
        · simp [hrec] at hor
    · rcases hor with hor | hor
      · exact .inl (by simpa using hor)
      · exact .inr hor
  · intro hf
    unfold mergeInto at hf
    split at hf
    · simp at hf
    · simp only [Bool.and_eq_true, Bool.or_eq_true] at hf
      rcases hf.1 with hf | hf
      · exact h.future_of hf
      · rw [← hfuture, hf]
  · intro hf
    have hlen : 2 ≤ (g ++ [o]).length := by
      have := List.length_pos_iff.mpr hne
      simp only [List.length_append, List.length_singleton]
      omega
    unfold mergeInto
    split
    · exact .inr ⟨rfl, hlen⟩
    · by_cases hacc : (r.accepted || o.accepted) = true
      · exact .inr ⟨hacc, hlen⟩
      · have hnot : (r.accepted || o.accepted) = false := by simpa using hacc
        exact .inl (by simp [hnot, hfuture, hf])
  · intro id hid
    rw [hids, mem_sortedUnique, List.mem_append] at hid
    rcases hid with hid | hid
    · obtain ⟨o', ho', hmem⟩ := h.ids_of id hid
      exact ⟨o', by simp [ho'], hmem⟩
    · exact ⟨o, by simp, hsub id hid⟩
  · intro o' ho' hret id hid
    rw [hids, mem_sortedUnique, List.mem_append]
    rcases List.mem_append.mp ho' with ho' | ho'
    · exact .inl (h.ids_to o' ho' hret id hid)
    · obtain rfl := List.mem_singleton.mp ho'
      exact .inr (by rw [hfull hret]; exact hid)

/-! ## The loop -/

theorem mem_newWitnesses {witnessed ids : List String} {id : String} :
    id ∈ newWitnesses witnessed ids ↔ id ∈ ids ∧ id ∉ witnessed := by
  induction ids generalizing witnessed with
  | nil => simp [newWitnesses]
  | cons x ids ih =>
    unfold newWitnesses
    split
    · rename_i hx
      rw [ih]
      have hx : x ∈ witnessed := by simpa using hx
      constructor
      · rintro ⟨h₁, h₂⟩
        exact ⟨by simp [h₁], h₂⟩
      · rintro ⟨h₁, h₂⟩
        rcases List.mem_cons.mp h₁ with rfl | h₁
        · exact absurd hx h₂
        · exact ⟨h₁, h₂⟩
    · rename_i hx
      have hx : x ∉ witnessed := by simpa using hx
      rw [List.mem_cons, ih, List.mem_cons, List.mem_cons]
      constructor
      · rintro (rfl | ⟨h₁, h₂⟩)
        · exact ⟨.inl rfl, hx⟩
        · exact ⟨.inr h₁, fun h => h₂ (.inr h)⟩
      · rintro ⟨h₁, h₂⟩
        by_cases hid : id = x
        · exact .inl hid
        · exact .inr ⟨h₁.resolve_left hid, fun h => h.elim hid h₂⟩

/-- The observations of `obs` with the key `k`. -/
def groupOf (obs : List RevocationObservationV2) (k : SemanticKey) :
    List RevocationObservationV2 :=
  obs.filter fun o => semanticKey o == k

@[simp] theorem mem_groupOf {obs : List RevocationObservationV2} {k : SemanticKey}
    {o : RevocationObservationV2} : o ∈ groupOf obs k ↔ o ∈ obs ∧ semanticKey o = k := by
  simp [groupOf]

/-- What `compact` has established after the observations `seen`. -/
structure LoopInvariant (s : RevocationStatusStateV2) (base : Bytes)
    (seen : List RevocationObservationV2) (c : CompactLoop) : Prop where
  entries : ∀ e ∈ c.retained, Represents s base e.1 (groupOf seen e.1) e.2
  keys : (c.retained.map Prod.fst).Nodup
  cover : ∀ o ∈ seen, semanticKey o ∈ c.retained.map Prod.fst
  witnessed : ∀ id, id ∈ c.witnessed ↔ ∃ o ∈ seen, id ∈ o.revokedCertIds
  kept : ∀ id ∈ c.witnessed, ∃ e ∈ c.retained, id ∈ e.2.revokedCertIds

theorem LoopInvariant.nil (s : RevocationStatusStateV2) (base : Bytes) :
    LoopInvariant s base [] { retained := [], witnessed := [] } := by
  constructor <;> simp

theorem mergeInto_ids {s : RevocationStatusStateV2} {base : Bytes}
    {o r : RevocationObservationV2} {ids : List String} {id : String} :
    id ∈ (mergeInto s base o ids r).revokedCertIds ↔ id ∈ r.revokedCertIds ∨ id ∈ ids := by
  have : (mergeInto s base o ids r).revokedCertIds
      = sortedUnique (r.revokedCertIds ++ ids) := by
    unfold mergeInto
    split <;> rfl
  rw [this, mem_sortedUnique, List.mem_append]

theorem groupOf_append (seen : List RevocationObservationV2) (o : RevocationObservationV2)
    (k : SemanticKey) :
    groupOf (seen ++ [o]) k = if semanticKey o = k then groupOf seen k ++ [o]
      else groupOf seen k := by
  simp only [groupOf, List.filter_append, List.filter_cons, List.filter_nil]
  by_cases h : semanticKey o = k
  · simp [h]
  · simp [h]

/-- The IDs kept for an observation in one round. -/
theorem stripped_subset {full : Bool} {witnessed ids : List String} {id : String}
    (h : id ∈ if full then ids else newWitnesses witnessed ids) : id ∈ ids := by
  split at h
  · exact h
  · exact (mem_newWitnesses.mp h).1

theorem LoopInvariant.step {s : RevocationStatusStateV2} {base : Bytes}
    {seen : List RevocationObservationV2} {c : CompactLoop} (h : LoopInvariant s base seen c)
    (o : RevocationObservationV2) :
    LoopInvariant s base (seen ++ [o]) (compactStep s base c o) := by
  have hwit : ∀ id, id ∈ c.witnessed ++ newWitnesses c.witnessed o.revokedCertIds ↔
      ∃ o' ∈ seen ++ [o], id ∈ o'.revokedCertIds := by
    intro id
    rw [List.mem_append, mem_newWitnesses, h.witnessed]
    constructor
    · rintro (⟨o', ho', hid⟩ | ⟨hid, -⟩)
      · exact ⟨o', by simp [ho'], hid⟩
      · exact ⟨o, by simp, hid⟩
    · rintro ⟨o', ho', hid⟩
      by_cases hold : ∃ o'' ∈ seen, id ∈ o''.revokedCertIds
      · exact .inl hold
      · rcases List.mem_append.mp ho' with ho' | ho'
        · exact absurd ⟨o', ho', hid⟩ hold
        · exact .inr ⟨List.mem_singleton.mp ho' ▸ hid, hold⟩
  have hnew : ∀ id, id ∈ c.witnessed ++ newWitnesses c.witnessed o.revokedCertIds →
      id ∈ c.witnessed ∨ id ∈ (if acceptedBase s base o || mustRetain s o then o.revokedCertIds
        else newWitnesses c.witnessed o.revokedCertIds) := by
    intro id hid
    rcases List.mem_append.mp hid with hid | hid
    · exact .inl hid
    · right
      split
      · exact (mem_newWitnesses.mp hid).1
      · exact hid
  have hfull : acceptedBase s base o = true ∨ mustRetain s o = true →
      (if acceptedBase s base o || mustRetain s o then o.revokedCertIds
        else newWitnesses c.witnessed o.revokedCertIds) = o.revokedCertIds := by
    intro hret
    rw [if_pos (by simpa using hret)]
  unfold compactStep
  dsimp only
  by_cases hin : (c.retained.any fun e => e.1 == semanticKey o) = true
  · rw [if_pos hin]
    have hfst : (c.retained.map fun e => if e.1 == semanticKey o then
        (e.1, mergeInto s base o (if acceptedBase s base o || mustRetain s o then o.revokedCertIds
          else newWitnesses c.witnessed o.revokedCertIds) e.2) else e).map Prod.fst
        = c.retained.map Prod.fst := by
      rw [List.map_map]
      refine List.map_congr_left fun e _ => ?_
      simp only [Function.comp_apply]
      split <;> rfl
    obtain ⟨e₀, he₀, hk₀⟩ := List.any_eq_true.mp hin
    have hk₀ : e₀.1 = semanticKey o := by simpa using hk₀
    refine { entries := ?_, keys := ?_, cover := ?_, witnessed := hwit, kept := ?_ }
    · intro e he
      obtain ⟨e', he', rfl⟩ := List.mem_map.mp he
      have hrep := h.entries e' he'
      by_cases hk : e'.1 = semanticKey o
      · simp only [hk, beq_self_eq_true, ↓reduceIte, groupOf_append]
        rw [hk] at hrep
        exact hrep.merge rfl (fun id hid => stripped_subset hid) hfull
      · have hk' : ¬ semanticKey o = e'.1 := fun h => hk h.symm
        simp only [beq_iff_eq, hk, ↓reduceIte, groupOf_append, hk']
        exact hrep
    · rw [hfst]
      exact h.keys
    · intro o' ho'
      rw [hfst]
      rcases List.mem_append.mp ho' with ho' | ho'
      · exact h.cover o' ho'
      · rw [List.mem_singleton.mp ho', ← hk₀]
        exact List.mem_map_of_mem he₀
    · intro id hid
      rcases hnew id hid with hid | hid
      · obtain ⟨e, he, hmem⟩ := h.kept id hid
        refine ⟨_, List.mem_map_of_mem he, ?_⟩
        split
        · exact mergeInto_ids.mpr (.inl hmem)
        · exact hmem
      · refine ⟨_, List.mem_map_of_mem he₀, ?_⟩
        rw [if_pos (by simpa using hk₀)]
        exact mergeInto_ids.mpr (.inr hid)
  · rw [if_neg hin]
    have hout : semanticKey o ∉ c.retained.map Prod.fst := by
      intro hmem
      obtain ⟨e, he, hk⟩ := List.mem_map.mp hmem
      exact hin (List.any_eq_true.mpr ⟨e, he, by simpa using hk⟩)
    have hempty : groupOf seen (semanticKey o) = [] := by
      refine List.eq_nil_iff_forall_not_mem.mpr fun o' ho' => ?_
      obtain ⟨hmem, hk⟩ := mem_groupOf.mp ho'
      exact hout (hk ▸ h.cover o' hmem)
    refine { entries := ?_, keys := ?_, cover := ?_, witnessed := hwit, kept := ?_ }
    · intro e he
      rcases List.mem_append.mp he with he | he
      · have hk : ¬ semanticKey o = e.1 := fun hk => hout (hk ▸ List.mem_map_of_mem he)
        rw [groupOf_append, if_neg hk]
        exact h.entries e he
      · obtain rfl := List.mem_singleton.mp he
        rw [groupOf_append, if_pos rfl, hempty, List.nil_append]
        exact .single (fun id hid => stripped_subset hid) hfull
    · rw [List.map_append, List.nodup_append]
      refine ⟨h.keys, by simp, ?_⟩
      rintro k hk k' hk' rfl
      obtain rfl := List.mem_singleton.mp hk'
      exact hout hk
    · intro o' ho'
      rw [List.map_append, List.mem_append]
      rcases List.mem_append.mp ho' with ho' | ho'
      · exact .inl (h.cover o' ho')
      · exact .inr (by rw [List.mem_singleton.mp ho']; simp)
    · intro id hid
      rcases hnew id hid with hid | hid
      · obtain ⟨e, he, hmem⟩ := h.kept id hid
        exact ⟨e, by simp [he], hmem⟩
      · exact ⟨_, List.mem_append_right _ (List.mem_singleton_self _), hid⟩

theorem LoopInvariant.foldl {s : RevocationStatusStateV2} {base : Bytes}
    (obs : List RevocationObservationV2) {seen : List RevocationObservationV2} {c : CompactLoop}
    (h : LoopInvariant s base seen c) :
    LoopInvariant s base (seen ++ obs) (obs.foldl (compactStep s base) c) := by
  induction obs generalizing seen c with
  | nil => simpa using h
  | cons o obs ih =>
    rw [List.foldl_cons, ← List.singleton_append, ← List.append_assoc]
    exact ih (h.step o)

/-! ## The whole function -/

/-- The entries stand for the observations of `s`, one entry a key. -/
structure CompactionOf (s : RevocationStatusStateV2) (base : Bytes)
    (entries : List (SemanticKey × RevocationObservationV2)) : Prop where
  represents : ∀ e ∈ entries, ∃ g, Represents s base e.1 g e.2 ∧
    g.Perm (groupOf s.observations e.1)
  sorted : ∀ e ∈ entries, sortedUnique e.2.revokedCertIds = e.2.revokedCertIds
  keys : (entries.map Prod.fst).Nodup
  cover : ∀ o ∈ s.observations, semanticKey o ∈ entries.map Prod.fst
  ids : ∀ id, (∃ e ∈ entries, id ∈ e.2.revokedCertIds) ↔
    ∃ o ∈ s.observations, id ∈ o.revokedCertIds

theorem Represents.clearGap {s : RevocationStatusStateV2} {base : Bytes} {k : SemanticKey}
    {g : List RevocationObservationV2} {r : RevocationObservationV2}
    (h : Represents s base k g r) (hrec : s.reconciliationRequired = false)
    (hbase : r.evidenceDigest = base) : Represents s base k g { r with gap := false } :=
  { h with
    gap_of := fun h => absurd h (by simp)
    gap_to := fun _ => .inr ⟨hrec, hbase⟩ }

theorem Represents.sortIds {s : RevocationStatusStateV2} {base : Bytes} {k : SemanticKey}
    {g : List RevocationObservationV2} {r : RevocationObservationV2}
    (h : Represents s base k g r) :
    Represents s base k g { r with revokedCertIds := sortedUnique r.revokedCertIds } :=
  { h with
    ids_of := fun id hid => h.ids_of id (mem_sortedUnique.mp hid)
    ids_to := fun o ho hret id hid => mem_sortedUnique.mpr (h.ids_to o ho hret id hid) }

theorem modifyFirst_map_snd {α β : Type} (p : β → Bool) (f : β → β) (l : List (α × β)) :
    modifyFirst p f (l.map Prod.snd)
      = (modifyFirst (fun e => p e.2) (fun e => (e.1, f e.2)) l).map Prod.snd := by
  induction l with
  | nil => rfl
  | cons e l ih =>
    simp only [List.map_cons, modifyFirst]
    split
    · rfl
    · rw [List.map_cons, ih]

theorem mem_modifyFirst {α : Type} {p : α → Bool} {f : α → α} {l : List α} {x : α}
    (h : x ∈ modifyFirst p f l) : x ∈ l ∨ ∃ y ∈ l, p y = true ∧ x = f y := by
  induction l with
  | nil => simp [modifyFirst] at h
  | cons a l ih =>
    unfold modifyFirst at h
    split at h
    · rename_i ha
      rcases List.mem_cons.mp h with rfl | h
      · exact .inr ⟨a, by simp, ha, rfl⟩
      · exact .inl (by simp [h])
    · rcases List.mem_cons.mp h with rfl | h
      · exact .inl (by simp)
      · rcases ih h with h | ⟨y, hy, hp, rfl⟩
        · exact .inl (by simp [h])
        · exact .inr ⟨y, by simp [hy], hp, rfl⟩

theorem modifyFirst_map {α β : Type} (p : α → Bool) (f : α → α) (g : α → β)
    (hg : ∀ x, g (f x) = g x) (l : List α) : (modifyFirst p f l).map g = l.map g := by
  induction l with
  | nil => rfl
  | cons a l ih =>
    unfold modifyFirst
    split
    · rw [List.map_cons, List.map_cons, hg]
    · rw [List.map_cons, List.map_cons, ih]

/-- Drop the gap mark of the accepted snapshot's entry when nothing is open. -/
def settleEntries (s : RevocationStatusStateV2) (base : Bytes)
    (entries : List (SemanticKey × RevocationObservationV2)) :
    List (SemanticKey × RevocationObservationV2) :=
  if s.reconciliationRequired then entries
  else match s.acceptedSnapshot with
    | none => entries
    | some snap =>
      modifyFirst (fun e => isSettledBase s base snap e.2)
        (fun e => (e.1, { e.2 with gap := false })) entries

/-- Settling changes nothing but gap marks. -/
theorem settleEntries_map {β : Type} (s : RevocationStatusStateV2) (base : Bytes)
    (g : SemanticKey × RevocationObservationV2 → β)
    (hg : ∀ e, g (e.1, { e.2 with gap := false }) = g e)
    (entries : List (SemanticKey × RevocationObservationV2)) :
    (settleEntries s base entries).map g = entries.map g := by
  unfold settleEntries
  cases s.reconciliationRequired with
  | true => rfl
  | false =>
    cases s.acceptedSnapshot with
    | none => rfl
    | some snap => exact modifyFirst_map _ _ g hg _

/-- The entries `compact` ends with, under the keys they were inserted with. -/
def compactEntries (s : RevocationStatusStateV2) :
    List (SemanticKey × RevocationObservationV2) :=
  let base := baseDigest P s
  let sorted := s.observations.insertionSort fun a b => compareObservations a b ≠ .gt
  let loop := sorted.foldl (compactStep s base) { retained := [], witnessed := [] }
  (settleEntries s base loop.retained).map fun e =>
    (e.1, { e.2 with revokedCertIds := sortedUnique e.2.revokedCertIds })

theorem settleBase_map_snd (s : RevocationStatusStateV2) (base : Bytes)
    (entries : List (SemanticKey × RevocationObservationV2)) :
    settleBase s base (entries.map Prod.snd) = (settleEntries s base entries).map Prod.snd := by
  unfold settleBase settleEntries
  cases s.reconciliationRequired with
  | true => rfl
  | false =>
    cases s.acceptedSnapshot with
    | none => rfl
    | some snap => exact modifyFirst_map_snd _ _ _

theorem compact_eq (s : RevocationStatusStateV2) :
    compact P s = { canonicalizeState s with
      observations := (compactEntries P s).map Prod.snd } := by
  have hsettle := settleBase_map_snd s (baseDigest P s)
    ((s.observations.insertionSort fun a b => compareObservations a b ≠ .gt).foldl
      (compactStep s (baseDigest P s)) { retained := [], witnessed := [] }).retained
  simp only [compact, compactEntries, canonicalizeState, hsettle, List.map_map, Function.comp_def]

/-- The entries of `compact` partition the observations by semantic key. -/
theorem compactionOf_compactEntries (s : RevocationStatusStateV2) :
    CompactionOf s (baseDigest P s) (compactEntries P s) := by
  have hloop := (LoopInvariant.nil s (baseDigest P s)).foldl
    (s.observations.insertionSort fun a b => compareObservations a b ≠ .gt)
  rw [List.nil_append] at hloop
  have hperm := List.perm_insertionSort (fun a b => compareObservations a b ≠ .gt)
    s.observations
  unfold compactEntries
  dsimp only
  generalize s.observations.insertionSort (fun a b => compareObservations a b ≠ .gt)
    = sorted at hloop hperm ⊢
  generalize sorted.foldl (compactStep s (baseDigest P s)) { retained := [], witnessed := [] }
    = loop at hloop ⊢
  have hfst := settleEntries_map s (baseDigest P s) Prod.fst (fun _ => rfl) loop.retained
  have hids := settleEntries_map s (baseDigest P s) (·.2.revokedCertIds) (fun _ => rfl)
    loop.retained
  have hrep : ∀ e ∈ settleEntries s (baseDigest P s) loop.retained,
      Represents s (baseDigest P s) e.1 (groupOf sorted e.1) e.2 := by
    intro e he
    unfold settleEntries at he
    split at he
    · exact hloop.entries e he
    · rename_i hrec
      split at he
      · exact hloop.entries e he
      · rcases mem_modifyFirst he with he | ⟨e', he', hp, rfl⟩
        · exact hloop.entries e he
        · refine (hloop.entries e' he').clearGap (by simpa using hrec) ?_
          simp only [isSettledBase, Bool.and_eq_true, beq_iff_eq] at hp
          exact hp.2
  constructor
  · intro e he
    obtain ⟨e', he', rfl⟩ := List.mem_map.mp he
    exact ⟨_, (hrep e' he').sortIds, hperm.filter _⟩
  · intro e he
    obtain ⟨e', he', rfl⟩ := List.mem_map.mp he
    exact sortedUnique_idem _
  · rw [List.map_map]
    exact hfst ▸ hloop.keys
  · intro o ho
    rw [List.map_map]
    exact hfst ▸ hloop.cover o (hperm.mem_iff.mpr ho)
  · intro id
    have hmem : (∃ e ∈ (settleEntries s (baseDigest P s) loop.retained).map (fun e =>
          (e.1, ({ e.2 with revokedCertIds := sortedUnique e.2.revokedCertIds } :
            RevocationObservationV2))), id ∈ e.2.revokedCertIds) ↔
        ∃ ids ∈ loop.retained.map (·.2.revokedCertIds), id ∈ ids := by
      rw [← hids]
      simp
    rw [hmem]
    have hback : (∃ ids ∈ loop.retained.map (·.2.revokedCertIds), id ∈ ids) ↔
        id ∈ loop.witnessed := by
      constructor
      · rintro ⟨ids, hin, hid⟩
        obtain ⟨e, he, rfl⟩ := List.mem_map.mp hin
        obtain ⟨o, ho, hmem⟩ := (hloop.entries e he).ids_of id hid
        exact (hloop.witnessed id).mpr ⟨o, (mem_groupOf.mp ho).1, hmem⟩
      · intro hid
        obtain ⟨e, he, hmem⟩ := hloop.kept id hid
        exact ⟨_, List.mem_map_of_mem he, hmem⟩
    rw [hback, hloop.witnessed]
    simp only [hperm.mem_iff]

namespace CompactionOf

variable {s : RevocationStatusStateV2} {base : Bytes}
  {entries : List (SemanticKey × RevocationObservationV2)}

/-- The entry of an observation's key. -/
theorem entry (h : CompactionOf s base entries) {o : RevocationObservationV2}
    (ho : o ∈ s.observations) :
    ∃ e ∈ entries, e.1 = semanticKey o ∧ ∃ g, Represents s base e.1 g e.2 ∧ o ∈ g ∧
      ∀ o' ∈ g, o' ∈ s.observations := by
  obtain ⟨e, he, hk⟩ := List.mem_map.mp (h.cover o ho)
  obtain ⟨g, hrep, hperm⟩ := h.represents e he
  exact ⟨e, he, hk, g, hrep, hperm.mem_iff.mpr (mem_groupOf.mpr ⟨ho, hk.symm⟩),
    fun o' ho' => (mem_groupOf.mp (hperm.mem_iff.mp ho')).1⟩

/-- The group an entry stands for. -/
theorem group (h : CompactionOf s base entries) {e : SemanticKey × RevocationObservationV2}
    (he : e ∈ entries) :
    ∃ g, Represents s base e.1 g e.2 ∧ (∀ o ∈ g, o ∈ s.observations) ∧
      ∀ o ∈ s.observations, semanticKey o = e.1 → o ∈ g := by
  obtain ⟨g, hrep, hperm⟩ := h.represents e he
  exact ⟨g, hrep, fun o ho => (mem_groupOf.mp (hperm.mem_iff.mp ho)).1,
    fun o ho hk => hperm.mem_iff.mpr (mem_groupOf.mpr ⟨ho, hk⟩)⟩

end CompactionOf

end RatifyProtocol.V2
