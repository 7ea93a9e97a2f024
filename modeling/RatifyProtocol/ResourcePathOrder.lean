import RatifyProtocol.ResourcePath
set_option autoImplicit false

/-!
# Resource paths: the order of segments

A normalised path is its list of segments, and a prefix covers a path exactly
when its segments begin the segments of the path.  Covering is therefore a
partial order on normalised paths whose lower sets are chains.
-/

namespace RatifyProtocol

open Foundation

/-! ## Segments -/

/-- The path is its own comparison form. -/
def NormalPath (p : String) : Prop := normalizeResourcePath p = .ok p

instance (p : String) : Decidable (NormalPath p) :=
  inferInstanceAs (Decidable (normalizeResourcePath p = .ok p))

/-- The segments of a normalised path; the root has none. -/
def pathSegments (p : String) : List (List Char) :=
  if p = "/" then [] else p.toList.tail.splitOn '/'

/-- Segments around a separator. -/
theorem intercalate_append {sep : Char} {a b : List (List Char)} (ha : a ≠ []) (hb : b ≠ []) :
    [sep].intercalate (a ++ b) = [sep].intercalate a ++ sep :: [sep].intercalate b := by
  induction a with
  | nil => exact absurd rfl ha
  | cons x a ih =>
    cases a with
    | nil => simp [List.intercalate_cons_of_ne_nil hb]
    | cons y a =>
      rw [List.cons_append, List.intercalate_cons_of_ne_nil (by simp), ih (by simp)]
      simp

/-- A text goes on after a separator exactly when its segments do. -/
theorem splitOn_prefix_iff {sep : Char} {a b : List Char} :
    a.splitOn sep <+: b.splitOn sep ↔ a = b ∨ a ++ [sep] <+: b := by
  constructor
  · rintro ⟨rest, hrest⟩
    have hjoin := congrArg ([sep].intercalate ·) hrest
    rw [List.intercalate_splitOn] at hjoin
    cases rest with
    | nil =>
      rw [List.append_nil, List.intercalate_splitOn] at hjoin
      exact .inl hjoin
    | cons s rest =>
      rw [intercalate_append (List.splitOn_ne_nil sep a) (List.cons_ne_nil s rest),
        List.intercalate_splitOn] at hjoin
      refine .inr ⟨[sep].intercalate (s :: rest), ?_⟩
      rw [← hjoin, List.append_assoc]
      rfl
  · rintro (rfl | ⟨rest, rfl⟩)
    · exact List.prefix_refl _
    · rw [List.append_assoc, List.singleton_append, List.splitOn_append_cons_self]
      exact List.prefix_append _ _

/-! ## Normalised paths -/

theorem head_of_normalize {p q : String} (h : normalizeResourcePath p = .ok q) :
    p.toList.head? = some '/' := by
  unfold normalizeResourcePath at h
  split at h
  · cases h
  split at h
  · cases h
  · rename_i hhead
    exact not_not.mp hhead

/-- What is left of a text of non-empty segments has no slash at its end. -/
theorem getLast?_ne_slash {t : List Char} (h : ∀ s ∈ t.splitOn '/', s ≠ []) :
    t.getLast? ≠ some '/' := by
  intro hlast
  obtain ⟨init, rfl⟩ := List.getLast?_eq_some_iff.mp hlast
  apply h [] _ rfl
  rw [show init ++ ['/'] = init ++ '/' :: [] from rfl, List.splitOn_append_cons_self]
  simp

theorem prefix_stripSlash (p : List Char) : stripSlash p <+: p := by
  unfold stripSlash
  split
  · exact List.dropLast_prefix p
  · exact List.prefix_refl p

/-- A comparison form is its own. -/
theorem normalPath_of_normalize {p q : String} (h : normalizeResourcePath p = .ok q) :
    NormalPath q := by
  have hhead := head_of_normalize h
  unfold normalizeResourcePath at h
  split at h
  · cases h
  split at h
  · cases h
  split at h
  · cases h
  rename_i hnul
  split at h
  · cases h
  rename_i hbackslash
  split at h
  · obtain rfl := Except.ok.inj h
    decide
  rename_i hroot
  dsimp only at h
  split at h
  · cases h
  rename_i hsegments
  obtain rfl := Except.ok.inj h
  -- The trimmed text begins with the slash of the path.
  obtain ⟨t, hp⟩ : ∃ t, p.toList = '/' :: t := List.head?_eq_some_iff.mp hhead
  have hne : t ≠ [] := by
    rintro rfl
    apply hroot
    rw [← String.ofList_toList (s := p), hp]
  have htrimmed : ∃ u, stripSlash p.toList = '/' :: u := by
    rw [hp]
    unfold stripSlash
    split
    · rw [List.dropLast_cons_of_ne_nil hne]
      exact ⟨_, rfl⟩
    · exact ⟨t, rfl⟩
  obtain ⟨u, hu⟩ := htrimmed
  have hsub := (prefix_stripSlash p.toList).subset
  rw [hu] at hsegments hsub ⊢
  rw [List.tail_cons, List.findSome?_eq_none_iff] at hsegments
  have hnonempty : ∀ s ∈ u.splitOn '/', s ≠ [] := by
    rintro s hs rfl
    have := hsegments [] hs
    simp [segmentError] at this
  have hunempty : u ≠ [] := by
    rintro rfl
    exact hnonempty [] (by simp) rfl
  have hstrip : stripSlash ('/' :: u) = '/' :: u := by
    unfold stripSlash
    rw [if_neg]
    rw [List.getLast?_cons_of_ne_nil hunempty]
    exact getLast?_ne_slash hnonempty
  have hnone : (u.splitOn '/').findSome? segmentError = none :=
    List.findSome?_eq_none_iff.mpr hsegments
  have hnul' : ¬ ('/' :: u).contains '\x00' = true := by
    rw [List.contains_iff_mem] at hnul ⊢
    exact fun hmem => hnul (hsub hmem)
  have hbackslash' : ¬ ('/' :: u).contains '\\' = true := by
    rw [List.contains_iff_mem] at hbackslash ⊢
    exact fun hmem => hbackslash (hsub hmem)
  have hroot' : String.ofList ('/' :: u) ≠ "/" := by
    intro heq
    have hlist := congrArg String.toList heq
    rw [String.toList_ofList] at hlist
    exact hunempty (List.cons.inj hlist).2
  have hempty' : String.ofList ('/' :: u) ≠ "" := by
    intro heq
    have hlist := congrArg String.toList heq
    rw [String.toList_ofList] at hlist
    cases hlist
  unfold NormalPath normalizeResourcePath
  rw [if_neg hempty', String.toList_ofList, if_neg (by simp), if_neg hnul', if_neg hbackslash', if_neg hroot']
  dsimp only
  rw [hstrip, List.tail_cons, hnone]

/-- A normalised path other than the root is a slash and its joined segments. -/
theorem toList_of_normalPath {p : String} (h : NormalPath p) :
    p.toList = '/' :: p.toList.tail := by
  obtain ⟨t, ht⟩ := List.head?_eq_some_iff.mp (head_of_normalize h)
  rw [ht, List.tail_cons]

theorem pathSegments_injOn {p q : String} (hp : NormalPath p) (hq : NormalPath q)
    (h : pathSegments p = pathSegments q) : p = q := by
  unfold pathSegments at h
  split at h
  · rename_i hroot
    split at h
    · rename_i hroot'
      rw [hroot, hroot']
    · exact absurd h.symm (List.splitOn_ne_nil _ _)
  · split at h
    · exact absurd h (List.splitOn_ne_nil _ _)
    · have hjoin := congrArg (['/'].intercalate ·) h
      rw [List.intercalate_splitOn, List.intercalate_splitOn] at hjoin
      rw [← String.toList_inj, toList_of_normalPath hp, toList_of_normalPath hq, hjoin]

/-- On normalised paths a prefix covers what its segments begin. -/
theorem resourcePathMatches_iff {p q : String} (hp : NormalPath p) (hq : NormalPath q) :
    resourcePathMatches p q = true ↔ pathSegments p <+: pathSegments q := by
  unfold resourcePathMatches
  rw [show normalizeResourcePath p = .ok p from hp, show normalizeResourcePath q = .ok q from hq]
  simp only [Bool.or_eq_true, beq_iff_eq, startsWith, List.isPrefixOf_iff_prefix]
  by_cases hproot : p = "/"
  · simp [hproot, pathSegments]
  have hptail := toList_of_normalPath hp
  have hqtail := toList_of_normalPath hq
  have hslash : (p ++ "/").toList = '/' :: (p.toList.tail ++ ['/']) := by
    rw [String.toList_append, hptail]
    rfl
  have hequal : q = p ↔ p.toList.tail = q.toList.tail := by
    rw [← String.toList_inj, hptail, hqtail, List.cons.injEq]
    exact ⟨fun h => h.2.symm, fun h => ⟨rfl, h.symm⟩⟩
  rw [hslash, hqtail, List.cons_prefix_cons, hequal, or_iff_right hproot]
  simp only [true_and]
  by_cases hqroot : q = "/"
  · have hpsegments := List.splitOn_ne_nil '/' p.toList.tail
    have hne : p.toList.tail ≠ [] := by
      intro hnil
      apply hproot
      rw [← String.toList_inj, hptail, hnil]
      rfl
    simp [hqroot, hproot, pathSegments, hne]
  · unfold pathSegments
    rw [if_neg hproot, if_neg hqroot, splitOn_prefix_iff]

/-! ## The order -/

/-- What a prefix matches, its normal form matches the normal form of. -/
theorem resourcePathMatches_of_normalize {p p' q q' : String}
    (hp : normalizeResourcePath p = .ok p') (hq : normalizeResourcePath q = .ok q') :
    resourcePathMatches p q = resourcePathMatches p' q' := by
  unfold resourcePathMatches
  rw [hp, hq, show normalizeResourcePath p' = .ok p' from normalPath_of_normalize hp,
    show normalizeResourcePath q' = .ok q' from normalPath_of_normalize hq]

/-- Only valid paths match. -/
theorem of_resourcePathMatches {p q : String} (h : resourcePathMatches p q = true) :
    ∃ p' q', normalizeResourcePath p = .ok p' ∧ normalizeResourcePath q = .ok q' := by
  unfold resourcePathMatches at h
  split at h
  · rename_i p' q' hp hq
    exact ⟨p', q', hp, hq⟩
  · cases h

theorem resourcePathMatches_iff_segments {p p' q q' : String}
    (hp : normalizeResourcePath p = .ok p') (hq : normalizeResourcePath q = .ok q') :
    resourcePathMatches p q = true ↔ pathSegments p' <+: pathSegments q' := by
  rw [resourcePathMatches_of_normalize hp hq,
    resourcePathMatches_iff (normalPath_of_normalize hp) (normalPath_of_normalize hq)]

theorem resourcePathMatches_refl {p q : String} (h : normalizeResourcePath p = .ok q) :
    resourcePathMatches p p = true :=
  (resourcePathMatches_iff_segments h h).mpr (List.prefix_refl _)

theorem resourcePathMatches_trans {p q r : String} (hpq : resourcePathMatches p q = true)
    (hqr : resourcePathMatches q r = true) : resourcePathMatches p r = true := by
  obtain ⟨p', q', hp, hq⟩ := of_resourcePathMatches hpq
  obtain ⟨-, r', -, hr⟩ := of_resourcePathMatches hqr
  rw [resourcePathMatches_iff_segments hp hq] at hpq
  rw [resourcePathMatches_iff_segments hq hr] at hqr
  rw [resourcePathMatches_iff_segments hp hr]
  exact hpq.trans hqr

theorem resourcePathMatches_antisymm {p q : String} (hp : NormalPath p) (hq : NormalPath q)
    (hpq : resourcePathMatches p q = true) (hqp : resourcePathMatches q p = true) : p = q := by
  rw [resourcePathMatches_iff hp hq] at hpq
  rw [resourcePathMatches_iff hq hp] at hqp
  exact pathSegments_injOn hp hq (hpq.eq_of_length (le_antisymm hpq.length_le hqp.length_le))

/-- Two prefixes of one path are comparable. -/
theorem resourcePathMatches_total {p q r : String} (hp : resourcePathMatches p r = true)
    (hq : resourcePathMatches q r = true) :
    resourcePathMatches p q = true ∨ resourcePathMatches q p = true := by
  obtain ⟨p', r', hp', hr'⟩ := of_resourcePathMatches hp
  obtain ⟨q', -, hq', -⟩ := of_resourcePathMatches hq
  rw [resourcePathMatches_iff_segments hp' hr'] at hp
  rw [resourcePathMatches_iff_segments hq' hr'] at hq
  rw [resourcePathMatches_iff_segments hp' hq', resourcePathMatches_iff_segments hq' hp']
  exact List.prefix_or_prefix_of_prefix hp hq

theorem root_matches {p q : String} (h : normalizeResourcePath p = .ok q) :
    resourcePathMatches "/" p = true :=
  (resourcePathMatches_iff_segments (by decide : normalizeResourcePath "/" = .ok "/") h).mpr
    List.nil_prefix

end RatifyProtocol
