import Mathlib.Data.List.Sort
import Mathlib.Data.List.Dedup
set_option autoImplicit false

/-!
# Foundation: finite sets kept as sorted lists

A value type with a linear order is often stored as a duplicate-free sorted
list, so that two equal sets have one representation.  This module fixes the
normal form (`sortedUnique`), the two set comparisons a caller makes on
arbitrary lists (`containsAll`, `equalSets`), and the rules that turn each of
them into membership.  Nothing here names a particular program.
-/

namespace RatifyProtocol.Foundation

variable {α : Type} [LinearOrder α]

/-- The duplicate-free ascending list with the elements of `xs`. -/
def sortedUnique (xs : List α) : List α :=
  xs.dedup.insertionSort (· ≤ ·)

/-- Every element of `want` occurs in `stored`. -/
def containsAll (stored want : List α) : Bool :=
  want.all fun w => stored.contains w

/-- The two lists have the same elements, compared the way a program does it:
equally many distinct elements, and one inclusion. -/
def equalSets (a b : List α) : Bool :=
  (sortedUnique a).length == (sortedUnique b).length && containsAll a b

/-- Every element is below its successor, under `lt`. -/
def ascendingBy {β : Type} (lt : β → β → Bool) : List β → Bool
  | x :: y :: rest => lt x y && ascendingBy lt (y :: rest)
  | _ => true

theorem ascendingBy_of_pairwise {β : Type} {lt : β → β → Bool} {xs : List β}
    (h : xs.Pairwise fun a b => lt a b = true) : ascendingBy lt xs = true := by
  induction xs with
  | nil => rfl
  | cons x xs ih =>
    cases xs with
    | nil => rfl
    | cons y rest =>
      rw [ascendingBy, Bool.and_eq_true]
      exact ⟨List.rel_of_pairwise_cons h List.mem_cons_self, ih (List.Pairwise.of_cons h)⟩

/-! ## The normal form -/

@[simp] theorem mem_sortedUnique {x : α} {xs : List α} :
    x ∈ sortedUnique xs ↔ x ∈ xs := by
  simp [sortedUnique, List.mem_insertionSort]

theorem nodup_sortedUnique (xs : List α) : (sortedUnique xs).Nodup :=
  (List.perm_insertionSort _ _).nodup_iff.mpr (List.nodup_dedup xs)

theorem pairwise_sortedUnique (xs : List α) :
    (sortedUnique xs).Pairwise (· ≤ ·) :=
  List.pairwise_insertionSort _ _

/-- Two normal forms with the same elements are the same list. -/
theorem sortedUnique_congr {a b : List α} (h : ∀ x, x ∈ a ↔ x ∈ b) :
    sortedUnique a = sortedUnique b := by
  have hperm : (sortedUnique a).Perm (sortedUnique b) := by
    rw [List.perm_ext_iff_of_nodup (nodup_sortedUnique a) (nodup_sortedUnique b)]
    intro x
    simpa using h x
  exact hperm.eq_of_pairwise (fun _ _ _ _ h₁ h₂ => le_antisymm h₁ h₂)
    (pairwise_sortedUnique a) (pairwise_sortedUnique b)

@[simp] theorem sortedUnique_nil : sortedUnique ([] : List α) = [] := rfl

@[simp] theorem sortedUnique_idem (xs : List α) :
    sortedUnique (sortedUnique xs) = sortedUnique xs :=
  sortedUnique_congr fun _ => mem_sortedUnique

theorem length_sortedUnique (xs : List α) :
    (sortedUnique xs).length = xs.dedup.length :=
  List.length_insertionSort _ _

/-- The length test a program uses to reject repeated values. -/
theorem length_sortedUnique_eq_iff {xs : List α} :
    (sortedUnique xs).length = xs.length ↔ xs.Nodup := by
  rw [length_sortedUnique]
  constructor
  · intro h
    have := (List.dedup_sublist xs).eq_of_length h
    exact List.dedup_eq_self.mp this
  · intro h
    rw [List.dedup_eq_self.mpr h]

theorem sortedUnique_eq_nil {xs : List α} : sortedUnique xs = [] ↔ xs = [] := by
  constructor
  · intro h
    refine List.eq_nil_iff_forall_not_mem.mpr fun x hx => ?_
    have := mem_sortedUnique.mpr hx
    simp [h] at this
  · rintro rfl
    rfl

/-! ## Inclusion and equality -/

@[simp] theorem containsAll_iff {a b : List α} :
    containsAll a b = true ↔ ∀ x ∈ b, x ∈ a := by
  simp [containsAll]

theorem containsAll_eq_false_iff {a b : List α} :
    containsAll a b = false ↔ ∃ x ∈ b, x ∉ a := by
  rw [← Bool.not_eq_true, containsAll_iff]
  push Not
  rfl

@[simp] theorem equalSets_iff {a b : List α} :
    equalSets a b = true ↔ ∀ x, x ∈ a ↔ x ∈ b := by
  simp only [equalSets, Bool.and_eq_true, beq_iff_eq, containsAll_iff]
  constructor
  · rintro ⟨hlen, hsub⟩
    have hsubset : sortedUnique b ⊆ sortedUnique a := fun x hx => by
      simpa using hsub x (by simpa using hx)
    have hperm : (sortedUnique b).Perm (sortedUnique a) :=
      (List.subperm_of_subset (nodup_sortedUnique b) hsubset).perm_of_length_le (le_of_eq hlen)
    intro x
    simpa using (hperm.mem_iff (a := x)).symm
  · intro h
    exact ⟨by rw [sortedUnique_congr h], fun x hx => (h x).mpr hx⟩

end RatifyProtocol.Foundation
