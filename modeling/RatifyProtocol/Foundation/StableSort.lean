import Mathlib.Data.List.Sort
import Mathlib.Data.List.Infix
set_option autoImplicit false

/-!
# Foundation: what a stable sort depends on

Sorting by a total preorder leaves the elements that tie in the order they came
in.  So the sorted list is determined by the list of each tie class, and by
nothing else (`insertionSort_congr`).  Nothing here names a particular program.
-/

namespace RatifyProtocol.Foundation

/-! ## The preorder of a comparison -/

section Comparison

variable {α : Type} (cmp : α → α → Ordering) [Std.TransCmp cmp]

/-- The elements a comparison does not put the wrong way round. -/
theorem total_of_compare : Std.Total fun a b => cmp a b ≠ .gt := by
  refine ⟨fun a b => ?_⟩
  by_contra hboth
  simp only [not_or, not_not] at hboth
  have hswap : cmp a b = (cmp b a).swap := Std.OrientedCmp.eq_swap
  rw [hswap, hboth.2] at hboth
  exact absurd hboth.1 (by decide)

theorem trans_of_compare : IsTrans α fun a b => cmp a b ≠ .gt := by
  refine ⟨fun a b c hab hbc => ?_⟩
  exact Ordering.isLE_iff_ne_gt.mp (Std.TransCmp.isLE_trans
    (Ordering.isLE_iff_ne_gt.mpr hab) (Ordering.isLE_iff_ne_gt.mpr hbc))

end Comparison

/-! ## Ties -/

section Ties

variable {α : Type} (r : α → α → Prop) [DecidableRel r]

/-- The elements of `xs` that tie with `a`, in the order they stand. -/
def tiesWith (a : α) (xs : List α) : List α :=
  xs.filter fun b => decide (r a b) && decide (r b a)

/-- The two lists have the same elements, and the same order within each tie. -/
def SameUpToTies (xs ys : List α) : Prop :=
  ∀ a, tiesWith r a xs = tiesWith r a ys

variable {r} {xs ys : List α} {a b : α}

theorem mem_tiesWith : b ∈ tiesWith r a xs ↔ b ∈ xs ∧ r a b ∧ r b a := by
  simp [tiesWith]

theorem mem_tiesWith_self [Std.Refl r] : a ∈ tiesWith r a xs ↔ a ∈ xs := by
  rw [mem_tiesWith]
  exact ⟨And.left, fun h => ⟨h, Std.Refl.refl a, Std.Refl.refl a⟩⟩

theorem tiesWith_cons_of_tie (h : r a b ∧ r b a) :
    tiesWith r a (b :: xs) = b :: tiesWith r a xs := by
  simp [tiesWith, h.1, h.2]

theorem tiesWith_cons_of_not_tie (h : ¬ (r a b ∧ r b a)) :
    tiesWith r a (b :: xs) = tiesWith r a xs := by
  have hfalse : (decide (r a b) && decide (r b a)) = false := by
    rw [Bool.eq_false_iff]
    intro htrue
    simp only [Bool.and_eq_true, decide_eq_true_eq] at htrue
    exact h htrue
  simp [tiesWith, hfalse]

/-- An inserted element stands before the elements it ties with. -/
theorem tiesWith_orderedInsert [IsTrans α r] :
    tiesWith r a (xs.orderedInsert r b) = tiesWith r a (b :: xs) := by
  induction xs with
  | nil => rfl
  | cons x xs ih =>
    rw [List.orderedInsert_cons]
    split
    · rfl
    · rename_i hbx
      by_cases hb : r a b ∧ r b a
      · -- `x` does not tie with `a`, or `b` would be below it.
        have hx : ¬ (r a x ∧ r x a) := fun h => hbx (IsTrans.trans b a x hb.2 h.1)
        rw [tiesWith_cons_of_not_tie hx, ih, tiesWith_cons_of_tie hb, tiesWith_cons_of_tie hb,
          tiesWith_cons_of_not_tie hx]
      · rw [tiesWith_cons_of_not_tie hb]
        by_cases hx : r a x ∧ r x a
        · rw [tiesWith_cons_of_tie hx, ih, tiesWith_cons_of_not_tie hb, tiesWith_cons_of_tie hx]
        · rw [tiesWith_cons_of_not_tie hx, ih, tiesWith_cons_of_not_tie hb,
            tiesWith_cons_of_not_tie hx]

/-- Sorting leaves each tie as it is. -/
theorem tiesWith_insertionSort [IsTrans α r] :
    tiesWith r a (xs.insertionSort r) = tiesWith r a xs := by
  induction xs with
  | nil => rfl
  | cons x xs ih =>
    rw [List.insertionSort_cons, tiesWith_orderedInsert]
    by_cases hx : r a x ∧ r x a
    · rw [tiesWith_cons_of_tie hx, tiesWith_cons_of_tie hx, ih]
    · rw [tiesWith_cons_of_not_tie hx, tiesWith_cons_of_not_tie hx, ih]

/-- Two sorted lists with the same ties are equal. -/
theorem eq_of_sameUpToTies [Std.Refl r] (h : SameUpToTies r xs ys) (hx : xs.Pairwise r)
    (hy : ys.Pairwise r) : xs = ys := by
  induction xs generalizing ys with
  | nil =>
    cases ys with
    | nil => rfl
    | cons y ys =>
      have hmem : y ∈ tiesWith r y [] := h y ▸ mem_tiesWith_self.mpr List.mem_cons_self
      exact absurd (mem_tiesWith_self.mp hmem) (List.not_mem_nil)
  | cons x xs ih =>
    cases ys with
    | nil =>
      have hmem : x ∈ tiesWith r x [] := h x ▸ mem_tiesWith_self.mpr List.mem_cons_self
      exact absurd (mem_tiesWith_self.mp hmem) (List.not_mem_nil)
    | cons y ys =>
      rw [List.pairwise_cons] at hx hy
      -- Each head occurs in the other list, so the heads tie.
      have hxy : r x y := by
        have hmem : y ∈ x :: xs := mem_tiesWith_self.mp (h y ▸ mem_tiesWith_self.mpr
          List.mem_cons_self)
        rcases List.mem_cons.mp hmem with rfl | hmem
        · exact Std.Refl.refl y
        · exact hx.1 y hmem
      have hyx : r y x := by
        have hmem : x ∈ y :: ys := mem_tiesWith_self.mp (h x ▸ mem_tiesWith_self.mpr
          List.mem_cons_self)
        rcases List.mem_cons.mp hmem with rfl | hmem
        · exact Std.Refl.refl x
        · exact hy.1 x hmem
      have hheads := h x
      rw [tiesWith_cons_of_tie ⟨Std.Refl.refl x, Std.Refl.refl x⟩,
        tiesWith_cons_of_tie ⟨hxy, hyx⟩, List.cons.injEq] at hheads
      obtain ⟨rfl, -⟩ := hheads
      rw [ih (fun a => ?_) hx.2 hy.2]
      have hcons := h a
      by_cases ha : r a x ∧ r x a
      · rw [tiesWith_cons_of_tie ha, tiesWith_cons_of_tie ha, List.cons.injEq] at hcons
        exact hcons.2
      · rwa [tiesWith_cons_of_not_tie ha, tiesWith_cons_of_not_tie ha] at hcons

/-- The sorted list depends only on the elements and their order within each tie. -/
theorem insertionSort_congr [Std.Total r] [IsTrans α r] (h : SameUpToTies r xs ys) :
    xs.insertionSort r = ys.insertionSort r := by
  have : Std.Refl r := ⟨fun a => (Std.Total.total (r := r) a a).elim id id⟩
  refine eq_of_sameUpToTies (fun a => ?_) (List.pairwise_insertionSort r xs)
    (List.pairwise_insertionSort r ys)
  rw [tiesWith_insertionSort, tiesWith_insertionSort]
  exact h a

/-- Sorting a sorted list with one more element at its end inserts the element. -/
theorem exists_insertionSort_concat (h : xs.Pairwise r) (a : α) :
    ∃ front back, xs = front ++ back ∧ (xs ++ [a]).insertionSort r = front ++ a :: back := by
  induction xs with
  | nil => exact ⟨[], [], rfl, rfl⟩
  | cons x xs ih =>
    rw [List.pairwise_cons] at h
    obtain ⟨front, back, hsplit, hsort⟩ := ih h.2
    rw [List.cons_append, List.insertionSort_cons, hsort]
    subst hsplit
    cases front with
    | nil =>
      simp only [List.nil_append, List.orderedInsert_cons] at h ⊢
      split
      · exact ⟨[x], back, rfl, rfl⟩
      · refine ⟨[], x :: back, rfl, ?_⟩
        cases back with
        | nil => rfl
        | cons y back =>
          rw [List.orderedInsert_cons_of_le r back (h.1 y List.mem_cons_self)]
          rfl
    | cons y front =>
      refine ⟨x :: y :: front, back, rfl, ?_⟩
      rw [List.cons_append, List.orderedInsert_cons_of_le r _ (h.1 y (by simp))]
      rfl

end Ties

end RatifyProtocol.Foundation
