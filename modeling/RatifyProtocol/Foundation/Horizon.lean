import Mathlib.Order.Bounds.Basic
import Mathlib.Order.Interval.Set.Defs
import Mathlib.Tactic.Common
set_option autoImplicit false

/-!
# Foundation: horizons

A horizon is the least of several instants, kept in one variable that is zero as
long as there is none.  Folding positive instants into it gives their least
element, whatever their order.
-/

namespace RatifyProtocol.Foundation

/-- Fold one instant into a horizon. -/
def tighten (horizon x : Int) : Int := if horizon = 0 ∨ x < horizon then x else horizon

theorem tighten_le (horizon x : Int) : tighten horizon x ≤ x := by
  unfold tighten
  split <;> omega

theorem tighten_pos {horizon x : Int} (hh : 0 ≤ horizon) (hx : 0 < x) : 0 < tighten horizon x := by
  unfold tighten
  split <;> omega

theorem tighten_le_left {horizon : Int} (hh : 0 < horizon) (x : Int) :
    tighten horizon x ≤ horizon := by
  unfold tighten
  split <;> omega

theorem tighten_eq (horizon x : Int) : tighten horizon x = x ∨ tighten horizon x = horizon := by
  unfold tighten
  split
  · exact Or.inl rfl
  · exact Or.inr rfl

/-- From a horizon on, folding finds the least of it and of the instants. -/
theorem foldl_tighten_isLeast_insert {xs : List Int} {horizon : Int} (hh : 0 < horizon)
    (hxs : ∀ x ∈ xs, 0 < x) :
    IsLeast { x | x = horizon ∨ x ∈ xs } (xs.foldl tighten horizon) := by
  induction xs generalizing horizon with
  | nil =>
    refine ⟨Or.inl rfl, fun x hx => ?_⟩
    obtain rfl | hx := hx
    · exact le_refl _
    · cases hx
  | cons y ys ih =>
    have hy := hxs y List.mem_cons_self
    obtain ⟨hmem, hle⟩ :=
      ih (tighten_pos hh.le hy) fun x hx => hxs x (List.mem_cons_of_mem y hx)
    rw [List.foldl_cons]
    have hstep := hle (Or.inl rfl)
    refine ⟨?_, fun x hx => ?_⟩
    · obtain hmem | hmem := hmem
      · obtain heq | heq := tighten_eq horizon y
        · exact Or.inr (by rw [hmem, heq]; exact List.mem_cons_self)
        · exact Or.inl (hmem.trans heq)
      · exact Or.inr (List.mem_cons_of_mem y hmem)
    · obtain rfl | hx := hx
      · exact hstep.trans (tighten_le_left hh y)
      · obtain rfl | hx := List.mem_cons.mp hx
        · exact hstep.trans (tighten_le horizon x)
        · exact hle (Or.inr hx)

/-- Folding positive instants into no horizon finds the least of them. -/
theorem foldl_tighten_isLeast {xs : List Int} (hne : xs ≠ []) (hxs : ∀ x ∈ xs, 0 < x) :
    IsLeast { x | x ∈ xs } (xs.foldl tighten 0) := by
  cases xs with
  | nil => exact absurd rfl hne
  | cons y ys =>
    have hy := hxs y List.mem_cons_self
    have hfirst : tighten 0 y = y := if_pos (Or.inl rfl)
    rw [List.foldl_cons, hfirst]
    obtain ⟨hmem, hle⟩ :=
      foldl_tighten_isLeast_insert hy fun x hx => hxs x (List.mem_cons_of_mem y hx)
    exact ⟨List.mem_cons.mpr hmem, fun x hx => hle (List.mem_cons.mp hx)⟩

/-! ## Deadlines that may be absent -/

/-- The greatest bound of some deadlines, with zero where there are none. -/
def Deadline (S : Set Int) (x : Int) : Prop := (x = 0 ∧ S = ∅) ∨ (0 < x ∧ IsGLB S x)

/-- A horizon that a present deadline bounds. -/
def boundBy (horizon deadline : Int) : Int :=
  if deadline > 0 then min horizon deadline else horizon

theorem isGLB_boundBy {S T : Set Int} {horizon deadline : Int} (hS : IsGLB S horizon)
    (hT : Deadline T deadline) : IsGLB (S ∪ T) (boundBy horizon deadline) := by
  obtain ⟨rfl, rfl⟩ | ⟨hpos, hT⟩ := hT
  · rw [Set.union_empty]
    exact hS
  · rw [boundBy, if_pos hpos]
    exact hS.union hT

/-- A deadline past another one bounds nothing. -/
theorem isGLB_of_insert {S : Set Int} {x y horizon : Int} (h : IsGLB (insert y S) horizon)
    (hx : x ∈ S) (hxy : x ≤ y) : IsGLB S horizon := by
  refine ⟨fun d hd => h.1 (Set.mem_insert_of_mem y hd), fun u hu => h.2 fun d hd => ?_⟩
  obtain rfl | hd := Set.mem_insert_iff.mp hd
  · exact (hu hx).trans hxy
  · exact hu hd

end RatifyProtocol.Foundation
