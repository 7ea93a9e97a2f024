import Mathlib.Data.List.Forall2
import Mathlib.Data.List.Perm.Basic
set_option autoImplicit false

/-!
# Foundation: lists up to order and a relation

A list is a rearrangement of another when it is a permutation of it whose
elements are then replaced by related ones.  What a program computes from such a
list should not change when the order of its input carries no meaning.
-/

namespace RatifyProtocol.Foundation

variable {α : Type}

/-- `ys` has the elements of `xs` in some order, each replaced by one related to it. -/
def Rearranged (r : α → α → Prop) (xs ys : List α) : Prop :=
  ∃ zs, xs.Perm zs ∧ List.Forall₂ r zs ys

namespace Rearranged

variable {r : α → α → Prop} {xs ys : List α}

theorem of_perm (hrefl : ∀ x, r x x) (h : xs.Perm ys) : Rearranged r xs ys :=
  ⟨ys, h, List.forall₂_same.mpr fun x _ => hrefl x⟩

theorem symm (hsymm : ∀ x y, r x y → r y x) (h : Rearranged r xs ys) : Rearranged r ys xs := by
  obtain ⟨zs, hperm, hr⟩ := h
  obtain ⟨us, hus, hperm'⟩ := List.perm_comp_forall₂ hperm hr
  refine ⟨us, hperm'.symm, ?_⟩
  exact List.Forall₂.flip (hus.imp fun x y hxy => hsymm x y hxy)

/-- What is computed from each element, for related elements related, is
rearranged with them. -/
theorem exists_forall₂ {β : Type} {q : α → β → Prop} {t : β → β → Prop} {ls : List β}
    (hq : ∀ x y l, r x y → q x l → ∃ l', q y l' ∧ t l l') (h : Rearranged r xs ys)
    (hls : List.Forall₂ q xs ls) : ∃ ls', List.Forall₂ q ys ls' ∧ Rearranged t ls ls' := by
  obtain ⟨zs, hperm, hr⟩ := h
  obtain ⟨us, hus, hperm'⟩ := List.perm_comp_forall₂ hperm.symm hls
  suffices hstep : ∃ ls', List.Forall₂ q ys ls' ∧ List.Forall₂ t us ls' by
    obtain ⟨ls', hq', ht⟩ := hstep
    exact ⟨ls', hq', us, hperm'.symm, ht⟩
  clear hperm hperm' hls
  induction hr generalizing us with
  | nil =>
    cases hus
    exact ⟨[], .nil, .nil⟩
  | cons hxy _ ih =>
    cases hus with
    | cons hx hrest =>
      obtain ⟨l', hl', ht⟩ := hq _ _ _ hxy hx
      obtain ⟨ls', hls', hts⟩ := ih _ hrest
      exact ⟨l' :: ls', .cons hl' hls', .cons ht hts⟩

/-- Every element is replaced. -/
theorem forward (h : Rearranged r xs ys) : ∀ x ∈ xs, ∃ y ∈ ys, r x y := by
  obtain ⟨zs, hperm, hr⟩ := h
  intro x hx
  have hz := hperm.mem_iff.mp hx
  clear hperm hx
  induction hr with
  | nil => cases hz
  | @cons z y zs ys hzy _ ih =>
    obtain rfl | hz := List.mem_cons.mp hz
    · exact ⟨y, List.mem_cons_self, hzy⟩
    · obtain ⟨y', hy', hr⟩ := ih hz
      exact ⟨y', List.mem_cons_of_mem y hy', hr⟩

/-- Every replacement stands for an element. -/
theorem backward (h : Rearranged r xs ys) : ∀ y ∈ ys, ∃ x ∈ xs, r x y := by
  obtain ⟨zs, hperm, hr⟩ := h
  intro y hy
  have hback : ∃ z ∈ zs, r z y := by
    clear hperm
    induction hr with
    | nil => cases hy
    | @cons z y' zs ys hzy _ ih =>
      obtain rfl | hy := List.mem_cons.mp hy
      · exact ⟨z, List.mem_cons_self, hzy⟩
      · obtain ⟨z', hz', hr⟩ := ih hy
        exact ⟨z', List.mem_cons_of_mem z hz', hr⟩
  obtain ⟨z, hz, hr⟩ := hback
  exact ⟨z, hperm.mem_iff.mpr hz, hr⟩

/-- A test that related elements pass alike keeps related elements. -/
theorem filter {p : α → Bool} (hp : ∀ x y, r x y → p x = p y) (h : Rearranged r xs ys) :
    Rearranged r (xs.filter p) (ys.filter p) := by
  obtain ⟨zs, hperm, hr⟩ := h
  refine ⟨zs.filter p, hperm.filter p, ?_⟩
  clear hperm
  induction hr with
  | nil => exact .nil
  | @cons z y zs ys hzy _ ih =>
    cases hpz : p z with
    | true =>
      rw [List.filter_cons_of_pos hpz, List.filter_cons_of_pos (by rw [← hp z y hzy, hpz])]
      exact .cons hzy ih
    | false =>
      rw [List.filter_cons_of_neg (by simp [hpz]),
        List.filter_cons_of_neg (by simp [← hp z y hzy, hpz])]
      exact ih

theorem length_eq (h : Rearranged r xs ys) : xs.length = ys.length := by
  obtain ⟨zs, hperm, hr⟩ := h
  exact hperm.length_eq.trans hr.length_eq

theorem singleton {x : α} (h : Rearranged r [x] ys) : ∃ y, ys = [y] ∧ r x y := by
  obtain ⟨zs, hperm, hr⟩ := h
  obtain rfl := List.perm_singleton.mp hperm.symm
  cases hr with
  | cons hxy hrest =>
    cases hrest with
    | nil => exact ⟨_, rfl, hxy⟩

/-- What related elements share is the same up to order. -/
theorem map_perm {β : Type} {f : α → β} (hf : ∀ x y, r x y → f x = f y)
    (h : Rearranged r xs ys) : (xs.map f).Perm (ys.map f) := by
  obtain ⟨zs, hperm, hr⟩ := h
  have hmap : zs.map f = ys.map f := by
    clear hperm
    induction hr with
    | nil => rfl
    | cons hzy _ ih => rw [List.map_cons, List.map_cons, hf _ _ hzy, ih]
  rw [← hmap]
  exact hperm.map f

end Rearranged

end RatifyProtocol.Foundation
