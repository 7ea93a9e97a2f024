import RatifyProtocol.Foundation.Text
import Mathlib.Data.List.Infix
set_option autoImplicit false

/-!
# Texts with the same words

A message may print a number in more than one way.  Two texts have the same words
when one becomes the other by writing runs of marked characters, the digits of a
number, differently.  A phrase without marked characters stands in both or in none.
-/

namespace RatifyProtocol.Foundation

/-! ## Phrases around a run -/

theorem prefix_of_prefix_append {α : Type} {p a d b : List α} (hd : d ≠ [])
    (hmark : ∀ c ∈ d, c ∉ p) (h : p <+: a ++ d ++ b) : p <+: a := by
  rw [List.append_assoc] at h
  obtain hshort | hlong := List.prefix_or_prefix_of_prefix h (List.prefix_append a (d ++ b))
  · exact hshort
  · -- A longer phrase would go on with the first character of the run.
    obtain ⟨q, rfl⟩ := hlong
    cases q with
    | nil => simp
    | cons x q =>
      obtain ⟨y, d, rfl⟩ := List.exists_cons_of_ne_nil hd
      have htail := (List.prefix_append_right_inj a).mp h
      obtain ⟨rfl, -⟩ := List.cons_prefix_cons.mp htail
      exact absurd (by simp) (hmark x List.mem_cons_self)

theorem infix_of_infix_append {α : Type} {p d b : List α} (hp : p ≠ [])
    (hmark : ∀ c ∈ d, c ∉ p) (h : p <:+: d ++ b) : p <:+: b := by
  induction d with
  | nil => exact h
  | cons x d ih =>
    obtain hprefix | hinfix := List.infix_cons_iff.mp h
    · obtain ⟨y, p, rfl⟩ := List.exists_cons_of_ne_nil hp
      obtain ⟨rfl, -⟩ := List.cons_prefix_cons.mp hprefix
      exact absurd List.mem_cons_self (hmark y List.mem_cons_self)
    · exact ih (fun c hc => hmark c (List.mem_cons_of_mem _ hc)) hinfix

/-- A phrase that has no character of the run stands before it or behind it. -/
theorem infix_around_iff {α : Type} {p a d b : List α} (hp : p ≠ []) (hd : d ≠ [])
    (hmark : ∀ c ∈ d, c ∉ p) : p <:+: a ++ d ++ b ↔ p <:+: a ∨ p <:+: b := by
  constructor
  · intro h
    induction a with
    | nil => exact .inr (infix_of_infix_append hp hmark h)
    | cons x a ih =>
      obtain hprefix | hinfix := List.infix_cons_iff.mp h
      · exact .inl (prefix_of_prefix_append (a := x :: a) hd hmark hprefix).isInfix
      · obtain hbefore | hbehind := ih hinfix
        · exact .inl (List.infix_cons hbefore)
        · exact .inr hbehind
  · intro h
    obtain hbefore | hbehind := h
    · exact hbefore.trans (List.infix_append' [] a (d ++ b) |>.trans (by simp))
    · exact hbehind.trans (List.suffix_append (a ++ d) b).isInfix

theorem prefix_around_iff {α : Type} {p a d b : List α} (hd : d ≠ [])
    (hmark : ∀ c ∈ d, c ∉ p) : p <+: a ++ d ++ b ↔ p <+: a :=
  ⟨prefix_of_prefix_append hd hmark, fun h => by
    rw [List.append_assoc]
    exact h.trans (List.prefix_append a (d ++ b))⟩

/-! ## The relation -/

/-- A run of marked characters, with at least one of them. -/
def IsRun (mark : Char → Bool) (d : String) : Prop := d ≠ "" ∧ d.toList.all mark = true

/-- The texts differ at most in how runs of marked characters are written. -/
inductive SameWords (mark : Char → Bool) : String → String → Prop
  | refl (s : String) : SameWords mark s s
  | run (a b : String) {d e : String} (hd : IsRun mark d) (he : IsRun mark e) :
      SameWords mark (a ++ d ++ b) (a ++ e ++ b)
  | trans {s t u : String} (hst : SameWords mark s t) (htu : SameWords mark t u) :
      SameWords mark s u

namespace SameWords

variable {mark : Char → Bool} {s t u v : String}

theorem append_left (u : String) (h : SameWords mark s t) : SameWords mark (u ++ s) (u ++ t) := by
  induction h with
  | refl s => exact .refl _
  | run a b hd he =>
    have hrun := run (u ++ a) b hd he
    simp only [String.append_assoc] at hrun ⊢
    exact hrun
  | trans _ _ ihst ihtu => exact ihst.trans ihtu

theorem append_right (u : String) (h : SameWords mark s t) :
    SameWords mark (s ++ u) (t ++ u) := by
  induction h with
  | refl s => exact .refl _
  | run a b hd he =>
    have hrun := run a (b ++ u) hd he
    simp only [String.append_assoc] at hrun ⊢
    exact hrun
  | trans _ _ ihst ihtu => exact ihst.trans ihtu

theorem append (hst : SameWords mark s t) (huv : SameWords mark u v) :
    SameWords mark (s ++ u) (t ++ v) :=
  (hst.append_right u).trans (huv.append_left t)

theorem number {d e : String} (hd : IsRun mark d) (he : IsRun mark e) : SameWords mark d e := by
  simpa using run "" "" hd he

section Phrases

variable {p : String} (hp : p ≠ "") (hmark : p.toList.all (fun c => !mark c) = true)

include hmark in
theorem not_mem_of_run {d : String} (hd : IsRun mark d) : ∀ c ∈ d.toList, c ∉ p.toList := by
  intro c hc hmem
  have hmarked := List.all_eq_true.mp hd.2 c hc
  have hplain := List.all_eq_true.mp hmark c hmem
  rw [hmarked] at hplain
  cases hplain

include hp hmark in
/-- A phrase without marked characters stands in both texts or in none. -/
theorem contains_iff (h : SameWords mark s t) :
    p.toList <:+: s.toList ↔ p.toList <:+: t.toList := by
  have hne : p.toList ≠ [] := by simpa using hp
  induction h with
  | refl s => exact Iff.rfl
  | run a b hd he =>
    simp only [String.toList_append]
    rw [infix_around_iff hne (by simpa using hd.1) (not_mem_of_run hmark hd),
      infix_around_iff hne (by simpa using he.1) (not_mem_of_run hmark he)]
  | trans _ _ ihst ihtu => exact ihst.trans ihtu

include hmark in
/-- Both texts start with the phrase, or none does. -/
theorem startsWith_eq (h : SameWords mark s t) : startsWith s p = startsWith t p := by
  have hiff : p.toList <+: s.toList ↔ p.toList <+: t.toList := by
    induction h with
    | refl s => exact Iff.rfl
    | run a b hd he =>
      simp only [String.toList_append]
      rw [prefix_around_iff (by simpa using hd.1) (not_mem_of_run hmark hd),
        prefix_around_iff (by simpa using he.1) (not_mem_of_run hmark he)]
    | trans _ _ ihst ihtu => exact ihst.trans ihtu
  unfold startsWith
  rw [Bool.eq_iff_iff, List.isPrefixOf_iff_prefix, List.isPrefixOf_iff_prefix]
  exact hiff

end Phrases

end SameWords

end RatifyProtocol.Foundation
