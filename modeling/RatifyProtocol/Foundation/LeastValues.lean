import Mathlib.Order.Bounds.Basic
import Mathlib.Order.MinMax
import RatifyProtocol.Foundation.OrderedMap
set_option autoImplicit false

/-!
# Foundation: the least value of every key

A list of keyed values folded into a finite map that keeps the least value of each key.
The result depends on which pairs there are and not on their order or number.
-/

namespace RatifyProtocol.Foundation.OrderedMap

variable {κ α : Type} [LinearOrder κ] [LinearOrder α]

/-- Put `a` at `k`, unless a lesser value is there. -/
def lower (m : OrderedMap κ α) (k : κ) (a : α) : OrderedMap κ α :=
  match m.get? k with
  | none => m.insert k a
  | some b => m.insert k (min b a)

/-- The least value of every key of a list. -/
def leastOf (xs : List (κ × α)) : OrderedMap κ α := xs.foldl (fun m x => m.lower x.1 x.2) empty

theorem get?_lower_of_ne (m : OrderedMap κ α) {k k' : κ} (a : α) (h : k' ≠ k) :
    (m.lower k a).get? k' = m.get? k' := by
  rw [lower]
  split
  · exact get?_insert_of_ne m a h
  · exact get?_insert_of_ne m _ h

theorem get?_lower_self (m : OrderedMap κ α) (k : κ) (a : α) :
    (m.lower k a).get? k = some ((m.get? k).elim a fun b => min b a) := by
  rw [lower]
  split
  · rename_i hnone
    rw [get?_insert_self, hnone]
    rfl
  · rename_i b hsome
    rw [get?_insert_self, hsome]
    rfl

/-- The bounds of what a map holds at a key. -/
def Above (m : OrderedMap κ α) (k : κ) (c : α) : Prop := ∀ b, m.get? k = some b → c ≤ b

theorem above_lower_iff {m : OrderedMap κ α} {k k' : κ} {a c : α} :
    (m.lower k a).Above k' c ↔ m.Above k' c ∧ (k' = k → c ≤ a) := by
  by_cases hk : k' = k
  · subst hk
    rw [Above, Above, get?_lower_self]
    cases m.get? k' with
    | none => simp
    | some b => simp
  · rw [Above, Above, get?_lower_of_ne m a hk]
    simp [hk]

theorem isSome_lower_iff {m : OrderedMap κ α} {k k' : κ} {a : α} :
    ((m.lower k a).get? k').isSome = true ↔ (m.get? k').isSome = true ∨ k' = k := by
  by_cases hk : k' = k
  · subst hk
    rw [get?_lower_self]
    simp
  · rw [get?_lower_of_ne m a hk]
    simp [hk]

/-- What a map holds after a fold is bounded by what it held and by the list. -/
theorem above_foldl_lower_iff {xs : List (κ × α)} {m : OrderedMap κ α} {k : κ} {c : α} :
    (xs.foldl (fun m x => m.lower x.1 x.2) m).Above k c
      ↔ m.Above k c ∧ ∀ a, (k, a) ∈ xs → c ≤ a := by
  induction xs generalizing m with
  | nil => simp
  | cons x xs ih =>
    rw [List.foldl_cons, ih, above_lower_iff, and_assoc]
    refine and_congr_right fun _ => ?_
    obtain ⟨k', a'⟩ := x
    constructor
    · intro h a ha
      obtain heq | ha := List.mem_cons.mp ha
      · obtain ⟨rfl, rfl⟩ := Prod.mk.inj heq
        exact h.1 rfl
      · exact h.2 a ha
    · intro h
      exact ⟨fun hk => h a' (by rw [hk]; exact List.mem_cons_self),
        fun a ha => h a (List.mem_cons_of_mem _ ha)⟩

theorem isSome_foldl_lower_iff {xs : List (κ × α)} {m : OrderedMap κ α} {k : κ} :
    ((xs.foldl (fun m x => m.lower x.1 x.2) m).get? k).isSome = true
      ↔ (m.get? k).isSome = true ∨ ∃ a, (k, a) ∈ xs := by
  induction xs generalizing m with
  | nil => simp
  | cons x xs ih =>
    rw [List.foldl_cons, ih, isSome_lower_iff, or_assoc]
    refine or_congr_right ?_
    obtain ⟨k', a'⟩ := x
    constructor
    · rintro (rfl | ⟨a, ha⟩)
      · exact ⟨a', List.mem_cons_self⟩
      · exact ⟨a, List.mem_cons_of_mem _ ha⟩
    · rintro ⟨a, ha⟩
      obtain heq | ha := List.mem_cons.mp ha
      · exact .inl (Prod.mk.inj heq).1
      · exact .inr ⟨a, ha⟩

/-- The value of a key is one of its values in the list, or it was there. -/
theorem mem_of_foldl_lower {xs : List (κ × α)} {m : OrderedMap κ α} {k : κ} {a : α}
    (h : (xs.foldl (fun m x => m.lower x.1 x.2) m).get? k = some a) :
    (k, a) ∈ xs ∨ m.get? k = some a := by
  induction xs generalizing m with
  | nil => exact .inr h
  | cons x xs ih =>
    obtain hmem | hfound := ih h
    · exact .inl (List.mem_cons_of_mem x hmem)
    obtain ⟨k', a'⟩ := x
    by_cases hk : k = k'
    · subst hk
      rw [get?_lower_self] at hfound
      cases hheld : m.get? k with
      | none =>
        rw [hheld] at hfound
        obtain rfl := Option.some.inj hfound
        exact .inl List.mem_cons_self
      | some b =>
        rw [hheld] at hfound
        obtain rfl := Option.some.inj hfound
        obtain hmin | hmin := min_choice b a'
        · exact .inr (congrArg some hmin.symm)
        · change (k, min b a') ∈ (k, a') :: xs ∨ _
          rw [hmin]
          exact .inl List.mem_cons_self
    · rw [get?_lower_of_ne m a' hk] at hfound
      exact .inr hfound

/-! ## The map of least values -/

variable {xs ys : List (κ × α)} {k : κ} {a : α}

/-- The map holds the least of the values of a key. -/
theorem get?_leastOf_eq_some_iff :
    (leastOf xs).get? k = some a ↔ IsLeast {b | (k, b) ∈ xs} a := by
  have hbound (c : α) : (leastOf xs).Above k c ↔ ∀ b, (k, b) ∈ xs → c ≤ b := by
    rw [leastOf, above_foldl_lower_iff]
    simp [Above]
  constructor
  · intro h
    have hmem : (k, a) ∈ xs := (mem_of_foldl_lower h).resolve_right (by simp)
    refine ⟨hmem, fun b hb => (hbound a).mp (fun c hc => ?_) b hb⟩
    rw [h] at hc
    exact (Option.some.inj hc).le
  · intro h
    have hsome : ((leastOf xs).get? k).isSome = true :=
      isSome_foldl_lower_iff.mpr (.inr ⟨a, h.1⟩)
    obtain ⟨b, hb⟩ := Option.isSome_iff_exists.mp hsome
    have hmem : (k, b) ∈ xs := (mem_of_foldl_lower hb).resolve_right (by simp)
    have hle : a ≤ b := (hbound a).mpr (fun c hc => h.2 hc) b hb
    have hge : b ≤ a := (hbound b).mp (fun c hc => (Option.some.inj (hb.symm.trans hc)).le) a h.1
    rw [hb, le_antisymm hge hle]

/-- Lists of the same pairs have the same least values. -/
theorem leastOf_congr (h : ∀ x, x ∈ xs ↔ x ∈ ys) : leastOf xs = leastOf ys := by
  refine ext_get? fun k => Option.ext fun a => ?_
  rw [get?_leastOf_eq_some_iff, get?_leastOf_eq_some_iff]
  simp only [h]

end RatifyProtocol.Foundation.OrderedMap
