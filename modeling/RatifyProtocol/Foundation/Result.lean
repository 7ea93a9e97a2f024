import Mathlib.Data.List.Forall2
set_option autoImplicit false

/-!
# Foundation: sequencing in `Except`

Rules that take a successful or failed `Except` computation apart, one bind at
a time, so that later proofs never unfold the monad.
-/

namespace RatifyProtocol.Foundation

variable {ε α β : Type}

theorem bind_eq_ok_iff {x : Except ε α} {f : α → Except ε β} {b : β} :
    (x >>= f) = .ok b ↔ ∃ a, x = .ok a ∧ f a = .ok b := by
  cases x with
  | error e => simp [bind, Except.bind]
  | ok a => simp [bind, Except.bind]

theorem bind_eq_ok_unit_iff {x : Except ε Unit} {y : Except ε α} {a : α} :
    (x >>= fun _ => y) = .ok a ↔ x = .ok () ∧ y = .ok a := by
  rw [bind_eq_ok_iff]
  constructor
  · rintro ⟨_, hx, hy⟩
    exact ⟨hx, hy⟩
  · rintro ⟨hx, hy⟩
    exact ⟨(), hx, hy⟩

theorem bind_eq_error_iff {x : Except ε α} {f : α → Except ε β} {e : ε} :
    (x >>= f) = .error e ↔ x = .error e ∨ ∃ a, x = .ok a ∧ f a = .error e := by
  cases x with
  | error e' => simp [bind, Except.bind]
  | ok a => simp [bind, Except.bind]

@[simp] theorem ok_bind {a : α} {f : α → Except ε β} :
    ((.ok a : Except ε α) >>= f) = f a := rfl

@[simp] theorem error_bind {e : ε} {f : α → Except ε β} :
    ((.error e : Except ε α) >>= f) = .error e := rfl

theorem map_eq_ok_iff {x : Except ε α} {f : α → β} {b : β} :
    (f <$> x) = .ok b ↔ ∃ a, x = .ok a ∧ f a = b := by
  cases x with
  | error e => simp [Functor.map, Except.map]
  | ok a => simp [Functor.map, Except.map]

@[simp] theorem map_ok {a : α} {f : α → β} :
    (f <$> (.ok a : Except ε α)) = .ok (f a) := rfl

theorem mapError_eq_ok_iff {ε' : Type} {f : ε → ε'} {x : Except ε α} {a : α} :
    x.mapError f = .ok a ↔ x = .ok a := by
  cases x with
  | error e =>
    constructor
    · intro h
      cases h
    · intro h
      cases h
  | ok b =>
    constructor
    · intro h
      cases h
      rfl
    · intro h
      cases h
      rfl

/-- A guard that returns an error is passed when its condition fails. -/
theorem ite_error_eq_ok_iff {c : Prop} [Decidable c] {e : ε} {x : Except ε α} {a : α} :
    (if c then .error e else x) = .ok a ↔ ¬c ∧ x = .ok a := by
  by_cases hc : c <;> simp [hc]

/-- A traversal succeeds exactly when every element does, in order. -/
theorem mapM_eq_ok_iff {f : α → Except ε β} {xs : List α} {ys : List β} :
    xs.mapM f = .ok ys ↔ List.Forall₂ (fun x y => f x = .ok y) xs ys := by
  induction xs generalizing ys with
  | nil =>
    simp only [List.mapM_nil, List.forall₂_nil_left_iff]
    exact ⟨fun h => (Except.ok.inj h).symm, fun h => by rw [h]; rfl⟩
  | cons x xs ih =>
    simp only [List.mapM_cons, bind_eq_ok_iff, List.forall₂_cons_left_iff]
    constructor
    · rintro ⟨y, hy, zs, hzs, h⟩
      obtain rfl := Except.ok.inj h
      exact ⟨y, zs, hy, ih.mp hzs, rfl⟩
    · rintro ⟨y, zs, hy, hzs, rfl⟩
      exact ⟨y, hy, zs, ih.mpr hzs, rfl⟩

/-- A traversal whose elements all succeed succeeds, and what holds of each result
holds of the results collected. -/
theorem exists_mapM_eq_ok {f : α → Except ε β} {p : α → β → Prop} {xs : List α}
    (h : ∀ x ∈ xs, ∃ y, f x = .ok y ∧ p x y) :
    ∃ ys, xs.mapM f = .ok ys ∧ (∀ x ∈ xs, ∃ y ∈ ys, p x y) ∧ ∀ y ∈ ys, ∃ x ∈ xs, p x y := by
  induction xs with
  | nil => exact ⟨[], rfl, by simp, by simp⟩
  | cons x xs ih =>
    obtain ⟨y, hy, hp⟩ := h x List.mem_cons_self
    obtain ⟨ys, hys, hto, hfrom⟩ := ih fun x' hx' => h x' (List.mem_cons_of_mem x hx')
    refine ⟨y :: ys, ?_, fun x' hx' => ?_, fun y' hy' => ?_⟩
    · exact mapM_eq_ok_iff.mpr (.cons hy (mapM_eq_ok_iff.mp hys))
    · obtain rfl | hx' := List.mem_cons.mp hx'
      · exact ⟨y, List.mem_cons_self, hp⟩
      · obtain ⟨y', hy', hp'⟩ := hto x' hx'
        exact ⟨y', List.mem_cons_of_mem y hy', hp'⟩
    · obtain rfl | hy' := List.mem_cons.mp hy'
      · exact ⟨x, List.mem_cons_self, hp⟩
      · obtain ⟨x', hx', hp'⟩ := hfrom y' hy'
        exact ⟨x', List.mem_cons_of_mem x hx', hp'⟩

theorem forM_eq_ok {f : α → Except ε Unit} {xs : List α} (h : ∀ x ∈ xs, f x = .ok ()) :
    xs.forM f = .ok () := by
  induction xs with
  | nil => rfl
  | cons x xs ih =>
    have htail := ih fun y hy => h y (List.mem_cons_of_mem x hy)
    exact bind_eq_ok_iff.mpr ⟨(), h x List.mem_cons_self, htail⟩

/-- A loop that fails fails at an element. -/
theorem exists_of_forM_eq_error {f : α → Except ε Unit} {xs : List α} {e : ε}
    (h : xs.forM f = .error e) : ∃ x ∈ xs, f x = .error e := by
  induction xs with
  | nil => cases h
  | cons x xs ih =>
    obtain hx | ⟨u, -, hrest⟩ := bind_eq_error_iff.mp h
    · exact ⟨x, List.mem_cons_self, hx⟩
    · obtain ⟨y, hy, hfy⟩ := ih hrest
      exact ⟨y, List.mem_cons_of_mem _ hy, hfy⟩

end RatifyProtocol.Foundation
