set_option autoImplicit false

/-!
# Runs of a labelled transition relation

`Run step s is t` says that the labels `is`, taken in order, lead from `s` to
`t`.  The rules here turn what one step keeps into what a whole run keeps.
-/

namespace RatifyProtocol.Foundation

variable {σ τ ι : Type}

/-- The labels `is`, taken in order from `s`, lead to the last state. -/
inductive Run (step : σ → ι → σ → Prop) (s : σ) : List ι → σ → Prop
  | nil : Run step s [] s
  | snoc {is : List ι} {t u : σ} {i : ι} (run : Run step s is t) (last : step t i u) :
      Run step s (is ++ [i]) u

namespace Run

variable {step : σ → ι → σ → Prop} {s t u : σ} {is js : List ι} {i : ι}

theorem single (h : step s i t) : Run step s [i] t :=
  show Run step s ([] ++ [i]) t from .snoc .nil h

theorem append (h₁ : Run step s is t) (h₂ : Run step t js u) : Run step s (is ++ js) u := by
  induction h₂ with
  | nil => simpa using h₁
  | snoc _ hlast ih =>
    rw [← List.append_assoc]
    exact ih.snoc hlast

theorem nil_iff : Run step s [] t ↔ t = s := by
  constructor
  · intro h
    generalize hj : ([] : List ι) = js at h
    cases h with
    | nil => rfl
    | snoc _ _ => simp at hj
  · rintro rfl
    exact .nil

/-- The last step of a run. -/
theorem snoc_iff : Run step s (is ++ [i]) u ↔ ∃ t, Run step s is t ∧ step t i u := by
  constructor
  · intro h
    generalize hj : is ++ [i] = js at h
    cases h with
    | nil => simp at hj
    | snoc run last =>
      obtain ⟨rfl, hi⟩ := List.append_inj' hj rfl
      obtain rfl := List.head_eq_of_cons_eq hi
      exact ⟨_, run, last⟩
  · rintro ⟨t, run, last⟩
    exact run.snoc last

/-- A run splits wherever its labels do. -/
theorem append_iff : Run step s (is ++ js) u ↔ ∃ t, Run step s is t ∧ Run step t js u := by
  constructor
  · intro h
    generalize hk : is ++ js = ks at h
    induction h generalizing js with
    | nil =>
      obtain ⟨rfl, rfl⟩ := List.append_eq_nil_iff.mp hk
      exact ⟨s, .nil, .nil⟩
    | @snoc ks t u i run last ih =>
      rcases List.eq_nil_or_concat js with rfl | ⟨js, j, rfl⟩
      · rw [List.append_nil] at hk
        subst hk
        exact ⟨u, run.snoc last, .nil⟩
      · rw [List.concat_eq_append, ← List.append_assoc] at hk
        obtain ⟨hks, hj⟩ := List.append_inj' hk rfl
        obtain rfl := List.head_eq_of_cons_eq hj
        obtain ⟨v, h₁, h₂⟩ := ih hks
        exact ⟨v, h₁, List.concat_eq_append ▸ h₂.snoc last⟩
  · rintro ⟨t, h₁, h₂⟩
    exact h₁.append h₂

/-- What every step keeps holds at the end of every run. -/
theorem invariant (I : σ → Prop) (h₀ : I s) (hstep : ∀ t i u, I t → step t i u → I u)
    (h : Run step s is t) : I t := by
  induction h with
  | nil => exact h₀
  | snoc _ last ih => exact hstep _ _ _ ih last

/-- What every step keeps of the state and the labels taken so far. -/
theorem history (I : List ι → σ → Prop) (h₀ : I [] s)
    (hstep : ∀ is t i u, Run step s is t → I is t → step t i u → I (is ++ [i]) u)
    (h : Run step s is t) : I is t := by
  induction h with
  | nil => exact h₀
  | snoc run last ih => exact hstep _ _ _ _ run ih last

/-- A function steps through any labels. -/
theorem foldl (f : σ → ι → σ) (s : σ) (is : List ι) :
    Run (fun a i b => b = f a i) s is (is.foldl f s) := by
  induction is generalizing s with
  | nil => exact .nil
  | cons i is ih =>
    have hstep : Run (fun a i b => b = f a i) s [i] (f s i) := single rfl
    exact hstep.append (ih (f s i))

/-- The labels of a functional relation determine where a run ends. -/
theorem unique (hfun : ∀ t i u v, step t i u → step t i v → u = v) (h₁ : Run step s is t)
    (h₂ : Run step s is u) : t = u := by
  induction h₁ generalizing u with
  | nil => exact (nil_iff.mp h₂).symm
  | snoc _ last ih =>
    obtain ⟨v, run, last'⟩ := snoc_iff.mp h₂
    exact hfun _ _ _ _ last (ih run ▸ last')

end Run

end RatifyProtocol.Foundation
