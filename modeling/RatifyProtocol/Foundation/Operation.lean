set_option autoImplicit false

/-!
# Foundation: fallible operations on a state

An operation answers with a value or an error and leaves a state behind; what
it wrote before failing stays written.  The rules here take an operation apart
at each bind, on success and on failure, and carry a relation between the state
before and the state after through every operation built from others.
-/

namespace RatifyProtocol.Foundation

variable {σ ε α β : Type}

/-- A fallible computation over a state that survives failure. -/
def Operation (σ ε α : Type) : Type := σ → Except ε α × σ

namespace Operation

instance : Monad (Operation σ ε) where
  pure a := fun s => (.ok a, s)
  bind m f := fun s =>
    match m s with
    | (.ok a, t) => f a t
    | (.error e, t) => (.error e, t)

/-- Fail, leaving the state as it is. -/
def fail (e : ε) : Operation σ ε α := fun s => (.error e, s)

def get : Operation σ ε σ := fun s => (.ok s, s)

def set (s : σ) : Operation σ ε Unit := fun _ => (.ok (), s)

def modify (f : σ → σ) : Operation σ ε Unit := fun s => (.ok (), f s)

/-- A computation that does not look at the state. -/
def lift (r : Except ε α) : Operation σ ε α := fun s => (r, s)

/-- The answer, without stopping on an error. -/
def attempt (m : Operation σ ε α) : Operation σ ε (Except ε α) := fun s => (.ok (m s).1, (m s).2)

/-- The answer under another name. -/
def reply (f : α → β) (m : Operation σ ε α) : Operation σ ε β :=
  fun s => ((m s).1.map f, (m s).2)

/-- The same computation with its error under another name. -/
def mapError {ε' : Type} (f : ε → ε') (m : Operation σ ε α) : Operation σ ε' α :=
  fun s => ((m s).1.mapError f, (m s).2)

/-! ## Evaluation -/

@[simp] theorem pure_apply (a : α) (s : σ) : (pure a : Operation σ ε α) s = (.ok a, s) := rfl

@[simp] theorem fail_apply (e : ε) (s : σ) : (fail e : Operation σ ε α) s = (.error e, s) := rfl

@[simp] theorem get_apply (s : σ) : (get : Operation σ ε σ) s = (.ok s, s) := rfl

@[simp] theorem set_apply (s t : σ) : (set t : Operation σ ε Unit) s = (.ok (), t) := rfl

@[simp] theorem modify_apply (f : σ → σ) (s : σ) :
    (modify f : Operation σ ε Unit) s = (.ok (), f s) := rfl

@[simp] theorem lift_apply (r : Except ε α) (s : σ) : (lift r : Operation σ ε α) s = (r, s) :=
  rfl

@[simp] theorem attempt_apply (m : Operation σ ε α) (s : σ) :
    attempt m s = (.ok (m s).1, (m s).2) := rfl

@[simp] theorem reply_apply (f : α → β) (m : Operation σ ε α) (s : σ) :
    reply f m s = ((m s).1.map f, (m s).2) := rfl

theorem bind_apply_ok {m : Operation σ ε α} {f : α → Operation σ ε β} {s t : σ} {a : α}
    (h : m s = (.ok a, t)) : (m >>= f) s = f a t := by
  simp only [bind, h]

theorem bind_apply_error {m : Operation σ ε α} {f : α → Operation σ ε β} {s t : σ} {e : ε}
    (h : m s = (.error e, t)) : (m >>= f) s = (.error e, t) := by
  simp only [bind, h]

/-- Where a sequence ends: the first part failed, or its answer went on. -/
theorem bind_cases {m : Operation σ ε α} {f : α → Operation σ ε β} {s u : σ}
    {r : Except ε β} (h : (m >>= f) s = (r, u)) :
    (∃ e, m s = (.error e, u) ∧ r = .error e) ∨ ∃ a t, m s = (.ok a, t) ∧ f a t = (r, u) := by
  rcases hm : m s with ⟨x, t⟩
  cases x with
  | error e =>
    rw [bind_apply_error hm] at h
    cases h
    exact .inl ⟨e, rfl, rfl⟩
  | ok a =>
    rw [bind_apply_ok hm] at h
    exact .inr ⟨a, t, rfl, h⟩

/-- What follows a pure part runs from the same state. -/
theorem lift_bind_cases {x : Except ε α} {f : α → Operation σ ε β} {s u : σ} {r : Except ε β}
    (h : (lift x >>= f) s = (r, u)) :
    (∃ e, r = .error e ∧ u = s) ∨ ∃ a, x = .ok a ∧ f a s = (r, u) := by
  rcases bind_cases h with ⟨e, he, hr⟩ | ⟨a, t, ha, hf⟩
  · cases he
    exact .inl ⟨e, hr, rfl⟩
  · cases ha
    exact .inr ⟨a, rfl, hf⟩

theorem bind_eq_ok_iff {m : Operation σ ε α} {f : α → Operation σ ε β} {s u : σ} {b : β} :
    (m >>= f) s = (.ok b, u) ↔ ∃ a t, m s = (.ok a, t) ∧ f a t = (.ok b, u) := by
  constructor
  · intro h
    rcases bind_cases h with ⟨e, -, he⟩ | h
    · cases he
    · exact h
  · rintro ⟨a, t, hm, hf⟩
    rw [bind_apply_ok hm, hf]

theorem mapError_apply_ok {ε' : Type} {f : ε → ε'} {m : Operation σ ε α} {s t : σ} {a : α} :
    mapError f m s = (.ok a, t) ↔ m s = (.ok a, t) := by
  rcases hm : m s with ⟨r, u⟩
  simp only [mapError, hm, Prod.mk.injEq]
  cases r with
  | error e =>
    constructor
    · rintro ⟨h, -⟩
      cases h
    · rintro ⟨h, -⟩
      cases h
  | ok b =>
    constructor
    · rintro ⟨h, rfl⟩
      cases h
      exact ⟨rfl, rfl⟩
    · rintro ⟨h, rfl⟩
      cases h
      exact ⟨rfl, rfl⟩

end Operation

end RatifyProtocol.Foundation
