import Mathlib.Tactic.Common
set_option autoImplicit false

/-!
# Foundation: dialogues with an environment

A dialogue asks its environment questions, each with answers of its own type, and may end
early.  `Meets` says of what has been asked and answered so far what a dialogue may ask next
and how it may end, whatever it is answered; the rules take a composition apart, so that this
is proved part by part and read off every run.
-/

namespace RatifyProtocol.Foundation

/-- A computation that asks questions of type `ι`, where `ρ i` answers `i`; it ends early with
an `ε` or goes on with an `α`. -/
inductive Dialogue {ι : Type} (ρ : ι → Type) (ε α : Type) where
  | pass (a : α)
  | stop (e : ε)
  | ask (i : ι) (next : ρ i → Dialogue ρ ε α)

namespace Dialogue

variable {ι : Type} {ρ : ι → Type} {ε α β : Type}

/-- A dialogue, and another one after it. -/
def andThen : Dialogue ρ ε α → (α → Dialogue ρ ε β) → Dialogue ρ ε β
  | pass a, f => f a
  | stop e, _ => stop e
  | ask i next, f => ask i fun r => (next r).andThen f

instance : Monad (Dialogue ρ ε) where
  pure := pass
  bind := andThen

/-- One question. -/
def question (i : ι) : Dialogue ρ ε (ρ i) := ask i pass

/-- End early where there is no result. -/
def orStop {δ : Type} (f : δ → ε) : Except δ α → Dialogue ρ ε α
  | .ok a => pass a
  | .error d => stop (f d)

/-- How a dialogue ends when its environment answers by what it was asked before. -/
def run (env : List (Sigma ρ) → (i : ι) → ρ i) : Dialogue ρ ε α → List (Sigma ρ) →
    List (Sigma ρ) × Except ε α
  | pass a, log => (log, .ok a)
  | stop e, log => (log, .error e)
  | ask i next, log => (next (env log i)).run env (log ++ [⟨i, env log i⟩])

/-! ## What holds whatever is answered -/

variable (asks : List (Sigma ρ) → ι → Prop) (ends : List (Sigma ρ) → ε → Prop)

/-- After `log`, a dialogue asks only what `asks` admits, stops only where `ends` admits it
and passes only with `post`. -/
def Meets : Dialogue ρ ε α → List (Sigma ρ) → (List (Sigma ρ) → α → Prop) → Prop
  | pass a, log, post => post log a
  | stop e, log, _ => ends log e
  | ask i next, log, post => asks log i ∧ ∀ r, Meets (next r) (log ++ [⟨i, r⟩]) post

variable {asks ends} {d : Dialogue ρ ε α} {f : α → Dialogue ρ ε β} {log : List (Sigma ρ)}
  {post post' : List (Sigma ρ) → α → Prop} {a : α} {e : ε} {i : ι}

@[simp] theorem meets_pass_iff : (pass a : Dialogue ρ ε α).Meets asks ends log post ↔ post log a :=
  Iff.rfl

@[simp] theorem meets_pure_iff :
    (pure a : Dialogue ρ ε α).Meets asks ends log post ↔ post log a := Iff.rfl

@[simp] theorem meets_stop_iff : (stop e : Dialogue ρ ε α).Meets asks ends log post ↔ ends log e :=
  Iff.rfl

@[simp] theorem meets_question_iff {post : List (Sigma ρ) → ρ i → Prop} :
    (question i : Dialogue ρ ε (ρ i)).Meets asks ends log post ↔
      asks log i ∧ ∀ r, post (log ++ [⟨i, r⟩]) r := Iff.rfl

theorem meets_orStop_iff {δ : Type} {g : δ → ε} {x : Except δ α} :
    (orStop g x : Dialogue ρ ε α).Meets asks ends log post ↔
      (∀ a, x = .ok a → post log a) ∧ ∀ d, x = .error d → ends log (g d) := by
  cases x <;> simp [orStop]

/-- A composition is met where its first part leads to what its second part needs. -/
@[simp] theorem meets_bind_iff {post : List (Sigma ρ) → β → Prop} :
    (d >>= f).Meets asks ends log post ↔
      d.Meets asks ends log fun log a => (f a).Meets asks ends log post := by
  show (d.andThen f).Meets asks ends log post ↔ _
  induction d generalizing log with
  | pass a => exact Iff.rfl
  | stop e => exact Iff.rfl
  | ask i next ih => exact and_congr_right fun _ => forall_congr' fun r => ih r

theorem Meets.mono (h : d.Meets asks ends log post) (hpost : ∀ log a, post log a → post' log a) :
    d.Meets asks ends log post' := by
  induction d generalizing log with
  | pass a => exact hpost log a h
  | stop e => exact h
  | ask i next ih => exact ⟨h.1, fun r => ih r (h.2 r)⟩

/-- A composition, part by part. -/
theorem Meets.andThen {post' : List (Sigma ρ) → β → Prop} (h : d.Meets asks ends log post)
    (hf : ∀ log a, post log a → (f a).Meets asks ends log post') :
    (d >>= f).Meets asks ends log post' := meets_bind_iff.mpr (h.mono hf)

/-- Whatever the environment is, every question of a run was due when it was asked, and the
run ends as it may. -/
theorem Meets.run (h : d.Meets asks ends log post) (env : List (Sigma ρ) → (i : ι) → ρ i) :
    ∃ rest, (d.run env log).1 = log ++ rest
      ∧ (∀ before q after, rest = before ++ q :: after → asks (log ++ before) q.1)
      ∧ (∀ a, (d.run env log).2 = .ok a → post (log ++ rest) a)
      ∧ ∀ e, (d.run env log).2 = .error e → ends (log ++ rest) e := by
  induction d generalizing log with
  | pass a =>
    refine ⟨[], (List.append_nil log).symm, by simp, ?_, ?_⟩
    · intro a' ha'
      obtain rfl := Except.ok.inj ha'
      rw [List.append_nil]
      exact h
    · intro e he
      cases he
  | stop e =>
    refine ⟨[], (List.append_nil log).symm, by simp, ?_, ?_⟩
    · intro a ha
      cases ha
    · intro e' he'
      obtain rfl := Except.error.inj he'
      rw [List.append_nil]
      exact h
  | ask i next ih =>
    obtain ⟨rest, hlog, hasks, hpost, hends⟩ := ih (env log i) (h.2 (env log i))
    rw [List.append_assoc] at hlog hpost hends
    refine ⟨⟨i, env log i⟩ :: rest, hlog, ?_, hpost, hends⟩
    intro before q after heq
    cases before with
    | nil =>
      obtain ⟨rfl, -⟩ := List.cons.inj heq
      rw [List.append_nil]
      exact h.1
    | cons first before =>
      obtain ⟨rfl, hrest⟩ := List.cons.inj heq
      simpa using hasks before q after hrest

/-! ## Environments -/

/-- Environments that answer alike from `log` on end a dialogue alike. -/
theorem run_congr {env env' : List (Sigma ρ) → (i : ι) → ρ i}
    (h : ∀ later i, env (log ++ later) i = env' (log ++ later) i) :
    d.run env log = d.run env' log := by
  induction d generalizing log with
  | pass a => rfl
  | stop e => rfl
  | ask i next ih =>
    have hnow := h [] i
    rw [List.append_nil] at hnow
    rw [run, run, ← hnow]
    refine ih _ fun later j => ?_
    rw [List.append_assoc]
    exact h _ j

/-- Where every question can be answered so that `holds` goes on, an environment does so. -/
theorem exists_run [∀ i, Nonempty (ρ i)] (holds : List (Sigma ρ) → Prop)
    (h : ∀ log i, holds log → ∃ r, holds (log ++ [⟨i, r⟩])) (d : Dialogue ρ ε α)
    (hlog : holds log) : ∃ env, holds (d.run env log).1 := by
  refine ⟨fun log i => Classical.epsilon fun r => holds (log ++ [⟨i, r⟩]), ?_⟩
  induction d generalizing log with
  | pass a => exact hlog
  | stop e => exact hlog
  | ask i next ih => exact ih _ (Classical.epsilon_spec (h log i hlog))

end Dialogue

end RatifyProtocol.Foundation
