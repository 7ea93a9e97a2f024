import Mathlib.Tactic.Common
import RatifyProtocol.Foundation.Run
set_option autoImplicit false

/-!
# Foundation: clients of a shared service

A client computes on its own between calls of a service; a call is atomic and
the answer decides how the client goes on.  A `Pool` holds the state of the
service, the clients started so far and the history of all calls; a run starts
clients, lets any of them make its next call, or changes the service from
outside, in any order.
-/

namespace RatifyProtocol.Foundation

variable {σ κ ι ρ ε α β : Type}

/-- A computation that calls a service with `ι` and is answered with `ρ`. -/
inductive Interaction (ι ρ α : Type) where
  | ret (a : α)
  | call (i : ι) (next : ρ → Interaction ι ρ α)

/-- A computation that has the service to itself. -/
def Interaction.run (perform : σ → ι → σ × ρ) : Interaction ι ρ α → σ → σ × α
  | .ret a, s => (s, a)
  | .call i next, s => (next (perform s i).2).run perform (perform s i).1

/-- A computation whose every call gets one answer. -/
def Interaction.answered (p : Interaction ι ρ α) (r : ρ) : α := (p.run (fun u _ => (u, r)) ()).2

@[simp] theorem Interaction.answered_ret (a : α) (r : ρ) :
    (Interaction.ret a : Interaction ι ρ α).answered r = a := rfl

@[simp] theorem Interaction.answered_call (i : ι) (next : ρ → Interaction ι ρ α) (r : ρ) :
    (Interaction.call i next).answered r = (next r).answered r := rfl

/-- Stop with an early result, or go on with a value. -/
def Interaction.orElse (x : Except α β) (f : β → Interaction ι ρ α) : Interaction ι ρ α :=
  match x with
  | .error a => .ret a
  | .ok b => f b

/-- Every call the computation can make satisfies `p`. -/
def Interaction.Only (p : ι → Prop) : Interaction ι ρ α → Prop
  | .ret _ => True
  | .call i next => p i ∧ ∀ r, (next r).Only p

theorem Interaction.Only.orElse {p : ι → Prop} {x : Except α β} {f : β → Interaction ι ρ α}
    (h : ∀ b, (f b).Only p) : (Interaction.orElse x f).Only p := by
  cases x with
  | error a => trivial
  | ok b => exact h b

/-- Calls and answers that lead from one point of a computation to another. -/
inductive Interaction.Leads : Interaction ι ρ α → List (ι × ρ) → Interaction ι ρ α → Prop
  | nil (p : Interaction ι ρ α) : Leads p [] p
  | call {i : ι} {next : ρ → Interaction ι ρ α} {r : ρ} {log : List (ι × ρ)}
      {q : Interaction ι ρ α} (h : Leads (next r) log q) : Leads (.call i next) ((i, r) :: log) q

namespace Interaction.Leads

variable {p q : Interaction ι ρ α} {log : List (ι × ρ)} {i : ι} {next : ρ → Interaction ι ρ α}

theorem snoc (h : Leads p log (.call i next)) (r : ρ) : Leads p (log ++ [(i, r)]) (next r) := by
  generalize hq : Interaction.call i next = q at h
  induction h with
  | nil =>
    subst hq
    exact .call (.nil _)
  | call _ ih => exact .call (ih hq)

/-- A finished computation makes no calls. -/
theorem ret_iff {a : α} : Leads (.ret a) log q ↔ log = [] ∧ q = .ret a := by
  constructor
  · intro h
    cases h
    exact ⟨rfl, rfl⟩
  · rintro ⟨rfl, rfl⟩
    exact .nil _

/-- Before its first call, or after it. -/
theorem call_iff : Leads (.call i next) log q ↔
    (log = [] ∧ q = .call i next) ∨ ∃ r rest, log = (i, r) :: rest ∧ Leads (next r) rest q := by
  constructor
  · intro h
    cases h with
    | nil => exact .inl ⟨rfl, rfl⟩
    | call h => exact .inr ⟨_, _, rfl, h⟩
  · rintro (⟨rfl, rfl⟩ | ⟨r, rest, rfl, h⟩)
    · exact .nil _
    · exact .call h

/-- The calls of a log are calls the computation can make. -/
theorem only {pred : ι → Prop} (h : Leads p log q) (honly : p.Only pred) :
    ∀ entry ∈ log, pred entry.1 := by
  induction h with
  | nil => exact fun _ hmem => absurd hmem List.not_mem_nil
  | call _ ih =>
    intro entry hmem
    obtain rfl | hmem := List.mem_cons.mp hmem
    · exact honly.1
    · exact ih (honly.2 _) entry hmem

/-- Where an early result is possible, the computation stopped with it or went on. -/
theorem orElse_iff {x : Except α β} {f : β → Interaction ι ρ α} :
    Leads (.orElse x f) log q ↔
      (∃ a, x = .error a ∧ log = [] ∧ q = .ret a) ∨ ∃ b, x = .ok b ∧ Leads (f b) log q := by
  cases x with
  | error a =>
    simp only [Interaction.orElse, ret_iff, reduceCtorEq, false_and, exists_false, or_false,
      Except.error.injEq, exists_eq_left']
  | ok b =>
    simp only [Interaction.orElse, reduceCtorEq, false_and, exists_false, false_or,
      Except.ok.injEq, exists_eq_left']

end Interaction.Leads

/-- What a pool is made of: the computation of each client, the answers of the
service and what happens to it from outside. -/
structure Service (σ κ ι ρ ε α : Type) where
  program : κ → Interaction ι ρ α
  perform : σ → ι → σ × ρ
  outside : σ → ε → σ

/-- A call in the history: the client, the call and its answer. -/
structure Call (ι ρ : Type) where
  client : Nat
  request : ι
  answer : ρ

structure Pool (σ κ ι ρ α : Type) where
  shared : σ
  clients : List (κ × Interaction ι ρ α)
  history : List (Call ι ρ)

/-- What happens next: a client starts, a client makes its next call, or the
service changes from outside. -/
inductive Action (κ ε : Type) where
  | start (c : κ)
  | advance (n : Nat)
  | outside (e : ε)

namespace Pool

variable (S : Service σ κ ι ρ ε α)

/-- No client has started. -/
def init (shared : σ) : Pool σ κ ι ρ α := ⟨shared, [], []⟩

/-- The calls of a client with their answers. -/
def log (s : Pool σ κ ι ρ α) (n : Nat) : List (ι × ρ) :=
  s.history.filterMap fun c => if c.client = n then some (c.request, c.answer) else none

/-- The client `n` is `c` and has come to `p`. -/
def At (s : Pool σ κ ι ρ α) (n : Nat) (c : κ) (p : Interaction ι ρ α) : Prop :=
  s.clients[n]? = some (c, p)

inductive Step : Pool σ κ ι ρ α → Action κ ε → Pool σ κ ι ρ α → Prop
  | start (s : Pool σ κ ι ρ α) (c : κ) :
      Step s (.start c) { s with clients := s.clients ++ [(c, S.program c)] }
  | advance {s : Pool σ κ ι ρ α} {n : Nat} {c : κ} {i : ι} {next : ρ → Interaction ι ρ α}
      (h : s.At n c (.call i next)) :
      Step s (.advance n)
        { shared := (S.perform s.shared i).1
          clients := s.clients.set n (c, next (S.perform s.shared i).2)
          history := s.history ++ [⟨n, i, (S.perform s.shared i).2⟩] }
  | outside (s : Pool σ κ ι ρ α) (e : ε) :
      Step s (.outside e) { s with shared := S.outside s.shared e }

variable {S} {s t : Pool σ κ ι ρ α} {is : List (Action κ ε)} {shared : σ}

/-- A call with its answer and what the client does with it. -/
theorem Step.advance_to {n : Nat} {c : κ} {i : ι} {next : ρ → Interaction ι ρ α} {r : ρ}
    {q : Interaction ι ρ α} (hat : s.At n c (.call i next))
    (hperform : S.perform s.shared i = (shared, r)) (hnext : next r = q) :
    Step S s (.advance n) ⟨shared, s.clients.set n (c, q), s.history ++ [⟨n, i, r⟩]⟩ := by
  have hstep := Step.advance (S := S) hat
  rw [hperform, hnext] at hstep
  exact hstep

theorem log_append (s : Pool σ κ ι ρ α) (call : Call ι ρ) (shared' : σ)
    (clients' : List (κ × Interaction ι ρ α)) (n : Nat) :
    (Pool.mk shared' clients' (s.history ++ [call])).log n
      = if call.client = n then s.log n ++ [(call.request, call.answer)] else s.log n := by
  by_cases hn : call.client = n
  · simp [log, hn]
  · simp [log, hn]

/-- Only clients that have started make calls. -/
theorem client_lt (hrun : Run (Step S) (init shared) is s) :
    ∀ call ∈ s.history, call.client < s.clients.length := by
  apply Run.invariant (fun s : Pool σ κ ι ρ α => ∀ call ∈ s.history, call.client < s.clients.length)
    (by simp [init]) _ hrun
  intro s a s' hs hstep call hcall
  cases hstep with
  | start c =>
    have := hs call hcall
    rw [List.length_append]
    omega
  | advance h =>
    rw [List.length_set]
    rcases List.mem_append.mp hcall with hold | hnew
    · exact hs call hold
    · obtain rfl := List.mem_singleton.mp hnew
      exact (List.getElem?_eq_some_iff.mp h).1
  | outside e => exact hs call hcall

theorem log_of_length_le (hrun : Run (Step S) (init shared) is s) {n : Nat}
    (hn : s.clients.length ≤ n) : s.log n = [] := by
  rw [log, List.filterMap_eq_nil_iff]
  intro call hcall
  have hlt := client_lt hrun call hcall
  rw [if_neg (by omega)]

/-- Where a client is, its own calls and their answers have led it. -/
theorem leads (hrun : Run (Step S) (init shared) is s) {n : Nat} {c : κ}
    {p : Interaction ι ρ α} (hat : s.At n c p) : (S.program c).Leads (s.log n) p := by
  have key : ∀ n c p, s.At n c p → (S.program c).Leads (s.log n) p := by
    apply Run.history
      (fun _ s => ∀ n c p, s.At n c p → (S.program c).Leads (s.log n) p) (by simp [init, At]) _ hrun
    intro is s a s' hrun hs hstep n c p hat
    cases hstep with
    | start d =>
      by_cases hn : n < s.clients.length
      · have hold : s.clients[n]? = some (c, p) := by
          simpa only [At, List.getElem?_append_left hn] using hat
        exact hs n c p hold
      · have hnone := log_of_length_le hrun (Nat.le_of_not_lt hn)
        have hnew : (d, S.program d) = (c, p) := by
          simp only [At, List.getElem?_append_right (Nat.le_of_not_lt hn),
            List.getElem?_singleton] at hat
          split at hat
          · exact Option.some.inj hat
          · cases hat
        obtain ⟨rfl, rfl⟩ := Prod.mk.inj hnew
        exact hnone.symm ▸ .nil _
    | @advance m d i next h =>
      rw [log_append]
      by_cases hmn : m = n
      · subst hmn
        have hlt := (List.getElem?_eq_some_iff.mp h).1
        have hnew : (d, next (S.perform s.shared i).2) = (c, p) := by
          simpa only [At, List.getElem?_set_self hlt, Option.some.injEq] using hat
        obtain ⟨rfl, rfl⟩ := Prod.mk.inj hnew
        rw [if_pos rfl]
        exact (hs m d _ h).snoc _
      · rw [if_neg hmn]
        apply hs n c p
        simpa only [At, List.getElem?_set_ne hmn] using hat
    | outside e => exact hs n c p hat
  exact key n c p hat

/-- A call in the log of a client is in the history. -/
theorem mem_log_iff {n : Nat} {i : ι} {r : ρ} : (i, r) ∈ s.log n ↔ ⟨n, i, r⟩ ∈ s.history := by
  simp only [log, List.mem_filterMap]
  constructor
  · rintro ⟨call, hcall, heq⟩
    split at heq
    · rename_i hn
      obtain ⟨hi, hr⟩ := Prod.mk.inj (Option.some.inj heq)
      cases call
      cases hn
      cases hi
      cases hr
      exact hcall
    · cases heq
  · intro h
    exact ⟨_, h, if_pos rfl⟩

/-! ## What stays -/

/-- Calls are never taken back. -/
theorem history_prefix (hrun : Run (Step S) s is t) : s.history <+: t.history := by
  apply Run.invariant (fun t : Pool σ κ ι ρ α => s.history <+: t.history) (List.prefix_refl _) _ hrun
  intro t a u ht hstep
  cases hstep with
  | start c => exact ht
  | advance h => exact ht.trans (List.prefix_append _ _)
  | outside e => exact ht

/-- A client keeps its place. -/
theorem client_stays (hrun : Run (Step S) s is t) {n : Nat} {c : κ} {p : Interaction ι ρ α}
    (hat : s.At n c p) : ∃ q, t.At n c q := by
  apply Run.invariant (fun t : Pool σ κ ι ρ α => ∃ q, t.At n c q) ⟨p, hat⟩ _ hrun
  intro t a u ht hstep
  obtain ⟨q, hq⟩ := ht
  cases hstep with
  | start d =>
    have hlt := (List.getElem?_eq_some_iff.mp hq).1
    exact ⟨q, (List.getElem?_append_left hlt).trans hq⟩
  | @advance m d i next h =>
    by_cases hmn : m = n
    · subst hmn
      obtain ⟨rfl, -⟩ := Prod.mk.inj (Option.some.inj (hq.symm.trans h))
      exact ⟨_, List.getElem?_set_self (List.getElem?_eq_some_iff.mp h).1⟩
    · exact ⟨q, (List.getElem?_set_ne hmn).trans hq⟩
  | outside e => exact ⟨q, hq⟩

end Pool

end RatifyProtocol.Foundation
