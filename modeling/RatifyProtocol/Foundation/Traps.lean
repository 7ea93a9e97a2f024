import Mathlib.Data.List.Basic
import RatifyProtocol.Foundation.Arithmetic
import RatifyProtocol.Foundation.Text
set_option autoImplicit false

/-!
# Foundation: programs that may trap

Beside an overflow, a step may trap because an index is outside its table or a
divisor is zero.  A `Machine` reads such steps too: the program states what a
step needs (`demand`) and `checked` fails where it does not hold.  `Returns` is
total correctness for these programs, with one rule for each kind of step.
Nothing here names a particular program.
-/

namespace RatifyProtocol.Foundation

/-- How the steps of a program that may trap are read. -/
structure Machine (m : Type → Type) extends Arith m where
  /-- The type of lengths and indices. -/
  usize : IntType
  /-- What the next step needs. -/
  demand : Bool → m Unit

namespace Machine

/-- Every overflow and every unmet demand fails. -/
def checked (usize : IntType) : Machine Option where
  toArith := .checked
  usize
  demand needed := if needed then some () else none

section Steps

variable {m : Type → Type} [Monad m] (M : Machine m)

/-- `a / b`, which traps at a divisor of zero. -/
def quot (ty : IntType) (a b : Int) : m Int := do
  M.demand (b != 0)
  M.fit ty (a.tdiv b)

/-- `a % b`, which traps where the quotient does. -/
def rem (ty : IntType) (a b : Int) : m Int := do
  M.demand (b != 0)
  let _ ← M.fit ty (a.tdiv b)
  pure (a.tmod b)

/-- `split_at`, which traps at an index past the end. -/
def splitAt (s : Bytes) (i : Nat) : m (Bytes × Bytes) := do
  M.demand (decide (i ≤ s.length))
  pure (s.take i, s.drop i)

/-- An index that is a sum of indices. -/
def index (n : Nat) : m Nat := do
  let i ← M.fit M.usize n
  pure i.toNat

/-- A reading of a machine with 32-bit or 64-bit addresses on which a step that
is in order computes its exact result. -/
structure Lawful : Prop extends Arith.Lawful M.toArith where
  usize : M.usize = .u32 ∨ M.usize = .u64
  demand_true : M.demand true = pure ()

/-- The bytes fit in memory: an allocation takes at most half of the addresses. -/
def Addressable (s : Bytes) : Prop := (s.length : Int) ≤ M.usize.max / 2

end Steps

theorem lawful_checked {usize : IntType} (h : usize = .u32 ∨ usize = .u64) :
    (checked usize).Lawful where
  toLawful := Arith.lawful_checked
  usize := h
  demand_true := rfl

namespace Lawful

variable {m : Type → Type} [Monad m] [LawfulMonad m] {M : Machine m}

theorem quot_eq (hM : M.Lawful) {ty : IntType} {a b : Int} (hb : b ≠ 0)
    (h : ty.Holds (a.tdiv b)) : M.quot ty a b = pure (a.tdiv b) := by
  have hne : (b != 0) = true := by simpa using hb
  rw [quot, hne, hM.demand_true, pure_bind, hM.fit_of_holds h]

theorem rem_eq (hM : M.Lawful) {ty : IntType} {a b : Int} (hb : b ≠ 0)
    (h : ty.Holds (a.tdiv b)) : M.rem ty a b = pure (a.tmod b) := by
  have hne : (b != 0) = true := by simpa using hb
  rw [rem, hne, hM.demand_true, pure_bind, hM.fit_of_holds h, pure_bind]

theorem splitAt_eq (hM : M.Lawful) {s : Bytes} {i : Nat} (h : i ≤ s.length) :
    M.splitAt s i = pure (s.take i, s.drop i) := by
  rw [splitAt, decide_eq_true h, hM.demand_true, pure_bind]

end Lawful

section Indices

variable {m : Type → Type} [Monad m] {M : Machine m}

/-- Numbers somewhat beyond the length of a buffer are still indices. -/
theorem Lawful.holds_usize (hM : M.Lawful) {n : Int} (h₀ : 0 ≤ n)
    (h : n ≤ M.usize.max / 2 + 2147483647) : M.usize.Holds n := by
  rcases hM.usize with hu | hu <;> rw [hu] at h ⊢ <;> simp only [IntType.max] at h
  · rw [IntType.holds_u32]
    omega
  · rw [IntType.holds_u64]
    omega

omit [Monad m] in
/-- A part of what fits in memory fits in memory. -/
theorem Addressable.of_le {s t : Bytes} (hs : M.Addressable s) (h : t.length ≤ s.length) :
    M.Addressable t := by
  unfold Machine.Addressable at hs ⊢
  omega

theorem Addressable.holds {s : Bytes} (hs : M.Addressable s) (hM : M.Lawful) {n : Nat}
    (h : n ≤ s.length + 2147483647) : M.usize.Holds n := by
  unfold Machine.Addressable at hs
  exact hM.holds_usize (by omega) (by omega)

theorem Addressable.index_eq [LawfulMonad m] {s : Bytes} (hs : M.Addressable s) (hM : M.Lawful)
    {n : Nat} (h : n ≤ s.length + 2147483647) : M.index n = pure n := by
  rw [index, hM.fit_bind (hs.holds hM h), Int.toNat_natCast]

end Indices

end Machine

/-! ## Early returns -/

section Try

variable {m : Type → Type} [Monad m] {α β ε : Type}

/-- `?` on an optional value. -/
def tryOption (x : m (Option α)) (k : α → m (Option β)) : m (Option β) := do
  match ← x with
  | none => pure none
  | some a => k a

/-- `?` on a result. -/
def tryResult (x : m (Except ε α)) (k : α → m (Except ε β)) : m (Except ε β) := do
  match ← x with
  | .error e => pure (.error e)
  | .ok a => k a

variable [LawfulMonad m]

theorem tryOption_eq {x : m (Option α)} {o : Option α} {k : α → m (Option β)}
    {g : α → Option β} (hx : x = pure o) (hk : ∀ a, o = some a → k a = pure (g a)) :
    tryOption x k = pure (o >>= g) := by
  rw [tryOption, hx, pure_bind]
  cases o with
  | none => rfl
  | some a => exact hk a rfl

theorem tryResult_eq {x : m (Except ε α)} {r : Except ε α} {k : α → m (Except ε β)}
    {g : α → Except ε β} (hx : x = pure r) (hk : ∀ a, r = .ok a → k a = pure (g a)) :
    tryResult x k = pure (r >>= g) := by
  rw [tryResult, hx, pure_bind]
  cases r with
  | error e => rfl
  | ok a => exact hk a rfl

end Try

/-! ## Total correctness -/

section Returns

variable {m : Type → Type} [Monad m] {α β ε : Type}

/-- The program returns, without a trap, a value that satisfies `p`. -/
def Returns (x : m α) (p : α → Prop) : Prop := ∃ a, x = pure a ∧ p a

variable {p : α → Prop} {q : β → Prop}

theorem Returns.pure {a : α} (h : p a) : Returns (Pure.pure a : m α) p := ⟨a, rfl, h⟩

theorem Returns.mono {x : m α} {p' : α → Prop} (h : Returns x p) (himp : ∀ a, p a → p' a) :
    Returns x p' := by
  obtain ⟨a, ha, hp⟩ := h
  exact ⟨a, ha, himp a hp⟩

variable [LawfulMonad m]

/-- A step that fits goes on with the exact result. -/
theorem Returns.fit {A : Arith m} (hA : A.Lawful) {ty : IntType} {n : Int} {k : Int → m β}
    (h : ty.Holds n) (hk : Returns (k n) q) : Returns (A.fit ty n >>= k) q := by
  rw [hA.fit_bind h]
  exact hk

/-- `?` returns early with the error, or goes on. -/
theorem Returns.tryResult {x : m (Except ε α)} {k : α → m (Except ε β)}
    {q : Except ε β → Prop} (h : Returns x fun r => ∀ a, r = .ok a → p a)
    (herr : ∀ e, q (.error e)) (hk : ∀ a, p a → Returns (k a) q) :
    Returns (tryResult x k) q := by
  obtain ⟨r, rfl, hp⟩ := h
  rw [Foundation.tryResult, pure_bind]
  cases r with
  | error e => exact .pure (herr e)
  | ok a => exact hk a (hp a rfl)

end Returns

end RatifyProtocol.Foundation
