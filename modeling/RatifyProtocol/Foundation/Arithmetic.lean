import Mathlib.Tactic.Common
set_option autoImplicit false

/-!
# Foundation: fixed-width arithmetic

A computation over machine integers, written once over an interface: every
arithmetic step hands its exact result to `Arith.fit` with the type that must
hold it, or to `Arith.turn` where the program wraps on purpose.  Read with
`wrapping`, both reduce modulo the width; read with `checked`, `fit` fails
unless the exact result fits; read with `strict`, `turn` fails too.  A result
proved of every `Lawful` reading holds of the wrapping program and says that no
checked step overflows.
-/

namespace RatifyProtocol.Foundation

/-- A fixed-width integer type. -/
inductive IntType where
  | u32
  | i64
  | u64
  deriving DecidableEq, Repr

namespace IntType

def min : IntType → Int
  | u32 => 0
  | i64 => -9223372036854775808
  | u64 => 0

def max : IntType → Int
  | u32 => 4294967295
  | i64 => 9223372036854775807
  | u64 => 18446744073709551615

/-- The number of values. -/
def width : IntType → Int
  | u32 => 4294967296
  | i64 => 18446744073709551616
  | u64 => 18446744073709551616

/-- The value is one of the type. -/
def Holds (ty : IntType) (n : Int) : Prop := ty.min ≤ n ∧ n ≤ ty.max

instance (ty : IntType) (n : Int) : Decidable (ty.Holds n) :=
  inferInstanceAs (Decidable (_ ∧ _))

/-- The value of the type that is congruent to `n` modulo the width. -/
def wrap (ty : IntType) (n : Int) : Int := (n - ty.min) % ty.width + ty.min

@[simp] theorem holds_u32 {n : Int} : u32.Holds n ↔ 0 ≤ n ∧ n ≤ 4294967295 := Iff.rfl

@[simp] theorem holds_i64 {n : Int} :
    i64.Holds n ↔ -9223372036854775808 ≤ n ∧ n ≤ 9223372036854775807 := Iff.rfl

@[simp] theorem holds_u64 {n : Int} : u64.Holds n ↔ 0 ≤ n ∧ n ≤ 18446744073709551615 := Iff.rfl

theorem wrap_i64 (n : Int) :
    i64.wrap n = (n + 9223372036854775808) % 18446744073709551616 - 9223372036854775808 := by
  simp only [wrap, width, min]
  omega

theorem wrap_u64 (n : Int) : u64.wrap n = n % 18446744073709551616 := by
  simp only [wrap, width, min]
  omega

theorem wrap_of_holds {ty : IntType} {n : Int} (h : ty.Holds n) : ty.wrap n = n := by
  cases ty with
  | u32 =>
    simp only [holds_u32] at h
    simp only [wrap, width, min]
    omega
  | i64 =>
    simp only [holds_i64] at h
    rw [wrap_i64]
    omega
  | u64 =>
    simp only [holds_u64] at h
    rw [wrap_u64]
    omega

theorem holds_wrap (ty : IntType) (n : Int) : ty.Holds (ty.wrap n) := by
  cases ty with
  | u32 =>
    simp only [holds_u32, wrap, width, min]
    omega
  | i64 =>
    simp only [holds_i64, wrap_i64]
    omega
  | u64 =>
    simp only [holds_u64, wrap_u64]
    omega

end IntType

/-- How the steps of a computation are read. -/
structure Arith (m : Type → Type) where
  /-- The exact result, and the type that must hold it. -/
  fit : IntType → Int → m Int
  /-- The exact result of a step that wraps on purpose. -/
  turn : IntType → Int → m Int

namespace Arith

/-- As the machine computes: every step reduces its result. -/
def wrapping : Arith Id := ⟨fun ty n => pure (ty.wrap n), fun ty n => pure (ty.wrap n)⟩

/-- Steps that must not overflow fail when they do. -/
def checked : Arith Option :=
  ⟨fun ty n => if ty.Holds n then some n else none, fun ty n => some (ty.wrap n)⟩

/-- Every step that overflows fails. -/
def strict : Arith Option :=
  ⟨fun ty n => if ty.Holds n then some n else none,
    fun ty n => if ty.Holds n then some n else none⟩

/-- A reading that computes what fits and wraps where the program does. -/
structure Lawful {m : Type → Type} [Monad m] (A : Arith m) : Prop where
  fit_of_holds : ∀ {ty : IntType} {n : Int}, ty.Holds n → A.fit ty n = pure n
  turn_eq : ∀ (ty : IntType) (n : Int), A.turn ty n = pure (ty.wrap n)

theorem lawful_wrapping : wrapping.Lawful where
  fit_of_holds := by
    intro ty n h
    exact IntType.wrap_of_holds h
  turn_eq _ _ := rfl

theorem lawful_checked : checked.Lawful where
  fit_of_holds := by
    intro ty n h
    exact if_pos h
  turn_eq _ _ := rfl

section Steps

variable {m : Type → Type} [Monad m] [LawfulMonad m] {A : Arith m}

/-- A step that fits continues with the exact result. -/
theorem Lawful.fit_bind {α : Type} (hA : A.Lawful) {ty : IntType} {n : Int} (h : ty.Holds n)
    (k : Int → m α) : A.fit ty n >>= k = k n := by
  rw [hA.fit_of_holds h, pure_bind]

theorem Lawful.turn_bind {α : Type} (hA : A.Lawful) (ty : IntType) (n : Int) (k : Int → m α) :
    A.turn ty n >>= k = k (ty.wrap n) := by
  rw [hA.turn_eq, pure_bind]

end Steps

end Arith

end RatifyProtocol.Foundation
