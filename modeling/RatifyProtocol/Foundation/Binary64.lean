import Mathlib.Algebra.Group.Nat.Defs
import Mathlib.Tactic.Common
set_option autoImplicit false

/-!
# Foundation: binary64 arithmetic

The 64-bit binary format with the operations that are rounded exactly.  A finite
magnitude is a number of units, one unit being `2 ^ -1074`, the smallest positive
value; the exact result of an operation is a quotient of two numbers of units,
and it is rounded to the nearest magnitude, ties to the even significand.  Two
values are the same up to signed zero when they are equal or both zeros, and
every operation here keeps that relation.
-/

namespace RatifyProtocol.Foundation

/-- One is `2 ^ 1074` units. -/
def fractionBits : Nat := 1074

/-- The units of one. -/
@[irreducible] def unitsOfOne : Nat := 2 ^ fractionBits

/-- The first magnitude out of range: the units of `2 ^ 1024`. -/
@[irreducible] def unitLimit : Nat := 2 ^ (1024 + fractionBits)

theorem unitLimit_pos : 0 < unitLimit := by
  unfold unitLimit
  exact Nat.two_pow_pos _

theorem two_pow_lt_unitLimit {p : Nat} (h : p < 1024 + fractionBits) : 2 ^ p < unitLimit := by
  unfold unitLimit
  exact Nat.pow_lt_pow_right Nat.one_lt_two h

/-- A number of units in range that a 53-bit significand spells. -/
def Representable (units : Nat) : Prop :=
  units < unitLimit ∧ ∃ m p, m ≤ 2 ^ 53 ∧ units = m * 2 ^ p

/-- A finite magnitude. -/
structure Magnitude where
  units : Nat
  representable : Representable units
  deriving DecidableEq

/-- A 64-bit float; the sign and payload of a NaN are not kept. -/
inductive Binary64 where
  | nan
  | infinite (negative : Bool)
  | finite (negative : Bool) (magnitude : Magnitude)
  deriving DecidableEq

/-! ## Rounding -/

/-- The exponent at which `n / d` units have at most 53 significant bits. -/
def roundingExponent (n d : Nat) : Nat := Nat.log2 (n / d) - 52

/-- The significand nearest to `n / d` units at that exponent, ties to even. -/
def roundedSignificand (n d : Nat) : Nat :=
  let step := d * 2 ^ roundingExponent n d
  let low := n / step
  let rest := n % step
  if step < 2 * rest ∨ (step = 2 * rest ∧ low % 2 = 1) then low + 1 else low

theorem roundedSignificand_le (n d : Nat) : roundedSignificand n d ≤ 2 ^ 53 := by
  have hlow : n / (d * 2 ^ roundingExponent n d) < 2 ^ 53 := by
    rw [← Nat.div_div_eq_div_mul]
    apply Nat.div_lt_of_lt_mul
    rw [← Nat.pow_add]
    calc n / d < 2 ^ (Nat.log2 (n / d) + 1) := Nat.lt_log2_self
      _ ≤ 2 ^ (roundingExponent n d + 53) := by
        apply Nat.pow_le_pow_right (by omega)
        unfold roundingExponent
        omega
  unfold roundedSignificand
  dsimp only
  split <;> omega

/-- `n / d` units rounded; `none` on overflow. -/
def roundUnits (n d : Nat) : Option Magnitude :=
  if h : roundedSignificand n d * 2 ^ roundingExponent n d < unitLimit then
    some ⟨_, h, _, _, roundedSignificand_le n d, rfl⟩
  else none

/-- Whole units that are not zero do not round to zero: underflow is gradual. -/
theorem roundedSignificand_pos {n : Nat} (h : 0 < n) : 0 < roundedSignificand n 1 := by
  have hstep : 2 ^ roundingExponent n 1 ≤ n := by
    calc 2 ^ roundingExponent n 1 ≤ 2 ^ Nat.log2 n := by
          apply Nat.pow_le_pow_right (by omega)
          simp [roundingExponent]
      _ ≤ n := Nat.log2_self_le (by omega)
  have hlow : 0 < n / (1 * 2 ^ roundingExponent n 1) := by
    rw [Nat.one_mul]
    exact Nat.div_pos hstep (Nat.two_pow_pos _)
  unfold roundedSignificand
  dsimp only
  split <;> omega

theorem roundUnits_pos {n : Nat} (h : 0 < n) {m : Magnitude} (hm : roundUnits n 1 = some m) :
    0 < m.units := by
  unfold roundUnits at hm
  split at hm
  · obtain rfl := Option.some.inj hm
    exact Nat.mul_pos (roundedSignificand_pos h) (Nat.two_pow_pos _)
  · cases hm

namespace Magnitude

def zero : Magnitude := ⟨0, unitLimit_pos, 0, 0, Nat.zero_le _, rfl⟩

/-- The significand `m` at the exponent `p - 1074`. -/
def ofSignificand (m p : Nat) (hm : m ≤ 2 ^ 53) (hp : 53 + p < 1024 + fractionBits) :
    Magnitude :=
  have hlt : m * 2 ^ p < unitLimit :=
    calc m * 2 ^ p ≤ 2 ^ 53 * 2 ^ p := Nat.mul_le_mul_right _ hm
      _ = 2 ^ (53 + p) := (Nat.pow_add 2 53 p).symm
      _ < unitLimit := two_pow_lt_unitLimit hp
  ⟨m * 2 ^ p, hlt, m, p, hm, rfl⟩

/-- A whole number of at most 53 bits. -/
def ofNat (n : Nat) (h : n ≤ 2 ^ 53) : Magnitude := ofSignificand n fractionBits h (by omega)

theorem ext {m n : Magnitude} (h : m.units = n.units) : m = n := by
  cases m
  cases n
  cases h
  rfl

end Magnitude

namespace Binary64

/-! ## Operations -/

def zero : Binary64 := finite false .zero

/-- A whole number of at most 53 bits. -/
def ofNat (n : Nat) (h : n ≤ 2 ^ 53) : Binary64 := finite false (.ofNat n h)

def isZero : Binary64 → Bool
  | finite _ m => m.units == 0
  | _ => false

/-- `f64::is_finite`. -/
def isFinite : Binary64 → Bool
  | finite _ _ => true
  | _ => false

/-- Units with their sign. -/
def signed (negative : Bool) (m : Magnitude) : Int := if negative then -m.units else m.units

/-- The value nearest to `n / d` units; an infinity on overflow. -/
def nearest (negative : Bool) (n d : Nat) : Binary64 :=
  match roundUnits n d with
  | some m => finite negative m
  | none => infinite negative

/-- The value nearest to `n` units with sign; `zero` when there are none. -/
def nearestSigned (zero : Binary64) (n : Int) : Binary64 :=
  if n = 0 then zero else nearest (decide (n < 0)) n.natAbs 1

protected def neg : Binary64 → Binary64
  | nan => nan
  | infinite s => infinite (!s)
  | finite s m => finite (!s) m

protected def add : Binary64 → Binary64 → Binary64
  | nan, _ | _, nan => nan
  | infinite s, infinite t => if s = t then infinite s else nan
  | infinite s, finite _ _ | finite _ _, infinite s => infinite s
  | finite s m, finite t n => nearestSigned (finite (s && t) .zero) (signed s m + signed t n)

protected def sub (x y : Binary64) : Binary64 := x.add y.neg

protected def mul : Binary64 → Binary64 → Binary64
  | nan, _ | _, nan => nan
  | infinite s, infinite t => infinite (s != t)
  | infinite s, finite t m | finite s m, infinite t =>
    if m.units = 0 then nan else infinite (s != t)
  | finite s m, finite t n => nearest (s != t) (m.units * n.units) unitsOfOne

protected def div : Binary64 → Binary64 → Binary64
  | nan, _ | _, nan => nan
  | infinite _, infinite _ => nan
  | infinite s, finite t _ => infinite (s != t)
  | finite s _, infinite t => finite (s != t) .zero
  | finite s m, finite t n =>
    if n.units = 0 then (if m.units = 0 then nan else infinite (s != t))
    else nearest (s != t) (m.units * unitsOfOne) n.units

/-- `<`, false whenever a NaN takes part. -/
protected def lt : Binary64 → Binary64 → Bool
  | nan, _ | _, nan => false
  | infinite s, infinite t => s && !t
  | infinite s, finite _ _ => s
  | finite _ _, infinite t => !t
  | finite s m, finite t n => decide (signed s m < signed t n)

/-- `==`, false whenever a NaN takes part; the zeros are equal. -/
protected def eq : Binary64 → Binary64 → Bool
  | infinite s, infinite t => s == t
  | finite s m, finite t n => decide (signed s m = signed t n)
  | _, _ => false

/-- `<=`. -/
protected def le (x y : Binary64) : Bool := x.lt y || x.eq y

/-- `f64::min`: a NaN is ignored. -/
protected def min (x y : Binary64) : Binary64 :=
  if x = nan then y else if y.lt x then y else x

/-! ## The same up to signed zero -/

/-- Equal, or both zeros. -/
inductive SameValue : Binary64 → Binary64 → Prop
  | refl (x : Binary64) : SameValue x x
  | zeros {x y : Binary64} (hx : x.isZero) (hy : y.isZero) : SameValue x y

theorem isZero_iff {x : Binary64} : x.isZero = true ↔ ∃ s, x = finite s .zero := by
  constructor
  · intro h
    cases x with
    | nan => cases h
    | infinite s => cases h
    | finite s m =>
      have hunits : m.units = 0 := by simpa [isZero] using h
      exact ⟨s, congrArg _ (Magnitude.ext hunits)⟩
  · rintro ⟨s, rfl⟩
    rfl

namespace SameValue

variable {x y x' y' : Binary64}

theorem trans {z : Binary64} (hxy : SameValue x y) (hyz : SameValue y z) : SameValue x z := by
  cases hxy with
  | refl => exact hyz
  | zeros hx hy =>
    cases hyz with
    | refl => exact zeros hx hy
    | zeros _ hz => exact zeros hx hz

/-- A zero may change its sign. -/
theorem zero (s t : Bool) : SameValue (finite s .zero) (finite t .zero) := zeros rfl rfl

/-- What a function of one value has to keep: the result on the two zeros. -/
theorem map {f : Binary64 → Binary64}
    (hf : ∀ s t, SameValue (f (finite s .zero)) (f (finite t .zero))) (h : SameValue x y) :
    SameValue (f x) (f y) := by
  cases h with
  | refl => exact refl _
  | zeros hx hy =>
    obtain ⟨s, rfl⟩ := isZero_iff.mp hx
    obtain ⟨t, rfl⟩ := isZero_iff.mp hy
    exact hf s t

/-- The same of a function into any type. -/
theorem apply {α : Type} {f : Binary64 → α}
    (hf : ∀ s t, f (finite s .zero) = f (finite t .zero)) (h : SameValue x y) : f x = f y := by
  cases h with
  | refl => rfl
  | zeros hx hy =>
    obtain ⟨s, rfl⟩ := isZero_iff.mp hx
    obtain ⟨t, rfl⟩ := isZero_iff.mp hy
    exact hf s t

@[simp] theorem signed_zero (s : Bool) : signed s .zero = 0 := by
  cases s <;> rfl

theorem neg (h : SameValue x y) : SameValue x.neg y.neg := h.map fun _ _ => zero _ _

theorem nearestSigned {x y : Binary64} (h : SameValue x y) (n : Int) :
    SameValue (nearestSigned x n) (nearestSigned y n) := by
  unfold Binary64.nearestSigned
  split
  · exact h
  · exact refl _

theorem add_left (h : SameValue x x') : SameValue (x.add y) (x'.add y) := by
  apply h.map (f := (·.add y))
  intro s t
  cases y with
  | nan => exact refl _
  | infinite u => exact refl _
  | finite u m =>
    simp only [Binary64.add, signed_zero]
    exact (zero _ _).nearestSigned _

theorem add_right (h : SameValue y y') : SameValue (x.add y) (x.add y') := by
  apply h.map (f := x.add)
  intro s t
  cases x with
  | nan => exact refl _
  | infinite u => exact refl _
  | finite u m =>
    simp only [Binary64.add, signed_zero]
    exact (zero _ _).nearestSigned _

theorem add (hx : SameValue x x') (hy : SameValue y y') : SameValue (x.add y) (x'.add y') :=
  hx.add_left.trans hy.add_right

theorem sub (hx : SameValue x x') (hy : SameValue y y') : SameValue (x.sub y) (x'.sub y') :=
  hx.add hy.neg

theorem nearest_zero (s t : Bool) (d : Nat) : SameValue (nearest s 0 d) (nearest t 0 d) := by
  have hsignificand : roundedSignificand 0 d * 2 ^ roundingExponent 0 d = 0 := by
    simp only [roundedSignificand, Nat.zero_div, Nat.zero_mod]
    simp
  have hzero : roundUnits 0 d = some .zero := by
    unfold roundUnits
    rw [dif_pos (by rw [hsignificand]; exact unitLimit_pos)]
    exact congrArg some (Magnitude.ext hsignificand)
  simp only [nearest, hzero]
  exact zero s t

theorem mul_left (h : SameValue x x') : SameValue (x.mul y) (x'.mul y) := by
  apply h.map (f := (·.mul y))
  intro s t
  cases y with
  | nan => exact refl _
  | infinite u => exact refl _
  | finite u m =>
    simp only [Binary64.mul, Magnitude.zero, Nat.zero_mul]
    exact nearest_zero _ _ _

theorem mul_right (h : SameValue y y') : SameValue (x.mul y) (x.mul y') := by
  apply h.map (f := x.mul)
  intro s t
  cases x with
  | nan => exact refl _
  | infinite u => exact refl _
  | finite u m =>
    simp only [Binary64.mul, Magnitude.zero, Nat.mul_zero]
    exact nearest_zero _ _ _

theorem mul (hx : SameValue x x') (hy : SameValue y y') : SameValue (x.mul y) (x'.mul y') :=
  hx.mul_left.trans hy.mul_right

/-- A quotient keeps the relation where the divisor is not a zero. -/
theorem div (hx : SameValue x x') (hy : SameValue y y') (hne : y.isZero = false) :
    SameValue (x.div y) (x'.div y') := by
  cases hy with
  | zeros hzero => exact absurd hzero (by simp [hne])
  | refl =>
    apply hx.map (f := (·.div y))
    intro s t
    cases y with
    | nan => exact refl _
    | infinite u => exact zero _ _
    | finite u m =>
      have hm : m.units ≠ 0 := by simpa [isZero] using hne
      simp only [Binary64.div, if_neg hm, Magnitude.zero, Nat.zero_mul]
      exact nearest_zero _ _ _

theorem lt (hx : SameValue x x') (hy : SameValue y y') : x.lt y = x'.lt y' := by
  have hleft : x.lt y = x'.lt y := by
    apply hx.apply (f := (·.lt y))
    intro s t
    cases y <;> simp [Binary64.lt]
  have hright : x'.lt y = x'.lt y' := by
    apply hy.apply (f := x'.lt)
    intro s t
    cases x' <;> simp [Binary64.lt]
  exact hleft.trans hright

theorem eq (hx : SameValue x x') (hy : SameValue y y') : x.eq y = x'.eq y' := by
  have hleft : x.eq y = x'.eq y := by
    apply hx.apply (f := (·.eq y))
    intro s t
    cases y <;> simp [Binary64.eq]
  have hright : x'.eq y = x'.eq y' := by
    apply hy.apply (f := x'.eq)
    intro s t
    cases x' <;> simp [Binary64.eq]
  exact hleft.trans hright

theorem le (hx : SameValue x x') (hy : SameValue y y') : x.le y = x'.le y' := by
  unfold Binary64.le
  rw [hx.lt hy, hx.eq hy]

theorem nan_iff (h : SameValue x y) : x = nan ↔ y = nan := by
  apply Eq.to_iff
  apply h.apply (f := (· = nan))
  intro s t
  simp

theorem min (hx : SameValue x x') (hy : SameValue y y') : SameValue (x.min y) (x'.min y') := by
  unfold Binary64.min
  rw [hy.lt hx]
  simp only [hx.nan_iff]
  split
  · exact hy
  · split
    · exact hy
    · exact hx

end SameValue

/-- Values that compare differ by more than a zero. -/
theorem isZero_sub_of_lt {x y : Binary64} (h : x.lt y = true ∨ y.lt x = true) :
    (x.sub y).isZero = false := by
  cases x with
  | nan => cases y <;> rfl
  | infinite s =>
    cases y with
    | nan => rfl
    | infinite t => cases s <;> cases t <;> rfl
    | finite t n => rfl
  | finite s m =>
    cases y with
    | nan => rfl
    | infinite t => rfl
    | finite t n =>
      have hneg : signed (!t) n = -signed t n := by
        cases t <;> simp [signed]
      have hne : signed s m + signed (!t) n ≠ 0 := by
        simp only [Binary64.lt, decide_eq_true_eq] at h
        omega
      simp only [Binary64.sub, Binary64.neg, Binary64.add, nearestSigned, if_neg hne, nearest]
      split
      · rename_i r hr
        have hpos := roundUnits_pos (by omega) hr
        simp only [isZero, beq_eq_false_iff_ne]
        omega
      · rfl

/-- Values whose difference is a zero compare alike with every value. -/
theorem lt_eq_of_isZero_sub {x y : Binary64} (h : (x.sub y).isZero = true) (z : Binary64) :
    z.lt x = z.lt y := by
  have hxy : ¬ (x.lt y = true ∨ y.lt x = true) := by
    intro hlt
    rw [isZero_sub_of_lt hlt] at h
    cases h
  cases x with
  | nan => cases h
  | infinite s =>
    cases y with
    | nan => cases h
    | infinite t => cases s <;> cases t <;> cases h
    | finite t n => cases h
  | finite s m =>
    cases y with
    | nan => cases h
    | infinite t => cases h
    | finite t n =>
      -- Neither value is less, so the numbers of units agree.
      have hunits : signed s m = signed t n := by
        simp only [Binary64.lt, decide_eq_true_eq] at hxy
        omega
      cases z <;> simp only [Binary64.lt, hunits]

theorem isZero_ofNat {n : Nat} (h : n ≤ 2 ^ 53) (hn : n ≠ 0) : (ofNat n h).isZero = false := by
  have hunits : n * 2 ^ fractionBits ≠ 0 := Nat.mul_ne_zero hn (Nat.ne_of_gt (Nat.two_pow_pos _))
  simpa only [isZero, ofNat, Magnitude.ofNat, Magnitude.ofSignificand, beq_eq_false_iff_ne]
    using hunits

end Binary64

end RatifyProtocol.Foundation
