import RatifyProtocol.Foundation.Binary64
import RatifyProtocol.V2.SameText
set_option autoImplicit false

/-!
# V1: floats and the platform under them

The arithmetic of `f64` is that of `Binary64`.  What the standard library and
the time zone crate add to it, the elementary functions, the decimal texts and
the local time of a zone, is the `Platform`; `Platform.Documented` states what
their documentation promises of signed zeros and of texts.
-/

namespace RatifyProtocol.V1

open Foundation
open V2 (encodeInt encodeInt_injective all_isDigit_toDigits)

/-- Hour and minute of a local time. -/
structure LocalClock where
  hour : Nat
  minute : Nat
  deriving DecidableEq

/-- What the code takes from the standard library and the time zone crate. -/
structure Platform where
  sin : Binary64 → Binary64
  cos : Binary64 → Binary64
  asin : Binary64 → Binary64
  sqrt : Binary64 → Binary64
  /-- `f64::powi`. -/
  powi : Binary64 → Int → Binary64
  /-- The text of `{}`. -/
  display : Binary64 → String
  /-- The text of `{:.n}`. -/
  fixed : Nat → Binary64 → String
  /-- A zone of the database; the local time at an instant, when it is a date. -/
  timeZone : String → Option (Int64 → Option LocalClock)

/-- The characters of a finite decimal text. -/
def decimalChar (c : Char) : Bool := c.isDigit || c == '.' || c == '-'

/-! ## Canonical numbers -/

/-- `n.fract() == 0.0` for a finite `n`. -/
def isWhole : Binary64 → Bool
  | .finite _ m => m.units % unitsOfOne == 0
  | _ => false

/-- `n as i64` for a finite `n` in range. -/
def asI64 : Binary64 → Int
  | .finite negative m =>
    if negative then -((m.units / unitsOfOne : Nat) : Int) else (m.units / unitsOfOne : Nat)
  | _ => 0

/-- `n.abs() < 1e15`. -/
def belowQuadrillion : Binary64 → Bool
  | .finite _ m => decide (m.units < 10 ^ 15 * unitsOfOne)
  | _ => false

variable (P : Platform)

/-- `encode_f64`: a whole number below `1e15` as an integer, any other as it
is displayed. -/
def encodeF64 (n : Binary64) : List Char :=
  if n.isFinite && isWhole n && belowQuadrillion n then encodeInt (asI64 n)
  else (P.display n).toList

/-- What is documented of the platform. -/
structure Platform.Documented : Prop where
  sin : ∀ s t, Binary64.SameValue (P.sin (.finite s .zero)) (P.sin (.finite t .zero))
  cos : ∀ s t, Binary64.SameValue (P.cos (.finite s .zero)) (P.cos (.finite t .zero))
  asin : ∀ s t, Binary64.SameValue (P.asin (.finite s .zero)) (P.asin (.finite t .zero))
  sqrt : ∀ s t, Binary64.SameValue (P.sqrt (.finite s .zero)) (P.sqrt (.finite t .zero))
  powi : ∀ s t, Binary64.SameValue (P.powi (.finite s .zero) 2) (P.powi (.finite t .zero) 2)
  /-- Finite values with one text are the same up to signed zero. -/
  display : ∀ x y : Binary64, x.isFinite → y.isFinite → P.display x = P.display y →
    Binary64.SameValue x y
  /-- A whole number below `1e15` is displayed as an integer. -/
  display_whole : ∀ x : Binary64, isWhole x → belowQuadrillion x → (x.isZero → x = .zero) →
    (P.display x).toList = encodeInt (asI64 x)
  display_decimal : ∀ x : Binary64, x.isFinite → (P.display x).toList.all decimalChar
  fixed_zero : ∀ n s, P.fixed n (.finite s .zero) ≠ "" ∧
    (P.fixed n (.finite s .zero)).toList.all decimalChar

theorem decimalChar_of_isDigit {c : Char} (h : c.isDigit = true) : decimalChar c = true := by
  simp [decimalChar, h]

theorem encodeInt_decimal (n : Int) : (encodeInt n).all decimalChar := by
  have hdigits : (Nat.toDigits 10 n.natAbs).all decimalChar := by
    rw [List.all_eq_true]
    intro c hc
    exact decimalChar_of_isDigit (all_isDigit_toDigits _ c hc)
  unfold encodeInt
  split
  · rw [List.all_cons, hdigits]
    rfl
  · exact hdigits

theorem unitsOfOne_pos : 0 < unitsOfOne := by
  unfold unitsOfOne
  exact Nat.two_pow_pos _

theorem natAbs_asI64 (s : Bool) (m : Magnitude) :
    (asI64 (.finite s m)).natAbs = m.units / unitsOfOne := by
  cases s
  · exact Int.natAbs_natCast _
  · exact (Int.natAbs_neg _).trans (Int.natAbs_natCast _)

/-- Whole values that truncate to one integer are the same up to signed zero. -/
theorem sameValue_of_asI64 {x y : Binary64} (hx : isWhole x = true) (hy : isWhole y = true)
    (h : asI64 x = asI64 y) : Binary64.SameValue x y := by
  cases x with
  | nan => cases hx
  | infinite s => cases hx
  | finite s m =>
    cases y with
    | nan => cases hy
    | infinite t => cases hy
    | finite t n =>
      have hm : m.units % unitsOfOne = 0 := by simpa [isWhole] using hx
      have hn : n.units % unitsOfOne = 0 := by simpa [isWhole] using hy
      have hquot : m.units / unitsOfOne = n.units / unitsOfOne := by
        rw [← natAbs_asI64 s m, ← natAbs_asI64 t n, h]
      have hunits : m.units = n.units := by
        rw [← Nat.div_add_mod m.units unitsOfOne, ← Nat.div_add_mod n.units unitsOfOne, hm, hn,
          hquot]
      obtain rfl := Magnitude.ext hunits
      by_cases hst : s = t
      · rw [hst]
        exact .refl _
      · -- Values with different signs truncate to one integer only if both are zeros.
        have hzero : m.units / unitsOfOne = 0 := by
          generalize hq : m.units / unitsOfOne = q
          cases s <;> cases t <;> simp [asI64, hq] at h hst <;> omega
        have hnone : m.units = 0 := by
          rw [← Nat.div_add_mod m.units unitsOfOne, hm, hzero, Nat.mul_zero]
        exact .zeros (by simp [Binary64.isZero, hnone]) (by simp [Binary64.isZero, hnone])

theorem isFinite_of_isWhole {x : Binary64} (h : isWhole x = true) : x.isFinite = true := by
  cases x with
  | nan => cases h
  | infinite s => cases h
  | finite s m => rfl

variable {P}

theorem encodeF64_decimal (hP : P.Documented) {x : Binary64} (hx : x.isFinite = true) :
    (encodeF64 P x).all decimalChar := by
  unfold encodeF64
  split
  · exact encodeInt_decimal _
  · exact hP.display_decimal x hx

/-- A value shown as an integer below `1e15` and one that is displayed differ. -/
theorem encodeInt_asI64_ne_display (hP : P.Documented) {x y : Binary64} (hx : isWhole x = true)
    (hbelow : belowQuadrillion x = true) (hfin : y.isFinite = true)
    (hy : ¬ (isWhole y = true ∧ belowQuadrillion y = true)) :
    encodeInt (asI64 x) ≠ (P.display y).toList := by
  intro h
  have hzeros : ∀ s, isWhole (.finite s .zero) = true
      ∧ belowQuadrillion (.finite s .zero) = true := by
    intro s
    refine ⟨by simp [isWhole, Magnitude.zero], ?_⟩
    rw [belowQuadrillion, decide_eq_true_eq]
    exact Nat.mul_pos (by decide) unitsOfOne_pos
  -- The integer text is also how `x`, with a zero taken as positive, is displayed.
  have key : ∀ z : Binary64, isWhole z = true → belowQuadrillion z = true →
      (z.isZero = true → z = .zero) → asI64 z = asI64 x → False := by
    intro z hz hzbelow hpos hto
    have htext : P.display z = P.display y :=
      String.toList_injective ((hP.display_whole z hz hzbelow hpos).trans (hto ▸ h))
    cases hP.display z y (isFinite_of_isWhole hz) hfin htext with
    | refl => exact hy ⟨hz, hzbelow⟩
    | zeros _ hyz =>
      obtain ⟨s, rfl⟩ := Binary64.isZero_iff.mp hyz
      exact hy (hzeros s)
  by_cases hz : x.isZero = true
  · obtain ⟨s, rfl⟩ := Binary64.isZero_iff.mp hz
    exact key .zero (hzeros false).1 (hzeros false).2 (fun _ => rfl)
      (by cases s <;> simp [asI64, Binary64.zero, Magnitude.zero])
  · exact key x hx hbelow (fun h' => absurd h' hz) rfl

/-- Finite values with one canonical text are the same up to signed zero. -/
theorem sameValue_of_encodeF64 (hP : P.Documented) {x y : Binary64} (hx : x.isFinite = true)
    (hy : y.isFinite = true) (h : encodeF64 P x = encodeF64 P y) : Binary64.SameValue x y := by
  simp only [encodeF64, hx, hy, Bool.true_and, Bool.and_eq_true] at h
  split at h
  · rename_i hsmall
    split at h
    · rename_i hsmall'
      exact sameValue_of_asI64 hsmall.1 hsmall'.1 (encodeInt_injective h)
    · rename_i hlarge
      exact absurd h (encodeInt_asI64_ne_display hP hsmall.1 hsmall.2 hy hlarge)
  · rename_i hlarge
    split at h
    · rename_i hsmall
      exact absurd h.symm (encodeInt_asI64_ne_display hP hsmall.1 hsmall.2 hx hlarge)
    · exact hP.display x y hx hy (String.toList_injective h)

/-! ## A platform -/

/-- A plain decimal text: a whole number as an integer, any other value as its
units with a point behind them. -/
def plainText : Binary64 → List Char
  | .nan => "NaN".toList
  | .infinite s => if s then "-inf".toList else "inf".toList
  | .finite s m =>
    if isWhole (.finite s m) then encodeInt (asI64 (.finite s m))
    else encodeInt (Binary64.signed s m) ++ ['.']

/-- A platform with plain texts, no zones, and functions that do nothing. -/
def plainPlatform : Platform :=
  { sin := id, cos := id, asin := id, sqrt := id, powi := fun x _ => x
    display := fun x => String.ofList (plainText x), fixed := fun _ _ => "0"
    timeZone := fun _ => none }

theorem plainText_decimal {x : Binary64} (hx : x.isFinite = true) :
    (plainText x).all decimalChar := by
  cases x with
  | nan => cases hx
  | infinite s => cases hx
  | finite s m =>
    rw [plainText]
    split
    · exact encodeInt_decimal _
    · rw [List.all_append, encodeInt_decimal]
      rfl

theorem sameValue_of_plainText {x y : Binary64} (hx : x.isFinite = true) (hy : y.isFinite = true)
    (h : plainText x = plainText y) : Binary64.SameValue x y := by
  -- No integer ends with a point.
  have hpoint : ∀ m n : Int, encodeInt m ≠ encodeInt n ++ ['.'] := by
    intro m n heq
    have hmem : '.' ∈ encodeInt m := by
      rw [heq]
      exact List.mem_append_right _ (List.mem_singleton_self _)
    unfold encodeInt at hmem
    split at hmem
    · obtain hsign | hdigit := List.mem_cons.mp hmem
      · exact absurd hsign (by decide)
      · exact absurd (all_isDigit_toDigits _ _ hdigit) (by decide)
    · exact absurd (all_isDigit_toDigits _ _ hmem) (by decide)
  cases x with
  | nan => cases hx
  | infinite s => cases hx
  | finite s m =>
    cases y with
    | nan => cases hy
    | infinite t => cases hy
    | finite t n =>
      rw [plainText, plainText] at h
      split at h
      · rename_i hwhole
        split at h
        · rename_i hwhole'
          exact sameValue_of_asI64 hwhole hwhole' (encodeInt_injective h)
        · exact absurd h (hpoint _ _)
      · split at h
        · exact absurd h.symm (hpoint _ _)
        · have hunits := encodeInt_injective (List.append_cancel_right h)
          have hmagnitude : m.units = n.units := by
            unfold Binary64.signed at hunits
            split at hunits <;> split at hunits <;> omega
          obtain rfl := Magnitude.ext hmagnitude
          by_cases hzero : m.units = 0
          · exact .zeros (by simp [Binary64.isZero, hzero]) (by simp [Binary64.isZero, hzero])
          · have hsign : s = t := by
              unfold Binary64.signed at hunits
              cases s <;> cases t <;> simp at hunits ⊢ <;> omega
            rw [hsign]
            exact .refl _

theorem plainPlatform_documented : plainPlatform.Documented where
  sin := .zero
  cos := .zero
  asin := .zero
  sqrt := .zero
  powi := .zero
  display x y hx hy h := sameValue_of_plainText hx hy (String.ofList_injective h)
  display_whole x hx _ _ := by
    cases x with
    | nan => cases hx
    | infinite s => cases hx
    | finite s m => rw [plainPlatform, String.toList_ofList, plainText, if_pos hx]
  display_decimal x hx := by
    rw [plainPlatform, String.toList_ofList]
    exact plainText_decimal hx
  fixed_zero _ _ := ⟨show "0" ≠ "" by decide, show "0".toList.all decimalChar by decide⟩

end RatifyProtocol.V1
