import RatifyProtocol.Foundation.Text
set_option autoImplicit false

/-!
# Foundation: standard base64

The standard alphabet with mandatory padding.  `decode` is strict: it refuses
missing padding, characters outside the alphabet and padding bits that are not
zero, so every byte string has exactly one accepted spelling.
-/

namespace RatifyProtocol.Foundation.Base64

/-- The alphabet character of a six-bit value. -/
def digit (n : Nat) : Char :=
  if n < 26 then Char.ofNat (65 + n)
  else if n < 52 then Char.ofNat (71 + n)
  else if n < 62 then Char.ofNat (n - 4)
  else if n = 62 then '+'
  else '/'

/-- The six-bit value of an alphabet character. -/
def value? (c : Char) : Option Nat :=
  if 'A' ≤ c ∧ c ≤ 'Z' then some (c.toNat - 65)
  else if 'a' ≤ c ∧ c ≤ 'z' then some (c.toNat - 71)
  else if '0' ≤ c ∧ c ≤ '9' then some (c.toNat + 4)
  else if c = '+' then some 62
  else if c = '/' then some 63
  else none

/-- Standard base64 encoding, padded to a multiple of four characters. -/
def encodeChars : Bytes → List Char
  | [] => []
  | [a] =>
      [digit (a.toNat / 4), digit (a.toNat % 4 * 16), '=', '=']
  | [a, b] =>
      [digit (a.toNat / 4), digit (a.toNat % 4 * 16 + b.toNat / 16),
        digit (b.toNat % 16 * 4), '=']
  | a :: b :: c :: rest =>
      digit (a.toNat / 4) :: digit (a.toNat % 4 * 16 + b.toNat / 16) ::
        digit (b.toNat % 16 * 4 + c.toNat / 64) :: digit (c.toNat % 64) ::
          encodeChars rest

/-- The bytes of a final group with its padding, whose unused bits are zero. -/
def decodeFinal (w x : Char) (y? : Option Char) : Option Bytes := do
  let w ← value? w
  let x ← value? x
  match y? with
  | none => if x % 16 = 0 then some [UInt8.ofNat (w * 4 + x / 16)] else none
  | some y =>
    let y ← value? y
    if y % 4 = 0 then
      some [UInt8.ofNat (w * 4 + x / 16), UInt8.ofNat (x % 16 * 16 + y / 4)]
    else none

/-- Strict standard base64 decoding. -/
def decodeChars : List Char → Option Bytes
  | [] => some []
  | w :: x :: y :: z :: rest =>
    if z = '=' then
      if rest = [] then decodeFinal w x (if y = '=' then none else some y) else none
    else do
      let w ← value? w
      let x ← value? x
      let y ← value? y
      let z ← value? z
      let tail ← decodeChars rest
      some (UInt8.ofNat (w * 4 + x / 16) :: UInt8.ofNat (x % 16 * 16 + y / 4) ::
        UInt8.ofNat (y % 4 * 64 + z) :: tail)
  | _ => none

/-! ## Decoding undoes encoding -/

theorem value?_digit {n : Nat} (h : n < 64) : value? (digit n) = some n := by
  have key : ∀ m : Fin 64, value? (digit m) = some m.val := by decide
  exact key ⟨n, h⟩

theorem digit_ne_pad {n : Nat} (h : n < 64) : digit n ≠ '=' := by
  have key : ∀ m : Fin 64, digit m ≠ '=' := by decide
  exact key ⟨n, h⟩

theorem ofNat_eq_of_toNat {a : UInt8} {n : Nat} (h : n = a.toNat) : UInt8.ofNat n = a := by
  rw [h, UInt8.ofNat_toNat]

@[simp] theorem decodeChars_encodeChars (b : Bytes) :
    decodeChars (encodeChars b) = some b := by
  fun_induction encodeChars b with
  | case1 => rfl
  | case2 a =>
    have ha := a.toNat_lt
    have e : UInt8.ofNat (a.toNat / 4 * 4 + a.toNat % 4 * 16 / 16) = a :=
      ofNat_eq_of_toNat (by omega)
    have hz : a.toNat % 4 * 16 % 16 = 0 := by omega
    simp only [decodeChars, decodeFinal, ↓reduceIte, value?_digit (n := a.toNat / 4) (by omega),
      value?_digit (n := a.toNat % 4 * 16) (by omega), Option.bind_eq_bind, Option.bind_some,
      hz, e]
  | case3 a b =>
    have ha := a.toNat_lt
    have hb := b.toNat_lt
    have e₁ : UInt8.ofNat (a.toNat / 4 * 4 + (a.toNat % 4 * 16 + b.toNat / 16) / 16) = a :=
      ofNat_eq_of_toNat (by omega)
    have e₂ : UInt8.ofNat ((a.toNat % 4 * 16 + b.toNat / 16) % 16 * 16
        + b.toNat % 16 * 4 / 4) = b := ofNat_eq_of_toNat (by omega)
    have hz : b.toNat % 16 * 4 % 4 = 0 := by omega
    have hy : digit (b.toNat % 16 * 4) ≠ '=' := digit_ne_pad (by omega)
    simp only [decodeChars, decodeFinal, ↓reduceIte, hy,
      value?_digit (n := a.toNat / 4) (by omega),
      value?_digit (n := a.toNat % 4 * 16 + b.toNat / 16) (by omega),
      value?_digit (n := b.toNat % 16 * 4) (by omega), Option.bind_eq_bind, Option.bind_some,
      hz, e₁, e₂]
  | case4 a b c rest ih =>
    have ha := a.toNat_lt
    have hb := b.toNat_lt
    have hc := c.toNat_lt
    have e₁ : UInt8.ofNat (a.toNat / 4 * 4 + (a.toNat % 4 * 16 + b.toNat / 16) / 16) = a :=
      ofNat_eq_of_toNat (by omega)
    have e₂ : UInt8.ofNat ((a.toNat % 4 * 16 + b.toNat / 16) % 16 * 16
        + (b.toNat % 16 * 4 + c.toNat / 64) / 4) = b := ofNat_eq_of_toNat (by omega)
    have e₃ : UInt8.ofNat ((b.toNat % 16 * 4 + c.toNat / 64) % 4 * 64 + c.toNat % 64) = c :=
      ofNat_eq_of_toNat (by omega)
    have hz : digit (c.toNat % 64) ≠ '=' := digit_ne_pad (by omega)
    simp only [decodeChars, hz, ↓reduceIte, value?_digit (n := a.toNat / 4) (by omega),
      value?_digit (n := a.toNat % 4 * 16 + b.toNat / 16) (by omega),
      value?_digit (n := b.toNat % 16 * 4 + c.toNat / 64) (by omega),
      value?_digit (n := c.toNat % 64) (by omega), Option.bind_eq_bind, Option.bind_some, ih,
      e₁, e₂, e₃]

theorem encodeChars_injective : Function.Injective encodeChars := by
  intro a b h
  simpa using congrArg decodeChars h

/-! ## The output alphabet -/

/-- Every character of an encoding is an alphabet character or padding. -/
theorem mem_encodeChars {b : Bytes} {c : Char} (h : c ∈ encodeChars b) :
    c = '=' ∨ ∃ n < 64, c = digit n := by
  fun_induction encodeChars b with
  | case1 => simp at h
  | case2 a =>
    have ha := a.toNat_lt
    simp only [List.mem_cons, List.not_mem_nil, or_false] at h
    rcases h with h | h | h | h
    · exact .inr ⟨_, by omega, h⟩
    · exact .inr ⟨_, by omega, h⟩
    · exact .inl h
    · exact .inl h
  | case3 a b =>
    have ha := a.toNat_lt
    have hb := b.toNat_lt
    simp only [List.mem_cons, List.not_mem_nil, or_false] at h
    rcases h with h | h | h | h
    · exact .inr ⟨_, by omega, h⟩
    · exact .inr ⟨_, by omega, h⟩
    · exact .inr ⟨_, by omega, h⟩
    · exact .inl h
  | case4 a b c rest ih =>
    have ha := a.toNat_lt
    have hb := b.toNat_lt
    have hc := c.toNat_lt
    simp only [List.mem_cons] at h
    rcases h with h | h | h | h | h
    · exact .inr ⟨_, by omega, h⟩
    · exact .inr ⟨_, by omega, h⟩
    · exact .inr ⟨_, by omega, h⟩
    · exact .inr ⟨_, by omega, h⟩
    · exact ih h

theorem length_encodeChars (b : Bytes) :
    (encodeChars b).length = (b.length + 2) / 3 * 4 := by
  fun_induction encodeChars b with
  | case1 => rfl
  | case2 a => simp
  | case3 a b => simp
  | case4 a b c rest ih =>
    simp only [List.length_cons, ih]
    omega

end RatifyProtocol.Foundation.Base64
