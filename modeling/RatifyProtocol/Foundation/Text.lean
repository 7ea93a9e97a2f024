import Mathlib.Data.String.Basic
set_option autoImplicit false

/-!
# Foundation: text and bytes

Byte strings are lists of octets.  This module relates a string to its UTF-8
bytes and to its lowercase hexadecimal spelling, with the two facts every
encoder needs: decoding undoes encoding, and encoding is injective.
-/

namespace RatifyProtocol.Foundation

/-- A byte string. -/
abbrev Bytes := List UInt8

/-- `value.starts_with(text)`. -/
def startsWith (value text : String) : Bool := text.toList.isPrefixOf value.toList

/-- A character inside `{:?}`.  Which characters beyond ASCII are escaped depends on the
Unicode tables; here they stand for themselves. -/
def debugChar (c : Char) : String :=
  match c.toNat with
  | 0 => "\\0"
  | 9 => "\\t"
  | 10 => "\\n"
  | 13 => "\\r"
  | 34 => "\\\""
  | 92 => "\\\\"
  | n =>
    if n < 32 ∨ n = 127 then "\\u\x7b" ++ String.ofList (Nat.toDigits 16 n) ++ "\x7d"
    else String.singleton c

/-- `{:?}` of a string. -/
def debugQuote (s : String) : String :=
  "\"" ++ String.join (s.toList.map debugChar) ++ "\""

/-! ## UTF-8 -/

/-- The UTF-8 bytes of a character list. -/
def utf8Chars (cs : List Char) : Bytes :=
  cs.flatMap String.utf8EncodeChar

/-- The UTF-8 bytes of a string. -/
def utf8 (s : String) : Bytes := utf8Chars s.toList

/-- The text of a byte string, when it is well-formed UTF-8. -/
def fromUtf8 (b : Bytes) : Option String := String.fromUTF8? b.toByteArray

@[simp] theorem utf8Chars_nil : utf8Chars [] = [] := rfl

@[simp] theorem utf8Chars_cons (c : Char) (cs : List Char) :
    utf8Chars (c :: cs) = String.utf8EncodeChar c ++ utf8Chars cs := rfl

@[simp] theorem utf8Chars_append (a b : List Char) :
    utf8Chars (a ++ b) = utf8Chars a ++ utf8Chars b := by
  simp [utf8Chars]

@[simp] theorem utf8_append (a b : String) : utf8 (a ++ b) = utf8 a ++ utf8 b := by
  simp [utf8]

theorem utf8_ofList (cs : List Char) : utf8 (String.ofList cs) = utf8Chars cs := by
  simp [utf8, String.toList_ofList]

theorem toByteArray_utf8 (s : String) : (utf8 s).toByteArray = s.toByteArray := by
  have h : s = String.ofList s.toList := (String.ofList_toList).symm
  conv_rhs => rw [h, String.toByteArray_ofList]
  rfl

@[simp] theorem fromUtf8_utf8 (s : String) : fromUtf8 (utf8 s) = some s := by
  simp [fromUtf8, toByteArray_utf8, String.fromUTF8?, s.isValidUTF8, String.fromUTF8]

theorem utf8_injective : Function.Injective utf8 := by
  intro s t h
  have := congrArg fromUtf8 h
  simpa using this

theorem utf8Chars_injective : Function.Injective utf8Chars := by
  intro a b h
  have hs : utf8 (String.ofList a) = utf8 (String.ofList b) := by
    rw [utf8_ofList, utf8_ofList, h]
  simpa [String.toList_ofList] using congrArg String.toList (utf8_injective hs)

/-- Every character takes at least one byte. -/
theorem length_le_length_utf8Chars (cs : List Char) : cs.length ≤ (utf8Chars cs).length := by
  induction cs with
  | nil => simp
  | cons c cs ih =>
    have hc : 0 < (String.utf8EncodeChar c).length := by
      rw [String.length_utf8EncodeChar]
      exact c.utf8Size_pos
    simp only [utf8Chars_cons, List.length_cons, List.length_append]
    omega

theorem length_utf8Chars_replicate (n : Nat) : (utf8Chars (List.replicate n 'a')).length = n := by
  induction n with
  | zero => rfl
  | succ n ih =>
    rw [List.replicate_succ, utf8Chars_cons, List.length_append, ih, Nat.add_comm]
    rfl

/-! ## Hexadecimal -/

/-- The lowercase hexadecimal digit of a nibble. -/
def hexDigit (n : Nat) : Char :=
  if n < 10 then Char.ofNat (48 + n) else Char.ofNat (87 + n)

/-- Lowercase hexadecimal spelling, two digits a byte. -/
def hexEncode (b : Bytes) : String :=
  String.ofList (b.flatMap fun x => [hexDigit (x.toNat / 16), hexDigit (x.toNat % 16)])

theorem hexDigit_injOn {m n : Nat} (hm : m < 16) (hn : n < 16)
    (h : hexDigit m = hexDigit n) : m = n := by
  have key : ∀ a b : Fin 16, hexDigit a = hexDigit b → a = b := by decide
  exact congrArg Fin.val (key ⟨m, hm⟩ ⟨n, hn⟩ h)

theorem hexEncode_injective : Function.Injective hexEncode := by
  intro a b h
  have h' : (a.flatMap fun x => [hexDigit (x.toNat / 16), hexDigit (x.toNat % 16)])
      = b.flatMap fun x => [hexDigit (x.toNat / 16), hexDigit (x.toNat % 16)] := by
    simpa [hexEncode, String.toList_ofList] using congrArg String.toList h
  clear h
  induction a generalizing b with
  | nil =>
    cases b with
    | nil => rfl
    | cons y b => simp at h'
  | cons x a ih =>
    cases b with
    | nil => simp at h'
    | cons y b =>
      simp only [List.flatMap_cons, List.cons_append, List.nil_append,
        List.cons.injEq] at h'
      obtain ⟨hhi, hlo, hrest⟩ := h'
      have hx := x.toNat_lt
      have hy := y.toNat_lt
      have e₁ := hexDigit_injOn (by omega) (by omega) hhi
      have e₂ := hexDigit_injOn (by omega) (by omega) hlo
      have : x = y := UInt8.toNat.inj (by omega)
      rw [this, ih hrest]

/-- Every hexadecimal digit is one ASCII byte, a digit or `a`–`f`. -/
theorem utf8EncodeChar_hexDigit {n : Nat} (h : n < 16) :
    ∃ b, String.utf8EncodeChar (hexDigit n) = [b] ∧
      ((48 ≤ b ∧ b ≤ 57) ∨ (97 ≤ b ∧ b ≤ 102)) := by
  have key : ∀ a : Fin 16, ∃ b, String.utf8EncodeChar (hexDigit a) = [b] ∧
      ((48 ≤ b ∧ b ≤ 57) ∨ (97 ≤ b ∧ b ≤ 102)) := by
    intro a
    refine ⟨(String.utf8EncodeChar (hexDigit a)).headD 0, ?_⟩
    revert a
    decide
  exact key ⟨n, h⟩

theorem length_utf8_hexEncode (b : Bytes) : (utf8 (hexEncode b)).length = 2 * b.length := by
  rw [hexEncode, utf8_ofList]
  induction b with
  | nil => rfl
  | cons x b ih =>
    have hx := x.toNat_lt
    obtain ⟨u, hu, -⟩ := utf8EncodeChar_hexDigit (n := x.toNat / 16) (by omega)
    obtain ⟨v, hv, -⟩ := utf8EncodeChar_hexDigit (n := x.toNat % 16) (by omega)
    simp only [List.flatMap_cons, utf8Chars_append, utf8Chars_cons, utf8Chars_nil, hu, hv,
      List.length_append, List.length_cons, List.length_nil, ih]
    omega

theorem mem_utf8_hexEncode {b : Bytes} {x : UInt8} (h : x ∈ utf8 (hexEncode b)) :
    (48 ≤ x ∧ x ≤ 57) ∨ (97 ≤ x ∧ x ≤ 102) := by
  rw [hexEncode, utf8_ofList] at h
  induction b with
  | nil => simp at h
  | cons y b ih =>
    have hy := y.toNat_lt
    obtain ⟨u, hu, hu'⟩ := utf8EncodeChar_hexDigit (n := y.toNat / 16) (by omega)
    obtain ⟨v, hv, hv'⟩ := utf8EncodeChar_hexDigit (n := y.toNat % 16) (by omega)
    simp only [List.flatMap_cons, utf8Chars_append, utf8Chars_cons, utf8Chars_nil, hu, hv,
      List.mem_append, List.mem_singleton, List.append_nil] at h
    rcases h with (rfl | rfl) | h
    · exact hu'
    · exact hv'
    · exact ih h

end RatifyProtocol.Foundation
