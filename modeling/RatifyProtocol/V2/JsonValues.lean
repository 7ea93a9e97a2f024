import RatifyProtocol.V2.JsonParser
set_option autoImplicit false

/-!
# V2: what a parsed node denotes

The value of a node, and the parser against the grammar of RFC 8259.  The two agree
except on the texts with an escape of the form `\u+`, which the parser reads and the
grammar does not have (`parseJson_readsGrammar_iff`).
-/

namespace RatifyProtocol.V2

open Foundation Foundation.JsonGrammar

/-! ## The value of a node -/

/-- The integer a token of digits spells. -/
def tokenValue (text : String) : Int :=
  match text.toList with
  | '-' :: ds => -(Nat.ofDigitChars 10 ds 0 : Int)
  | ds => Nat.ofDigitChars 10 ds 0

mutual

/-- The JSON value a node denotes, wherever it was read. -/
def JNode.value : JNode → JsonValue
  | .mk v _ _ => JV.value v

def JV.value : JV → JsonValue
  | .null => .null
  | .bool b => .bool b
  | .num text => .int (tokenValue text)
  | .str s => .str s
  | .arr items => .arr (itemValues items)
  | .obj fields => .obj fun k => (fieldValues fields).lookup k

def itemValues : List JNode → List JsonValue
  | [] => []
  | x :: xs => JNode.value x :: itemValues xs

def fieldValues : List (String × JNode) → List (String × JsonValue)
  | [] => []
  | (k, x) :: fields => (k, JNode.value x) :: fieldValues fields

end

theorem itemValues_eq_map (xs : List JNode) : itemValues xs = xs.map JNode.value := by
  induction xs with
  | nil => rfl
  | cons x xs ih => rw [itemValues, ih, List.map_cons]

theorem fieldValues_eq_map (fields : List (String × JNode)) :
    fieldValues fields = fields.map fun f => (f.1, f.2.value) := by
  induction fields with
  | nil => rfl
  | cons f fields ih =>
    obtain ⟨k, x⟩ := f
    rw [fieldValues, ih, List.map_cons]

theorem tokenValue_encodeInt (n : Int) : tokenValue (String.ofList (encodeInt n)) = n := by
  rw [tokenValue, String.toList_ofList, encodeInt_eq]
  split
  · rename_i ds heq
    split at heq
    · have hds : Nat.toDigits 10 n.natAbs = ds := (List.cons.inj heq).2
      rw [← hds, Nat.ofDigitChars_ten_toDigits]
      omega
    · have hminus : '-' ∈ Nat.toDigits 10 n.natAbs := by
        rw [List.nil_append] at heq
        rw [heq]
        exact List.mem_cons_self ..
      exact absurd rfl (isDigit_ne (all_isDigit_toDigits _ _ hminus)).2.2.2.1
  · rename_i heq
    split
    · rename_i hneg
      rw [if_pos hneg] at heq
      exact absurd rfl (heq _)
    · rw [List.nil_append, Nat.ofDigitChars_ten_toDigits]
      omega

theorem JNode.value_ofShape (shape : JsonShape JNode) (i j : Nat) :
    (JNode.ofShape shape i j).value = valueOf (shape.map JNode.value) (i + 0) (j + 0) := by
  cases shape with
  | null => rfl
  | bool b => rfl
  | int n =>
    change JsonValue.int (tokenValue (String.ofList (encodeInt n))) = .int n
    rw [tokenValue_encodeInt]
  | str s => rfl
  | arr items =>
    change JsonValue.arr (itemValues items) = .arr (items.map JNode.value)
    rw [itemValues_eq_map]
  | obj members =>
    change JsonValue.obj (fun k => (fieldValues members).lookup k)
      = .obj fun k => (members.map fun m => (m.1, m.2.value)).lookup k
    rw [fieldValues_eq_map]

/-! ## Texts and their values -/

/-- `b` is one JSON text of the dialect, nested no deeper than the limit, of value `v`. -/
def JsonText (D : Dialect) (b : Bytes) (v : JsonValue) : Prop :=
  ∃ text, utf8Chars text = b ∧ DocumentText D valueOf maxJsonNestingDepth v text

theorem strict_within_scanner : strictDialect.Within scannerDialect where
  quad _ _ h := .inl h
  bound := Int.le_refl _

/-- The parser reads the texts of its dialect, and its node has the text's value. -/
theorem jsonText_scanner_iff {b : Bytes} {v : JsonValue} :
    JsonText scannerDialect b v ↔ ∃ n, parseJson b = .ok n ∧ n.value = v := by
  constructor
  · rintro ⟨text, rfl, w, t, w', hw, hvalue, hw', rfl⟩
    obtain ⟨n, hn, rfl⟩ := ValueText.of_map JNode.value_ofShape hvalue
    exact ⟨n, parseJson_eq_ok_iff.mpr ⟨_, rfl, w, t, w', hw, hn, hw', rfl⟩, rfl⟩
  · rintro ⟨n, hn, rfl⟩
    obtain ⟨text, rfl, w, t, w', hw, hvalue, hw', rfl⟩ := parseJson_eq_ok_iff.mp hn
    exact ⟨_, rfl, w, t, w', hw,
      ValueText.map (Dialect.Within.refl _) JNode.value_ofShape hvalue (Nat.le_refl _), hw', rfl⟩

theorem JsonText.scanner {b : Bytes} {v : JsonValue} (h : JsonText strictDialect b v) :
    JsonText scannerDialect b v := by
  obtain ⟨text, hb, hdoc⟩ := h
  exact ⟨text, hb, hdoc.mono strict_within_scanner⟩

/-! ## Escapes with a plus sign -/

/-- Whether some escape of a text is `\u` with a plus sign after it. -/
def hasPlusEscape : List Char → Bool
  | [] => false
  | [_] => false
  | c :: e :: t =>
    if c = '\\' then (e == 'u' && t.head? == some '+') || hasPlusEscape t
    else hasPlusEscape (e :: t)

/-- A text that leaves the verdict to what follows. -/
def PlusFree (t : List Char) : Prop := ∀ r, hasPlusEscape (t ++ r) = hasPlusEscape r

/-- A text with such an escape, whatever follows. -/
def PlusEscaped (t : List Char) : Prop := ∀ r, hasPlusEscape (t ++ r) = true

theorem hasPlusEscape_cons {c : Char} (hc : c ≠ '\\') (r : List Char) :
    hasPlusEscape (c :: r) = hasPlusEscape r := by
  cases r with
  | nil => rfl
  | cons e t => rw [hasPlusEscape, if_neg hc]

theorem hasPlusEscape_escape (e : Char) (t : List Char) :
    hasPlusEscape ('\\' :: e :: t)
      = ((e == 'u' && t.head? == some '+') || hasPlusEscape t) := by
  rw [hasPlusEscape, if_pos rfl]

theorem PlusFree.append {t u : List Char} (ht : PlusFree t) (hu : PlusFree u) : PlusFree (t ++ u) := by
  intro r
  rw [List.append_assoc, ht, hu]

theorem PlusEscaped.append {t : List Char} (ht : PlusEscaped t) (u : List Char) : PlusEscaped (t ++ u) := by
  intro r
  rw [List.append_assoc]
  exact ht _

theorem PlusFree.plusEscaped_append {t u : List Char} (ht : PlusFree t) (hu : PlusEscaped u) : PlusEscaped (t ++ u) := by
  intro r
  rw [List.append_assoc, ht, hu]

theorem plusFree_char {c : Char} (hc : c ≠ '\\') : PlusFree [c] := fun r => hasPlusEscape_cons hc r

theorem plusFree_letter {e c : Char} (h : (e, c) ∈ letterEscapes) : PlusFree ['\\', e] := by
  intro r
  have hu : e ≠ 'u' := by
    rintro rfl
    simp [letterEscapes] at h
  change hasPlusEscape ('\\' :: e :: r) = hasPlusEscape r
  rw [hasPlusEscape_escape, beq_eq_false_iff_ne.mpr hu, Bool.false_and, Bool.false_or]

theorem plusFree_digits {t : List Char} (ht : ∀ c ∈ t, ∃ v, hexDigitValue c = some v) : PlusFree t := by
  induction t with
  | nil => exact fun _ => rfl
  | cons c t ih =>
    obtain ⟨v, hv⟩ := ht c (List.mem_cons_self ..)
    have hc : c ≠ '\\' := by
      rintro rfl
      cases hv
    exact (plusFree_char hc).append (ih fun d hd => ht d (List.mem_cons_of_mem _ hd))

theorem plusFree_fourHexDigits {n : Nat} {q : List Char} (h : FourHexDigits n q) :
    PlusFree ('\\' :: 'u' :: q) := by
  obtain ⟨a, b, c, d, va, vb, vc, vd, rfl, ha, hb, hc, hd, -⟩ := h
  have hdigits : PlusFree [a, b, c, d] := by
    apply plusFree_digits
    intro x hx
    simp only [List.mem_cons, List.not_mem_nil, or_false] at hx
    rcases hx with rfl | rfl | rfl | rfl
    · exact ⟨va, ha⟩
    · exact ⟨vb, hb⟩
    · exact ⟨vc, hc⟩
    · exact ⟨vd, hd⟩
  intro r
  have hplus : ([a, b, c, d] ++ r).head? ≠ some '+' := by
    intro heq
    exact (toNat_le_of_hexDigitValue ha).2 (Option.some.inj heq)
  change hasPlusEscape ('\\' :: 'u' :: ([a, b, c, d] ++ r)) = hasPlusEscape r
  rw [hasPlusEscape_escape, beq_eq_false_iff_ne.mpr hplus, Bool.and_false, Bool.false_or, hdigits]

theorem plusEscaped_plusThreeDigits {n : Nat} {q : List Char} (h : PlusThreeDigits n q) :
    PlusEscaped ('\\' :: 'u' :: q) := by
  obtain ⟨b, c, d, vb, vc, vd, rfl, -⟩ := h
  intro r
  change hasPlusEscape ('\\' :: 'u' :: '+' :: _) = true
  rw [hasPlusEscape_escape]
  rfl

/-- No text of the grammar has such an escape. -/
theorem plusFree_strict : Tokenwise strictDialect.quad PlusFree where
  nil := fun _ => rfl
  append := PlusFree.append
  char := plusFree_char
  letter := plusFree_letter
  unit := plusFree_fourHexDigits

theorem scanned_tokens : Tokenwise scannerDialect.quad fun t => PlusFree t ∨ PlusEscaped t where
  nil := .inl fun _ => rfl
  append ht hu := by
    rcases ht with ht | ht
    · rcases hu with hu | hu
      · exact .inl (ht.append hu)
      · exact .inr (ht.plusEscaped_append hu)
    · exact .inr (ht.append _)
  char hc := .inl (plusFree_char hc)
  letter h := .inl (plusFree_letter h)
  unit h := h.imp plusFree_fourHexDigits plusEscaped_plusThreeDigits

/-- Such an escape is all that a text of the scanner can offend with. -/
theorem scanned_offends :
    Offends scannerDialect strictDialect (fun t => PlusFree t ∨ PlusEscaped t) PlusEscaped where
  tokens := scanned_tokens
  bound := Int.le_refl _
  unit h := h.imp_right plusEscaped_plusThreeDigits
  left h := h.append _
  right ht hu := by
    rcases ht with ht | ht
    · exact ht.plusEscaped_append hu
    · exact ht.append _

/-! ## The parser and the grammar -/

/-- On `b` the parser does what the grammar says: it accepts exactly a text of the
grammar, and returns a node of exactly that text's value. -/
def ReadsGrammar (b : Bytes) : Prop :=
  ((∃ n, parseJson b = .ok n) ↔ ∃ v, JsonText strictDialect b v)
    ∧ ∀ n, parseJson b = .ok n → ∀ v, JsonText strictDialect b v ↔ v = n.value

/-- `b` is a JSON text but for escapes `\u+` with three hexadecimal digits, of which it
has one. -/
def LooselyEscaped (b : Bytes) : Prop :=
  ∃ text, utf8Chars text = b ∧ hasPlusEscape text = true
    ∧ ∃ v, DocumentText scannerDialect valueOf maxJsonNestingDepth v text

theorem not_looselyEscaped_of_strict {b : Bytes} {v : JsonValue} (h : JsonText strictDialect b v) :
    ¬ LooselyEscaped b := by
  rintro ⟨text, rfl, hplus, -⟩
  obtain ⟨text', htext, hdoc⟩ := h
  obtain rfl := utf8Chars_injective htext
  have hfree := plusFree_strict.documentText hdoc []
  rw [List.append_nil, hplus] at hfree
  cases hfree

theorem strict_or_looselyEscaped {b : Bytes} {v : JsonValue} (h : JsonText scannerDialect b v) :
    JsonText strictDialect b v ∨ LooselyEscaped b := by
  obtain ⟨text, hb, hdoc⟩ := h
  rcases scanned_offends.documentText hdoc with hstrict | hescaped
  · exact .inl ⟨text, hb, hstrict⟩
  · have hplus := hescaped []
    rw [List.append_nil] at hplus
    exact .inr ⟨text, hb, hplus, v, hdoc⟩

theorem not_readsGrammar_of_looselyEscaped {b : Bytes} (h : LooselyEscaped b) :
    ¬ ReadsGrammar b := by
  rintro ⟨haccepts, -⟩
  obtain ⟨text, hb, hplus, v, hdoc⟩ := h
  obtain ⟨n, hn, -⟩ := jsonText_scanner_iff.mp ⟨text, hb, hdoc⟩
  obtain ⟨v', hstrict⟩ := haccepts.mp ⟨n, hn⟩
  exact not_looselyEscaped_of_strict hstrict ⟨text, hb, hplus, v, hdoc⟩

/-- The parser does what the grammar of RFC 8259 says on every byte string, but for the
texts with an escape `\u+`, which it reads. -/
theorem parseJson_readsGrammar_iff (b : Bytes) : ReadsGrammar b ↔ ¬ LooselyEscaped b := by
  constructor
  · intro hreads hescaped
    exact not_readsGrammar_of_looselyEscaped hescaped hreads
  · intro hescaped
    have hstrict : ∀ {n}, parseJson b = .ok n → JsonText strictDialect b n.value := fun hn =>
      (strict_or_looselyEscaped (jsonText_scanner_iff.mpr ⟨_, hn, rfl⟩)).resolve_right hescaped
    refine ⟨⟨fun ⟨n, hn⟩ => ⟨n.value, hstrict hn⟩, ?_⟩, ?_⟩
    · rintro ⟨v, hv⟩
      obtain ⟨n, hn, -⟩ := jsonText_scanner_iff.mp hv.scanner
      exact ⟨n, hn⟩
    · intro n hn v
      constructor
      · intro hv
        obtain ⟨n', hn', rfl⟩ := jsonText_scanner_iff.mp hv.scanner
        rw [hn] at hn'
        rw [Except.ok.inj hn']
      · rintro rfl
        exact hstrict hn

/-- `"\u+041"` is no JSON text, and the parser reads it. -/
theorem plusEscape_read : ¬ ReadsGrammar (utf8 "\"\\u+041\"") := by
  have hquad : scannerDialect.quad 'A'.toNat ['+', '0', '4', '1'] :=
    .inr ⟨'0', '4', '1', 0, 4, 1, rfl, rfl, rfl, rfl, rfl⟩
  have hstring : StringText scannerDialect.quad "A" "\"\\u+041\"".toList :=
    ⟨[['\\', 'u', '+', '0', '4', '1']], .cons (.unit hquad) .nil, rfl⟩
  have hspace : Space [] := fun _ hc => absurd hc List.not_mem_nil
  exact not_readsGrammar_of_looselyEscaped ⟨_, rfl, rfl, .str "A", [], _, [], hspace,
    ⟨.str "A", .str hstring, rfl⟩, hspace, (List.append_nil _).symm⟩

end RatifyProtocol.V2
