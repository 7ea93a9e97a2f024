import RatifyProtocol.Foundation.JsonGrammar
import RatifyProtocol.V2.JsonCanonical
import Mathlib.Data.List.Induction
import Mathlib.Data.List.TakeWhile
set_option autoImplicit false

/-!
# V2: the parser reads its grammar

The scanner of `v2/json.rs` against the grammar of JSON texts: whatever it accepts
is a text of the grammar with the node as its reading, and every text of the grammar
is read (`parseJson_eq_ok_iff`).  The grammar is the one of RFC 8259 but for the
escapes, where `u32::from_str_radix` also takes `\u+` with three digits.
-/

namespace RatifyProtocol.V2

open Foundation Foundation.JsonGrammar

/-! ## The grammar of the scanner -/

/-- A plus sign and three hexadecimal digits. -/
def PlusThreeDigits (n : Nat) (t : List Char) : Prop :=
  ∃ b c d vb vc vd, t = ['+', b, c, d] ∧ hexDigitValue b = some vb ∧ hexDigitValue c = some vc
    ∧ hexDigitValue d = some vd ∧ n = vb * 256 + vc * 16 + vd

/-- The JSON of RFC 8259 over the safe integers. -/
def strictDialect : Dialect where
  quad := FourHexDigits
  bound := maxSafe

/-- What the scanner takes for JSON. -/
def scannerDialect : Dialect where
  quad n t := FourHexDigits n t ∨ PlusThreeDigits n t
  bound := maxSafe

namespace JV

/-- A parsed value from the shape of its text. -/
def ofShape : JsonShape JNode → JV
  | .null => .null
  | .bool b => .bool b
  | .int n => .num (String.ofList (encodeInt n))
  | .str s => .str s
  | .arr items => .arr items
  | .obj members => .obj members

end JV

namespace JNode

/-- The node of a text that covers the bytes from `start` to `stop`. -/
def ofShape (shape : JsonShape JNode) (start stop : Nat) : JNode :=
  .mk (JV.ofShape shape) start stop

end JNode

/-- `t` was read between two cursors. -/
structure Consumed (c : Cursor) (t : List Char) (c' : Cursor) : Prop where
  rest : c.rest = t ++ c'.rest
  pos : c'.pos = c.pos + size t

namespace Consumed

variable {c c' c'' : Cursor} {t t' : List Char}

theorem nil (c : Cursor) : Consumed c [] c := ⟨rfl, rfl⟩

theorem append (h : Consumed c t c') (h' : Consumed c' t' c'') : Consumed c (t ++ t') c'' where
  rest := by rw [h.rest, h'.rest, List.append_assoc]
  pos := by rw [h'.pos, h.pos, size_append, Nat.add_assoc]

theorem head {i : Nat} {ch : Char} {tl : List Char} (h : c.rest = ch :: tl)
    (hi : i = c.pos + ch.utf8Size) : Consumed c [ch] ⟨i, tl⟩ where
  rest := h
  pos := by rw [hi, size_cons, size_nil, Nat.add_zero]

/-- Where a text that is all read ends. -/
theorem eq_mk {i : Nat} {tail : List Char} (h : Consumed ⟨i, t ++ tail⟩ t c') :
    c' = ⟨i + size t, tail⟩ := by
  obtain ⟨pos, rest⟩ := c'
  obtain ⟨hrest, hpos⟩ := h
  obtain rfl : tail = rest := List.append_cancel_left hrest
  obtain rfl : pos = i + size t := hpos
  rfl

end Consumed

/-! ## White space -/

theorem utf8Size_eq_one {c : Char} (h : c.toNat ≤ 127) : c.utf8Size = 1 :=
  Char.utf8Size_eq_one_iff.mpr (UInt32.le_iff_toNat_le.mpr h)

theorem isWs_eq_true_iff {c : Char} :
    isWs c = true ↔ c = ' ' ∨ c = '\t' ∨ c = '\n' ∨ c = '\r' := by
  simp only [isWs, Bool.or_eq_true, beq_iff_eq, or_assoc]

theorem size_of_space {w : List Char} (h : Space w) : size w = w.length := by
  induction w with
  | nil => rfl
  | cons c w ih =>
    have hc : c.utf8Size = 1 := by
      rcases h c (List.mem_cons_self ..) with rfl | rfl | rfl | rfl <;> decide
    rw [size_cons, hc, ih fun d hd => h d (List.mem_cons_of_mem _ hd), List.length_cons,
      Nat.add_comm]

theorem space_takeWhile (t : List Char) : Space (t.takeWhile isWs) :=
  fun _ hc => isWs_eq_true_iff.mp (List.mem_takeWhile_imp hc)

/-- No white space at the front. -/
def NoSpace (tail : List Char) : Prop := ∀ c cs, tail = c :: cs → isWs c = false

theorem noSpace_nil : NoSpace [] := fun _ _ h => nomatch h

theorem noSpace_cons {c : Char} {cs : List Char} (h : isWs c = false) : NoSpace (c :: cs) := by
  intro d ds hd
  rw [← (List.cons.inj hd).1]
  exact h

theorem noSpace_of_opens {t : List Char} (h : Opens t) (r : List Char) : NoSpace (t ++ r) := by
  obtain ⟨c, cs, rfl, hc, -⟩ := h
  exact noSpace_cons hc

/-- White space is skipped up to the first other character. -/
theorem ws_consumed (c : Cursor) :
    ∃ w, Space w ∧ Consumed c w (ws c) ∧ NoSpace (ws c).rest := by
  refine ⟨c.rest.takeWhile isWs, space_takeWhile c.rest, ⟨?_, ?_⟩, ?_⟩
  · exact (List.takeWhile_append_dropWhile ..).symm
  · rw [size_of_space (space_takeWhile c.rest)]
    rfl
  · intro d ds hd
    have hne : c.rest.dropWhile isWs ≠ [] := by
      intro hnil
      change c.rest.dropWhile isWs = d :: ds at hd
      rw [hnil] at hd
      cases hd
    have hfalse := List.head_dropWhile_not isWs hne
    simpa only [show c.rest.dropWhile isWs = d :: ds from hd, List.head_cons] using hfalse

theorem ws_space {i : Nat} {w tail : List Char} (hw : Space w) (htail : NoSpace tail) :
    ws ⟨i, w ++ tail⟩ = ⟨i + size w, tail⟩ := by
  have hall : ∀ c ∈ w, isWs c = true := fun c hc => isWs_eq_true_iff.mpr (hw c hc)
  have htake : tail.takeWhile isWs = [] := by
    cases tail with
    | nil => rfl
    | cons c cs => simp [htail c cs rfl]
  have hdrop : tail.dropWhile isWs = tail := by
    cases tail with
    | nil => rfl
    | cons c cs => simp [htail c cs rfl]
  simp only [ws, List.takeWhile_append_of_pos hall, List.dropWhile_append_of_pos hall, htake,
    hdrop, List.append_nil, size_of_space hw]

theorem boundary_space {w tail : List Char} (hw : Space w) (htail : Boundary tail) :
    Boundary (w ++ tail) := by
  cases w with
  | nil => exact htail
  | cons c w =>
    apply boundary_cons
    rcases hw c (List.mem_cons_self ..) with rfl | rfl | rfl | rfl <;> decide

/-! ## Integers -/

theorem digitChar_sub {d : Char} (h : d.isDigit = true) :
    d.toNat - 48 < 10 ∧ Nat.digitChar (d.toNat - 48) = d := by
  have key : ∀ k : Fin 10, Nat.digitChar k = Char.ofNat (48 + k) := by decide
  obtain ⟨hlow, hhigh⟩ : 48 ≤ d.toNat ∧ d.toNat ≤ 57 := Char.isDigit_iff_toNat.mp h
  have hlt : d.toNat - 48 < 10 := by omega
  refine ⟨hlt, (key ⟨_, hlt⟩).trans ?_⟩
  rw [show 48 + (d.toNat - 48) = d.toNat from by omega]
  exact Char.ofNat_toNat d

theorem ofDigitChars_singleton (d : Char) : Nat.ofDigitChars 10 [d] 0 = d.toNat - 48 := by
  rw [Nat.ofDigitChars_cons, Nat.ofDigitChars_nil, Nat.mul_zero, Nat.zero_add]
  rfl

/-- A positive decimal has one spelling. -/
theorem toDigits_ofDigitChars {d : Char} (hfirst : '1' ≤ d ∧ d ≤ '9') {ds : List Char}
    (hds : ∀ x ∈ ds, x.isDigit = true) :
    0 < Nat.ofDigitChars 10 (d :: ds) 0
      ∧ Nat.toDigits 10 (Nat.ofDigitChars 10 (d :: ds) 0) = d :: ds := by
  induction ds using List.reverseRecOn with
  | nil =>
    have hlow : 49 ≤ d.toNat := hfirst.1
    have hhigh : d.toNat ≤ 57 := hfirst.2
    have hdigit : d.isDigit = true :=
      Char.isDigit_iff_toNat.mpr ⟨Nat.le_trans (by decide) hlow, hhigh⟩
    obtain ⟨hlt, heq⟩ := digitChar_sub hdigit
    rw [ofDigitChars_singleton]
    exact ⟨by omega, by rw [Nat.toDigits_of_lt_base hlt, heq]⟩
  | append_singleton ds x ih =>
    obtain ⟨hpos, htext⟩ := ih fun y hy => hds y (List.mem_append_left _ hy)
    obtain ⟨hlt, heq⟩ := digitChar_sub (hds x (List.mem_append_right _ (List.mem_cons_self ..)))
    have hvalue : Nat.ofDigitChars 10 (d :: (ds ++ [x])) 0
        = 10 * Nat.ofDigitChars 10 (d :: ds) 0 + (x.toNat - 48) := by
      rw [← List.cons_append, Nat.ofDigitChars_append, Nat.ofDigitChars_cons, Nat.ofDigitChars_nil]
      rfl
    rw [hvalue]
    refine ⟨by omega, ?_⟩
    rw [← Nat.toDigits_append_toDigits (by omega) hpos hlt, htext, Nat.toDigits_of_lt_base hlt,
      heq, List.cons_append]

theorem toDigits_of_positiveDigits {m : Nat} {ds : List Char} (h : PositiveDigits m ds) :
    0 < m ∧ Nat.toDigits 10 m = ds := by
  obtain ⟨⟨d, rest, rfl, hfirst⟩, hdigits, rfl⟩ := h
  exact toDigits_ofDigitChars hfirst fun x hx => hdigits x (List.mem_cons_of_mem _ hx)

theorem positiveDigits_toDigits {m : Nat} (h : 0 < m) : PositiveDigits m (Nat.toDigits 10 m) := by
  obtain ⟨d, ds, hd, hfirst, hrest⟩ := toDigits_eq_cons h
  exact ⟨⟨d, ds, hd, hfirst⟩, all_isDigit_toDigits m, Nat.ofDigitChars_ten_toDigits.symm⟩

/-- The one spelling of an integer is its canonical one. -/
theorem integerText_iff {n : Int} {t : List Char} : IntegerText n t ↔ encodeInt n = t := by
  constructor
  · intro h
    cases h with
    | zero => rfl
    | @positive m ds digits =>
      obtain ⟨-, htext⟩ := toDigits_of_positiveDigits digits
      rw [encodeInt_eq, if_neg (by omega), Int.natAbs_natCast, htext, List.nil_append]
    | @negative m ds digits =>
      obtain ⟨hpos, htext⟩ := toDigits_of_positiveDigits digits
      rw [encodeInt_eq, if_pos (by omega), Int.natAbs_neg, Int.natAbs_natCast, htext]
      rfl
  · rintro rfl
    rw [encodeInt_eq]
    rcases Int.lt_trichotomy n 0 with hneg | rfl | hpos
    · rw [if_pos hneg]
      have hdigits := positiveDigits_toDigits (m := n.natAbs) (by omega)
      have hn : n = -(n.natAbs : Int) := by omega
      conv => rw [hn]
      rw [Int.natAbs_neg, Int.natAbs_natCast]
      exact .negative hdigits
    · exact .zero
    · rw [if_neg (by omega)]
      have hdigits := positiveDigits_toDigits (m := n.natAbs) (by omega)
      have hn : n = (n.natAbs : Int) := by omega
      conv => rw [hn]
      rw [Int.natAbs_natCast]
      exact .positive hdigits

theorem wholePart_sound {r r' whole : List Char} (h : wholePart r = .ok (whole, r')) :
    r = whole ++ r' ∧ (whole = ['0'] ∨ ∃ m, PositiveDigits m whole) := by
  cases r with
  | nil => cases h
  | cons d tl =>
    simp only [wholePart] at h
    split_ifs at h with hzero hfirst
    · obtain ⟨rfl, rfl⟩ := Prod.mk.inj (Except.ok.inj h)
      exact ⟨by rw [hzero]; rfl, .inl rfl⟩
    · obtain ⟨rfl, rfl⟩ := Prod.mk.inj (Except.ok.inj h)
      refine ⟨by rw [List.cons_append, List.takeWhile_append_dropWhile], .inr ⟨_, ?_, ?_, rfl⟩⟩
      · exact ⟨d, _, rfl, hfirst⟩
      · intro x hx
        rcases List.mem_cons.mp hx with rfl | hx
        · exact Char.isDigit_iff_toNat.mpr ⟨Nat.le_trans (by decide) hfirst.1, hfirst.2⟩
        · exact List.mem_takeWhile_imp hx
    · cases h

theorem fractionPart_sound {r r' x : List Char} (h : fractionPart r = .ok (x, r')) :
    (x = [] ∧ r' = r) ∨ '.' ∈ x := by
  cases r with
  | nil =>
    obtain ⟨rfl, rfl⟩ := Prod.mk.inj (Except.ok.inj h)
    exact .inl ⟨rfl, rfl⟩
  | cons p tl =>
    simp only [fractionPart] at h
    split_ifs at h
    · cases h
    · obtain ⟨rfl, rfl⟩ := Prod.mk.inj (Except.ok.inj h)
      exact .inr (List.mem_cons_self ..)
    · obtain ⟨rfl, rfl⟩ := Prod.mk.inj (Except.ok.inj h)
      exact .inl ⟨rfl, rfl⟩

theorem exponentPart_sound {r r' x : List Char} (h : exponentPart r = .ok (x, r')) :
    (x = [] ∧ r' = r) ∨ 'e' ∈ x ∨ 'E' ∈ x := by
  cases r with
  | nil =>
    obtain ⟨rfl, rfl⟩ := Prod.mk.inj (Except.ok.inj h)
    exact .inl ⟨rfl, rfl⟩
  | cons e tl =>
    simp only [exponentPart] at h
    split_ifs at h with he
    · cases h
    · obtain ⟨rfl, rfl⟩ := Prod.mk.inj (Except.ok.inj h)
      rcases he with rfl | rfl
      · exact .inr (.inl (List.mem_cons_self ..))
      · exact .inr (.inr (List.mem_cons_self ..))
    · obtain ⟨rfl, rfl⟩ := Prod.mk.inj (Except.ok.inj h)
      exact .inl ⟨rfl, rfl⟩

theorem parseMagnitude_sound {negative : Bool} {ds : List Char} {n : Int}
    (h : parseMagnitude negative ds = some n) :
    n = if negative then -(Nat.ofDigitChars 10 ds 0 : Int) else Nat.ofDigitChars 10 ds 0 := by
  unfold parseMagnitude at h
  simp only at h
  split at h
  · cases h
  · generalize hvalue : (if negative then -(Nat.ofDigitChars 10 ds 0 : Int)
      else Nat.ofDigitChars 10 ds 0) = value at h ⊢
    split at h
    · exact (Option.some.inj h).symm
    · cases h

/-- The characters of the sign of a token. -/
def signText (negative : Bool) : List Char := if negative then ['-'] else []

theorem isDigit_of_positiveDigits {m : Nat} {d : Char} {ds : List Char}
    (h : PositiveDigits m (d :: ds)) : d.isDigit = true :=
  h.digits d (List.mem_cons_self ..)

/-- A token of digits that is read as an integer is its canonical spelling. -/
theorem encodeInt_of_parseI64 {negative : Bool} {whole : List Char} {n : Int}
    (hwhole : whole = ['0'] ∨ ∃ m, PositiveDigits m whole)
    (hzero : signText negative ++ whole ≠ ['-', '0'])
    (h : parseI64 (signText negative ++ whole) = some n) :
    encodeInt n = signText negative ++ whole := by
  rcases hwhole with rfl | ⟨m, hdigits⟩
  · cases negative with
    | true => exact absurd rfl hzero
    | false =>
      have hn : n = 0 := (Option.some.inj h).symm
      rw [hn]
      rfl
  · obtain rfl : m = Nat.ofDigitChars 10 whole 0 := hdigits.value
    cases negative with
    | true =>
      have hn := parseMagnitude_sound (show parseMagnitude true whole = some n from h)
      exact integerText_iff.mp (hn ▸ .negative hdigits)
    | false =>
      obtain ⟨d, ds, hd, -⟩ := hdigits.first
      have hdigit := isDigit_of_positiveDigits (hd ▸ hdigits)
      change parseI64 whole = some n at h
      rw [hd, parseI64_of_isDigit hdigit, ← hd] at h
      have hn := parseMagnitude_sound h
      exact integerText_iff.mp (hn ▸ .positive hdigits)

theorem size_of_ascii {t : List Char} (h : ∀ c ∈ t, c.toNat ≤ 127) : size t = t.length := by
  induction t with
  | nil => rfl
  | cons c t ih =>
    rw [size_cons, utf8Size_eq_one (h c (List.mem_cons_self ..)),
      ih fun d hd => h d (List.mem_cons_of_mem _ hd), List.length_cons, Nat.add_comm]

theorem size_encodeInt (n : Int) : size (encodeInt n) = (encodeInt n).length := by
  apply size_of_ascii
  intro c hc
  rw [encodeInt_eq, List.mem_append] at hc
  rcases hc with hc | hc
  · split at hc
    · rw [List.mem_singleton.mp hc]
      decide
    · cases hc
  · have hdigit := Char.isDigit_iff_toNat.mp (all_isDigit_toDigits _ _ hc)
    exact Nat.le_trans hdigit.2 (by decide)

/-- A token of digits has neither a fraction nor an exponent. -/
theorem number_parts {c c' : Cursor} {text : String} (h : number c = .ok (text, c')) :
    ∃ negative whole tail n, c.rest = signText negative ++ (whole ++ tail)
      ∧ (whole = ['0'] ∨ ∃ m, PositiveDigits m whole)
      ∧ signText negative ++ whole ≠ ['-', '0']
      ∧ parseI64 (signText negative ++ whole) = some n ∧ (-maxSafe ≤ n ∧ n ≤ maxSafe)
      ∧ text = String.ofList (signText negative ++ whole)
      ∧ c' = ⟨c.pos + (signText negative ++ whole).length, tail⟩ := by
  unfold number at h
  obtain ⟨⟨whole, r⟩, hwhole, h⟩ := bind_eq_ok_iff.mp h
  obtain ⟨⟨fraction, r₁⟩, hfraction, h⟩ := bind_eq_ok_iff.mp h
  obtain ⟨⟨exponent, r₂⟩, hexponent, h⟩ := bind_eq_ok_iff.mp h
  obtain ⟨hfloat, h⟩ := refuseIf_bind_eq_ok_iff.mp h
  obtain ⟨hzero, h⟩ := refuseIf_bind_eq_ok_iff.mp h
  obtain ⟨hrange, h⟩ := refuseIf_bind_eq_ok_iff.mp h
  obtain ⟨rfl, rfl⟩ := Prod.mk.inj (Except.ok.inj h)
  have hnone : ∀ ch ∈ fraction ++ exponent, ch ≠ '.' ∧ ch ≠ 'e' ∧ ch ≠ 'E' := by
    intro ch hch
    have hmem := List.any_eq_false.mp hfloat ch (by
      rw [List.append_assoc]
      exact List.mem_append_right _ hch)
    simpa only [Bool.or_eq_true, beq_iff_eq, not_or, and_assoc] using hmem
  obtain ⟨rfl, rfl⟩ : fraction = [] ∧ r₁ = r := by
    rcases fractionPart_sound hfraction with hnil | hdot
    · exact hnil
    · exact absurd rfl (hnone '.' (List.mem_append_left _ hdot)).1
  obtain ⟨rfl, rfl⟩ : exponent = [] ∧ r₂ = r₁ := by
    rcases exponentPart_sound hexponent with hnil | he | hE
    · exact hnil
    · exact absurd rfl (hnone 'e' he).2.1
    · exact absurd rfl (hnone 'E' hE).2.2
  simp only [List.append_nil] at hzero hrange ⊢
  obtain ⟨hr, hdigits⟩ := wholePart_sound hwhole
  -- The sign is the minus at the front, if there is one.
  obtain ⟨negative, hsign, hrest⟩ : ∃ negative : Bool,
      (if c.rest.head? = some '-' then ['-'] else []) = signText negative
        ∧ c.rest = signText negative ++ (whole ++ r₂) := by
    split_ifs at hr ⊢ with hhead
    · refine ⟨true, rfl, ?_⟩
      obtain ⟨tl, htl⟩ := List.head?_eq_some_iff.mp hhead
      rw [htl] at hr ⊢
      rw [← hr]
      rfl
    · exact ⟨false, rfl, hr⟩
  rw [hsign] at hzero hrange ⊢
  obtain ⟨n, hn, hbound⟩ : ∃ n, parseI64 (signText negative ++ whole) = some n
      ∧ (-maxSafe ≤ n ∧ n ≤ maxSafe) := by
    cases hparse : parseI64 (signText negative ++ whole) with
    | none =>
      rw [hparse] at hrange
      cases hrange
    | some n =>
      rw [hparse] at hrange
      simp only [Bool.not_eq_false', Bool.and_eq_true, decide_eq_true_eq] at hrange
      exact ⟨n, rfl, hrange⟩
  exact ⟨negative, whole, r₂, n, hrest, hdigits, beq_eq_false_iff_ne.mp hzero, hn, hbound, rfl, rfl⟩

/-- A number token is the canonical spelling of an integer of the safe range. -/
theorem number_sound {c c' : Cursor} {text : String} (h : number c = .ok (text, c')) :
    ∃ n, (-maxSafe ≤ n ∧ n ≤ maxSafe) ∧ text = String.ofList (encodeInt n)
      ∧ Consumed c (encodeInt n) c' := by
  obtain ⟨negative, whole, tail, n, hrest, hwhole, hzero, hn, hbound, rfl, rfl⟩ := number_parts h
  have hspelling := encodeInt_of_parseI64 hwhole hzero hn
  refine ⟨n, hbound, by rw [hspelling], ?_, ?_⟩
  · rw [hrest, hspelling, List.append_assoc]
  · rw [size_encodeInt, hspelling]

theorem number_complete {n : Int} (h : -maxSafe ≤ n ∧ n ≤ maxSafe) {i : Nat} {tail : List Char}
    (ht : Boundary tail) :
    number ⟨i, encodeInt n ++ tail⟩
      = .ok (String.ofList (encodeInt n), ⟨i + size (encodeInt n), tail⟩) := by
  obtain ⟨j, hj⟩ := number_encodeInt h ht (i := i)
  obtain ⟨m, -, htext, hread⟩ := number_sound hj
  have hsame : encodeInt m = encodeInt n := String.ofList_injective htext.symm
  rw [hsame] at hread
  rw [hj, hread.eq_mk]

/-! ## Strings -/

theorem toNat_le_of_hexDigitValue {c : Char} {v : Nat} (h : hexDigitValue c = some v) :
    c.toNat ≤ 127 ∧ c ≠ '+' := by
  have hle : c ≤ 'f' ∧ '0' ≤ c := by
    unfold hexDigitValue at h
    split_ifs at h with h₁ h₂ h₃
    · exact ⟨Char.le_trans h₁.2 (by decide), h₁.1⟩
    · exact ⟨h₂.2, Char.le_trans (by decide) h₂.1⟩
    · exact ⟨Char.le_trans h₃.2 (by decide), Char.le_trans (by decide) h₃.1⟩
  refine ⟨Nat.le_trans hle.1 (by decide), ?_⟩
  rintro rfl
  exact absurd hle.2 (by decide)

/-- An escape of the dialect is one character of no escape and three digits. -/
theorem quad_eq {n : Nat} {t : List Char} (h : scannerDialect.quad n t) :
    ∃ a b c d va vb vc vd, t = [a, b, c, d]
      ∧ (if a = '+' then some 0 else hexDigitValue a) = some va ∧ hexDigitValue b = some vb
      ∧ hexDigitValue c = some vc ∧ hexDigitValue d = some vd
      ∧ n = va * 4096 + vb * 256 + vc * 16 + vd := by
  rcases h with ⟨a, b, c, d, va, vb, vc, vd, rfl, ha, hb, hc, hd, rfl⟩
    | ⟨b, c, d, vb, vc, vd, rfl, hb, hc, hd, rfl⟩
  · refine ⟨a, b, c, d, va, vb, vc, vd, rfl, ?_, hb, hc, hd, rfl⟩
    rw [if_neg (toNat_le_of_hexDigitValue ha).2]
    exact ha
  · refine ⟨'+', b, c, d, 0, vb, vc, vd, rfl, rfl, hb, hc, hd, ?_⟩
    rw [Nat.zero_mul, Nat.zero_add]

theorem quad_of_values {a b c d : Char} {va vb vc vd : Nat}
    (ha : (if a = '+' then some 0 else hexDigitValue a) = some va) (hb : hexDigitValue b = some vb)
    (hc : hexDigitValue c = some vc) (hd : hexDigitValue d = some vd) :
    scannerDialect.quad (va * 4096 + vb * 256 + vc * 16 + vd) [a, b, c, d] := by
  split_ifs at ha with hplus
  · obtain rfl := Option.some.inj ha
    subst hplus
    exact .inr ⟨b, c, d, vb, vc, vd, rfl, hb, hc, hd, by rw [Nat.zero_mul, Nat.zero_add]⟩
  · exact .inl ⟨a, b, c, d, va, vb, vc, vd, rfl, ha, hb, hc, hd, rfl⟩

theorem size_of_values {a b c d : Char} {va vb vc vd : Nat}
    (ha : (if a = '+' then some 0 else hexDigitValue a) = some va) (hb : hexDigitValue b = some vb)
    (hc : hexDigitValue c = some vc) (hd : hexDigitValue d = some vd) : size [a, b, c, d] = 4 := by
  have ha' : a.toNat ≤ 127 := by
    split_ifs at ha with hplus
    · rw [hplus]
      decide
    · exact (toNat_le_of_hexDigitValue ha).1
  simp only [size_cons, size_nil, utf8Size_eq_one ha',
    utf8Size_eq_one (toNat_le_of_hexDigitValue hb).1,
    utf8Size_eq_one (toNat_le_of_hexDigitValue hc).1,
    utf8Size_eq_one (toNat_le_of_hexDigitValue hd).1]

theorem hex4_sound {c c' : Cursor} {n : Nat} (h : hex4 c = .ok (n, c')) :
    ∃ q, scannerDialect.quad n q ∧ Consumed c q c' := by
  obtain ⟨pos, rest⟩ := c
  unfold hex4 at h
  split at h
  · rename_i a x y z tl hrest
    obtain rfl : rest = a :: x :: y :: z :: tl := hrest
    simp only at h
    split at h
    · rename_i va vx vy vz ha hx hy hz
      obtain ⟨rfl, rfl⟩ := Prod.mk.inj (Except.ok.inj h)
      exact ⟨[a, x, y, z], quad_of_values ha hx hy hz, rfl,
        by rw [size_of_values ha hx hy hz]⟩
    · cases h
  · cases h

theorem hex4_complete {i n : Nat} {q tail : List Char} (h : scannerDialect.quad n q) :
    hex4 ⟨i, q ++ tail⟩ = .ok (n, ⟨i + size q, tail⟩) := by
  obtain ⟨a, b, c, d, va, vb, vc, vd, rfl, ha, hb, hc, hd, rfl⟩ := quad_eq h
  rw [size_of_values ha hb hc hd]
  exact hex4_of_values ha hb hc hd

theorem charFromU32_eq_ok {code : Nat} {ch : Char} (h : charFromU32 code = .ok ch) :
    ch.toNat = code := by
  unfold charFromU32 at h
  split at h
  · rename_i hvalid
    obtain rfl := Except.ok.inj h
    rw [Char.ofNat, dif_pos hvalid]
    rfl
  · cases h

/-- One character as the scanner reads it. -/
abbrev ScannedChar := CharText scannerDialect.quad

theorem unicodeEscape_sound {c c' : Cursor} {ch : Char} (h : unicodeEscape c = .ok (ch, c')) :
    ∃ t, ScannedChar ch ('\\' :: 'u' :: t) ∧ Consumed c t c' := by
  unfold unicodeEscape at h
  obtain ⟨⟨first, c₁⟩, hfirst, h⟩ := bind_eq_ok_iff.mp h
  obtain ⟨q, hq, hread⟩ := hex4_sound hfirst
  simp only at h
  split_ifs at h with hhigh hlow
  · split at h
    · rename_i tl hrest
      obtain ⟨⟨second, c₂⟩, hsecond, h⟩ := bind_eq_ok_iff.mp h
      obtain ⟨q', hq', hread'⟩ := hex4_sound hsecond
      simp only at h
      split_ifs at h with hlow
      · obtain ⟨e, he, h⟩ := bind_eq_ok_iff.mp h
        obtain ⟨rfl, rfl⟩ := Prod.mk.inj (Except.ok.inj h)
        have hcode := charFromU32_eq_ok he
        have hescape : Consumed c₁ ['\\', 'u'] ⟨c₁.pos + 2, tl⟩ := ⟨hrest, rfl⟩
        exact ⟨q ++ '\\' :: 'u' :: q', .pair hq hq' hhigh hlow hcode,
          hread.append (hescape.append hread')⟩
      · cases h
    · cases h
  · cases h
  · obtain ⟨e, he, h⟩ := bind_eq_ok_iff.mp h
    obtain ⟨rfl, rfl⟩ := Prod.mk.inj (Except.ok.inj h)
    have hcode := charFromU32_eq_ok he
    exact ⟨q, .unit (by rw [hcode]; exact hq), hread⟩

theorem unicodeEscape_unit {i : Nat} {ch : Char} {q tail : List Char}
    (h : scannerDialect.quad ch.toNat q) :
    unicodeEscape ⟨i, q ++ tail⟩ = .ok (ch, ⟨i + size q, tail⟩) := by
  have hvalid : ch.toNat < 0xD800 ∨ 0xE000 ≤ ch.toNat := by
    rcases ch.valid with hlow | hhigh
    · exact .inl hlow
    · exact .inr hhigh.1
  have h₁ : ¬ (0xD800 ≤ ch.toNat ∧ ch.toNat < 0xDC00) := by omega
  have h₂ : ¬ (0xDC00 ≤ ch.toNat ∧ ch.toNat < 0xE000) := by omega
  simp only [unicodeEscape, hex4_complete h, ok_bind, h₁, h₂, ↓reduceIte, charFromU32_toNat]

theorem unicodeEscape_pair {i high low : Nat} {ch : Char} {q q' tail : List Char}
    (first : scannerDialect.quad high q) (second : scannerDialect.quad low q')
    (isHigh : 0xD800 ≤ high ∧ high < 0xDC00) (isLow : 0xDC00 ≤ low ∧ low < 0xE000)
    (code : ch.toNat = 0x10000 + (high - 0xD800) * 1024 + (low - 0xDC00)) :
    unicodeEscape ⟨i, q ++ '\\' :: 'u' :: q' ++ tail⟩
      = .ok (ch, ⟨i + size (q ++ '\\' :: 'u' :: q'), tail⟩) := by
  have hsize : i + size q + 2 + size q' = i + size (q ++ '\\' :: 'u' :: q') := by
    simp only [size_append, size_cons, show '\\'.utf8Size = 1 from rfl,
      show 'u'.utf8Size = 1 from rfl]
    omega
  rw [List.append_assoc, List.cons_append, List.cons_append]
  simp only [unicodeEscape, hex4_complete first, ok_bind, isHigh, and_self, ↓reduceIte,
    hex4_complete second, isLow, ← code, charFromU32_toNat, hsize]

theorem escape_sound {c c' : Cursor} {ch : Char} (h : escape c = .ok (ch, c')) :
    ∃ t, ScannedChar ch ('\\' :: t) ∧ Consumed c t c' := by
  obtain ⟨pos, rest⟩ := c
  cases rest with
  | nil => cases h
  | cons e tl =>
    have hletter : ∀ {ch' : Char}, (e, ch') ∈ letterEscapes →
        (.ok (ch', ⟨pos + e.utf8Size, tl⟩) : V2Result (Char × Cursor)) = .ok (ch, c') →
        ∃ t, ScannedChar ch ('\\' :: t) ∧ Consumed ⟨pos, e :: tl⟩ t c' := by
      intro ch' hmem heq
      obtain ⟨rfl, rfl⟩ := Prod.mk.inj (Except.ok.inj heq)
      exact ⟨[e], .letter hmem, .head rfl rfl⟩
    unfold escape at h
    simp only at h
    split at h
    · exact hletter (by decide) h
    · exact hletter (by decide) h
    · exact hletter (by decide) h
    · exact hletter (by decide) h
    · exact hletter (by decide) h
    · exact hletter (by decide) h
    · exact hletter (by decide) h
    · exact hletter (by decide) h
    · obtain ⟨t, ht, hread⟩ := unicodeEscape_sound h
      exact ⟨'u' :: t, ht, Consumed.append (t := ['u']) (.head rfl rfl) hread⟩
    · cases h

theorem escape_complete {i : Nat} {ch : Char} {t tail : List Char}
    (h : ScannedChar ch ('\\' :: t)) :
    escape ⟨i, t ++ tail⟩ = .ok (ch, ⟨i + size t, tail⟩) := by
  generalize htext : '\\' :: t = text at h
  cases h with
  | plain quote backslash control => exact absurd (List.cons.inj htext).1.symm backslash
  | @letter e c escape =>
    obtain ⟨-, rfl⟩ := List.cons.inj htext
    simp only [letterEscapes, List.mem_cons, Prod.mk.injEq, List.not_mem_nil, or_false] at escape
    rcases escape with ⟨rfl, rfl⟩ | ⟨rfl, rfl⟩ | ⟨rfl, rfl⟩ | ⟨rfl, rfl⟩ | ⟨rfl, rfl⟩ | ⟨rfl, rfl⟩
      | ⟨rfl, rfl⟩ | ⟨rfl, rfl⟩ <;> rfl
  | unit code =>
    obtain ⟨-, rfl⟩ := List.cons.inj htext
    rw [List.cons_append, escape_u, unicodeEscape_unit code, size_cons, Nat.add_assoc]
  | pair first second isHigh isLow code =>
    obtain ⟨-, rfl⟩ := List.cons.inj htext
    rw [List.cons_append, escape_u, unicodeEscape_pair first second isHigh isLow code, size_cons,
      Nat.add_assoc]

theorem stringBody_sound {fuel : Nat} : ∀ {out : List Char} {c c' : Cursor} {s : String},
    stringBody fuel out c = .ok (s, c') → ∃ cs ts, s = String.ofList (out ++ cs)
      ∧ List.Forall₂ ScannedChar cs ts ∧ Consumed c (ts.flatten ++ ['"']) c' := by
  induction fuel with
  | zero =>
    intro out c c' s h
    cases h
  | succ fuel ih =>
    intro out c c' s h
    unfold stringBody at h
    split at h
    · cases h
    · rename_i ch tl hrest
      split_ifs at h with hquote hbackslash hcontrol
      · obtain ⟨rfl, rfl⟩ := Prod.mk.inj (Except.ok.inj h)
        exact ⟨[], [], by rw [List.append_nil], .nil, .head (by rw [hrest, hquote]) rfl⟩
      · obtain ⟨⟨e, c₁⟩, he, h⟩ := bind_eq_ok_iff.mp h
        obtain ⟨t, ht, hread⟩ := escape_sound he
        obtain ⟨cs, ts, hs, hts, hrest'⟩ := ih h
        have hslash : Consumed c ['\\'] ⟨c.pos + 1, tl⟩ := .head (by rw [hrest, hbackslash]) rfl
        refine ⟨e :: cs, ('\\' :: t) :: ts, by rw [hs, List.append_assoc]; rfl, .cons ht hts, ?_⟩
        have hall := hslash.append (hread.append hrest')
        rwa [List.flatten_cons, List.append_assoc]
      · cases h
      · obtain ⟨cs, ts, hs, hts, hrest'⟩ := ih h
        have hplain : Consumed c [ch] ⟨c.pos + ch.utf8Size, tl⟩ := .head hrest rfl
        refine ⟨ch :: cs, [ch] :: ts, by rw [hs, List.append_assoc]; rfl,
          .cons (.plain hquote hbackslash (by omega)) hts, ?_⟩
        have hall := hplain.append hrest'
        rwa [List.flatten_cons, List.append_assoc]

/-- One round reads one character. -/
theorem stringBody_char {ch : Char} {t : List Char} (h : ScannedChar ch t) (fuel i : Nat)
    (out tail : List Char) :
    stringBody (fuel + 1) out ⟨i, t ++ tail⟩ = stringBody fuel (out ++ [ch]) ⟨i + size t, tail⟩ := by
  have hescaped : ∀ u, t = '\\' :: u → stringBody (fuel + 1) out ⟨i, t ++ tail⟩
      = stringBody fuel (out ++ [ch]) ⟨i + size t, tail⟩ := by
    rintro u rfl
    have hread : escape ⟨i + 1, u ++ tail⟩ = _ := escape_complete h
    have hne : ¬ '\\' = '"' := by decide
    simp only [List.cons_append, stringBody, hne, ↓reduceIte, hread, ok_bind, size_cons,
      show '\\'.utf8Size = 1 from rfl, Nat.add_assoc]
  cases h with
  | plain quote backslash control =>
    have hnot : ¬ ch.toNat < 0x20 := by omega
    simp only [List.cons_append, List.nil_append, stringBody, quote, backslash, hnot, ↓reduceIte,
      size_cons, size_nil, Nat.add_zero]
  | letter escape => exact hescaped _ rfl
  | unit code => exact hescaped _ rfl
  | pair first second isHigh isLow code => exact hescaped _ rfl

theorem stringBody_complete {cs : List Char} {ts : List (List Char)}
    (h : List.Forall₂ ScannedChar cs ts) (fuel i : Nat) (out tail : List Char)
    (hfuel : cs.length < fuel) :
    stringBody fuel out ⟨i, ts.flatten ++ '"' :: tail⟩
      = .ok (String.ofList (out ++ cs), ⟨i + size (ts.flatten ++ ['"']), tail⟩) := by
  induction h generalizing fuel i out with
  | nil =>
    obtain ⟨fuel, rfl⟩ := Nat.exists_eq_succ_of_ne_zero (Nat.ne_of_gt hfuel)
    simp [stringBody]
    rfl
  | @cons ch t cs ts hch _ ih =>
    obtain ⟨fuel, rfl⟩ := Nat.exists_eq_succ_of_ne_zero (Nat.ne_of_gt (Nat.zero_lt_of_lt hfuel))
    have hlt : cs.length < fuel := by
      rw [List.length_cons] at hfuel
      omega
    have hstep : stringBody (fuel + 1) out ⟨i, t ++ (ts.flatten ++ '"' :: tail)⟩
        = stringBody fuel (out ++ [ch]) ⟨i + size t, ts.flatten ++ '"' :: tail⟩ :=
      stringBody_char hch fuel i out _
    rw [List.flatten_cons, List.append_assoc, hstep, ih fuel _ _ hlt, List.append_assoc,
      List.append_assoc, size_append t, ← Nat.add_assoc]
    rfl

/-- A string as the scanner reads it. -/
abbrev ScannedString := StringText scannerDialect.quad

theorem string_sound {c c' : Cursor} {s : String} (hquote : c.rest.head? = some '"')
    (h : string c = .ok (s, c')) : ∃ t, ScannedString s t ∧ Consumed c t c' := by
  obtain ⟨tl, htl⟩ := List.head?_eq_some_iff.mp hquote
  obtain ⟨cs, ts, rfl, hts, hread⟩ := stringBody_sound h
  refine ⟨_, ⟨ts, ?_, rfl⟩, ?_⟩
  · rw [List.nil_append, String.toList_ofList]
    exact hts
  · have hopen : Consumed c ['"'] ⟨c.pos + 1, c.rest.tail⟩ := .head (by rw [htl]; rfl) rfl
    exact hopen.append hread

theorem string_complete {i : Nat} {s : String} {t tail : List Char} (h : ScannedString s t) :
    string ⟨i, t ++ tail⟩ = .ok (s, ⟨i + size t, tail⟩) := by
  obtain ⟨ts, hts, rfl⟩ := h
  have hlen : s.toList.length ≤ ts.flatten.length := by
    generalize s.toList = cs at hts
    induction hts with
    | nil => exact Nat.zero_le _
    | @cons ch t cs ts hch _ ih =>
      have hpos : 0 < t.length := by
        cases hch <;> exact Nat.succ_pos _
      rw [List.length_cons, List.flatten_cons, List.length_append]
      omega
  have hbody := stringBody_complete hts ('"' :: ts.flatten ++ ['"'] ++ tail).length (i + 1) [] tail
    (by simp only [List.length_cons, List.length_append]; omega)
  rw [List.nil_append, String.ofList_toList] at hbody
  have hrest : ('"' :: ts.flatten ++ ['"'] ++ tail).tail = ts.flatten ++ '"' :: tail := by
    simp only [List.cons_append, List.tail_cons, List.append_assoc, List.nil_append]
  have hpos : i + 1 + size (ts.flatten ++ ['"']) = i + size ('"' :: ts.flatten ++ ['"']) := by
    rw [List.cons_append, size_cons, Nat.add_assoc]
    rfl
  rw [string, hrest, hbody, hpos]

/-! ## Containers -/

section Containers

variable {element : Cursor → V2Result (JNode × Cursor)}
  {elementText : Nat → JNode → List Char → Prop}

/-- What is read is a text of the grammar, after white space. -/
def Sound (element : Cursor → V2Result (JNode × Cursor))
    (elementText : Nat → JNode → List Char → Prop) : Prop :=
  ∀ c n c', element c = .ok (n, c') →
    ∃ w t, Space w ∧ elementText (c.pos + size w) n t ∧ Consumed c (w ++ t) c'

/-- Every text of the grammar is read, up to a boundary. -/
structure Complete (element : Cursor → V2Result (JNode × Cursor))
    (elementText : Nat → JNode → List Char → Prop) : Prop where
  opens : ∀ i n t, elementText i n t → Opens t
  reads : ∀ i n w t tail, Space w → elementText (i + size w) n t → Boundary tail →
    element ⟨i, w ++ t ++ tail⟩ = .ok (n, ⟨i + size (w ++ t), tail⟩)

theorem items_sound (hsound : Sound element elementText) {fuel : Nat} :
    ∀ {acc xs : List JNode} {c c' : Cursor}, items element fuel acc c = .ok (xs, c') →
      ∃ ys t, xs = acc ++ ys ∧ ItemsText elementText c.pos ys t
        ∧ Consumed c (t ++ [']']) c' := by
  induction fuel with
  | zero =>
    intro acc xs c c' h
    cases h
  | succ fuel ih =>
    intro acc xs c c' h
    obtain ⟨⟨item, c₁⟩, hitem, h⟩ := bind_eq_ok_iff.mp h
    obtain ⟨w, t, hw, htext, hread⟩ := hsound c item c₁ hitem
    obtain ⟨w', hw', hskip, -⟩ := ws_consumed c₁
    simp only at h
    split at h
    · rename_i tl hrest
      obtain ⟨ys, u, rfl, hys, hread'⟩ := ih h
      have hcomma : Consumed (ws c₁) [','] ⟨(ws c₁).pos + 1, tl⟩ := .head hrest rfl
      refine ⟨item :: ys, w ++ t ++ w' ++ ',' :: u, by rw [List.append_assoc]; rfl,
        .more hw htext hw' ?_, ?_⟩
      · have hpos : (ws c₁).pos + 1 = c.pos + size (w ++ t ++ w') + 1 := by
          rw [(hread.append hskip).pos]
        rw [← hpos]
        exact hys
      · have hall := (hread.append hskip).append (hcomma.append hread')
        simpa only [List.append_assoc, List.cons_append, List.nil_append] using hall
    · rename_i tl hrest
      obtain ⟨rfl, rfl⟩ := Prod.mk.inj (Except.ok.inj h)
      have hclose : Consumed (ws c₁) [']'] ⟨(ws c₁).pos + 1, tl⟩ := .head hrest rfl
      exact ⟨[item], w ++ t ++ w', rfl, .last hw htext hw', (hread.append hskip).append hclose⟩
    · cases h

theorem items_complete (hcomplete : Complete element elementText) {i : Nat} {ys : List JNode}
    {t : List Char} (h : ItemsText elementText i ys t) (fuel : Nat) (acc : List JNode)
    (tail : List Char) (hfuel : ys.length ≤ fuel) :
    items element fuel acc ⟨i, t ++ ']' :: tail⟩
      = .ok (acc ++ ys, ⟨i + size (t ++ [']']), tail⟩) := by
  induction h generalizing fuel acc with
  | @last i x w t w' before item after =>
    obtain ⟨fuel, rfl⟩ := Nat.exists_eq_succ_of_ne_zero (Nat.ne_of_gt hfuel)
    have hboundary : Boundary (w' ++ ']' :: tail) := boundary_space after (boundary_bracket tail)
    have hread := hcomplete.reads i x w t _ before item hboundary
    have hclose : NoSpace (']' :: tail) := noSpace_cons (by decide)
    have hskip := ws_space (i := i + size (w ++ t)) after hclose
    rw [List.append_assoc (w ++ t), items, hread, ok_bind]
    simp only [hskip]
    rw [List.append_assoc, size_append (w ++ t), size_append w', ← Nat.add_assoc, ← Nat.add_assoc]
    rfl
  | @more i x xs w t w' rest before item after _ ih =>
    obtain ⟨fuel, rfl⟩ := Nat.exists_eq_succ_of_ne_zero (Nat.ne_of_gt (Nat.zero_lt_of_lt hfuel))
    have hle : xs.length ≤ fuel := by
      rw [List.length_cons] at hfuel
      omega
    have hboundary : Boundary (w' ++ ',' :: (rest ++ ']' :: tail)) :=
      boundary_space after (boundary_comma _)
    have hread := hcomplete.reads i x w t _ before item hboundary
    have hcomma : NoSpace (',' :: (rest ++ ']' :: tail)) := noSpace_cons (by decide)
    have hskip := ws_space (i := i + size (w ++ t)) after hcomma
    have hpos : i + size (w ++ t) + size w' + 1 = i + size (w ++ t ++ w') + 1 := by
      rw [size_append (w ++ t), Nat.add_assoc i]
    rw [List.append_assoc, List.append_assoc (w ++ t), List.cons_append, items, hread, ok_bind]
    simp only [hskip]
    rw [hpos, ih fuel _ hle, List.append_assoc acc]
    have hend : i + size (w ++ t ++ w') + 1 + size (rest ++ [']'])
        = i + size (w ++ t ++ w' ++ ',' :: rest ++ [']']) := by
      rw [List.append_assoc (w ++ t ++ w'), size_append (w ++ t ++ w'), List.cons_append, size_cons]
      simp only [show ','.utf8Size = 1 from rfl, Nat.add_assoc]
    rw [hend]
    rfl

theorem member_sound (hsound : Sound element elementText) {fields : List (String × JNode)}
    {m : String × JNode} {c c' : Cursor} (h : member element fields c = .ok (m, c')) :
    m.1 ∉ fields.map Prod.fst ∧ ∃ t, Consumed c t c' ∧ ∀ w₃, Space w₃ →
      MemberText scannerDialect.quad elementText c.pos m (t ++ w₃) := by
  unfold member at h
  obtain ⟨hquote, h⟩ := refuseIf_bind_eq_ok_iff.mp h
  obtain ⟨⟨key, c₁⟩, hkey, h⟩ := bind_eq_ok_iff.mp h
  obtain ⟨hnew, h⟩ := refuseIf_bind_eq_ok_iff.mp h
  obtain ⟨hcolon, h⟩ := refuseIf_bind_eq_ok_iff.mp h
  obtain ⟨⟨value, c₂⟩, hvalue, h⟩ := bind_eq_ok_iff.mp h
  obtain ⟨rfl, rfl⟩ := Prod.mk.inj (Except.ok.inj h)
  obtain ⟨w₀, h₀, hread₀, -⟩ := ws_consumed c
  have hhead : (ws c).rest.head? = some '"' := by simpa using hquote
  obtain ⟨k, hk, hreadKey⟩ := string_sound hhead hkey
  obtain ⟨w₁, h₁, hread₁, -⟩ := ws_consumed c₁
  obtain ⟨w₂, t, h₂, ht, hreadValue⟩ := hsound _ _ _ hvalue
  have hcolon' : (ws c₁).rest.head? = some ':' := by simpa using hcolon
  obtain ⟨tl, htl⟩ := List.head?_eq_some_iff.mp hcolon'
  have hreadColon : Consumed (ws c₁) [':'] ⟨(ws c₁).pos + 1, (ws c₁).rest.tail⟩ :=
    .head (by rw [htl]; rfl) rfl
  refine ⟨?_, w₀ ++ k ++ w₁ ++ ':' :: (w₂ ++ t), ?_, ?_⟩
  · intro hmem
    obtain ⟨f, hf, hkeyEq⟩ := List.mem_map.mp hmem
    exact List.any_eq_false.mp hnew f hf (by simpa using hkeyEq)
  · have hall := ((hread₀.append hreadKey).append hread₁).append (hreadColon.append hreadValue)
    simpa only [List.cons_append, List.nil_append] using hall
  · intro w₃ h₃
    refine ⟨w₀, k, w₁, w₂, t, w₃, h₀, hk, h₁, h₂, ?_, h₃, by simp only [List.append_assoc,
      List.cons_append]⟩
    have hpos : (ws c₁).pos + 1 + size w₂ = c.pos + size (w₀ ++ k ++ w₁) + 1 + size w₂ := by
      rw [((hread₀.append hreadKey).append hread₁).pos]
    exact hpos ▸ ht

theorem members_sound (hsound : Sound element elementText) {fuel : Nat} :
    ∀ {fields ms : List (String × JNode)} {c c' : Cursor},
      (fields.map Prod.fst).Nodup → members element fuel fields c = .ok (ms, c') →
      ∃ new t, ms = fields ++ new ∧ (ms.map Prod.fst).Nodup
        ∧ MembersText scannerDialect.quad elementText c.pos new t
        ∧ Consumed c (t ++ ['\x7d']) c' := by
  induction fuel with
  | zero =>
    intro fields ms c c' _ h
    cases h
  | succ fuel ih =>
    intro fields ms c c' hnodup h
    obtain ⟨⟨m, c₁⟩, hm, h⟩ := bind_eq_ok_iff.mp h
    obtain ⟨hnew, t, hread, htext⟩ := member_sound hsound hm
    obtain ⟨w, hw, hskip, -⟩ := ws_consumed c₁
    have hnodup' : ((fields ++ [m]).map Prod.fst).Nodup := by
      rw [List.map_append, List.nodup_append]
      refine ⟨hnodup, List.nodup_singleton _, ?_⟩
      intro k hk k' hk' heq
      obtain rfl : k' = m.1 := List.mem_singleton.mp hk'
      exact hnew (heq ▸ hk)
    simp only at h
    split at h
    · rename_i tl hrest
      obtain ⟨new, u, rfl, hall, hnewText, hread'⟩ := ih hnodup' h
      have hcomma : Consumed (ws c₁) [','] ⟨(ws c₁).pos + 1, tl⟩ := .head hrest rfl
      refine ⟨m :: new, t ++ w ++ ',' :: u, by rw [List.append_assoc]; rfl, hall,
        .more (htext w hw) ?_, ?_⟩
      · have hpos : (ws c₁).pos + 1 = c.pos + size (t ++ w) + 1 := by
          rw [(hread.append hskip).pos]
        rw [← hpos]
        exact hnewText
      · have hcat := (hread.append hskip).append (hcomma.append hread')
        simpa only [List.append_assoc, List.cons_append, List.nil_append] using hcat
    · rename_i tl hrest
      obtain ⟨rfl, rfl⟩ := Prod.mk.inj (Except.ok.inj h)
      have hclose : Consumed (ws c₁) ['\x7d'] ⟨(ws c₁).pos + 1, tl⟩ := .head hrest rfl
      exact ⟨[m], t ++ w, rfl, hnodup', .last (htext w hw), (hread.append hskip).append hclose⟩
    · cases h

theorem opens_string {s : String} {t : List Char} (h : ScannedString s t) : Opens t := by
  obtain ⟨ts, -, rfl⟩ := h
  exact ⟨'"', ts.flatten ++ ['"'], rfl, by decide, by decide, by decide⟩

theorem member_complete (hcomplete : Complete element elementText) {i : Nat}
    {fields : List (String × JNode)} {m : String × JNode} {t tail : List Char}
    (hnew : m.1 ∉ fields.map Prod.fst) (h : MemberText scannerDialect.quad elementText i m t)
    (htail : Boundary tail) (hclose : NoSpace tail) :
    ∃ c, member element fields ⟨i, t ++ tail⟩ = .ok (m, c) ∧ ws c = ⟨i + size t, tail⟩ := by
  obtain ⟨w₀, k, w₁, w₂, u, w₃, h₀, hname, h₁, h₂, hvalue, h₃, rfl⟩ := h
  have hskip₀ : ws ⟨i, w₀ ++ (k ++ (w₁ ++ ':' :: (w₂ ++ u ++ (w₃ ++ tail))))⟩
      = ⟨i + size w₀, k ++ (w₁ ++ ':' :: (w₂ ++ u ++ (w₃ ++ tail)))⟩ :=
    ws_space h₀ (noSpace_of_opens (opens_string hname) _)
  have hquote : (k ++ (w₁ ++ ':' :: (w₂ ++ u ++ (w₃ ++ tail)))).head? = some '"' := by
    obtain ⟨ts, -, rfl⟩ := hname
    rfl
  have hkey : string ⟨i + size w₀, k ++ (w₁ ++ ':' :: (w₂ ++ u ++ (w₃ ++ tail)))⟩ = _ :=
    string_complete hname
  have hskip₁ : ws ⟨i + size w₀ + size k, w₁ ++ ':' :: (w₂ ++ u ++ (w₃ ++ tail))⟩
      = ⟨i + size w₀ + size k + size w₁, ':' :: (w₂ ++ u ++ (w₃ ++ tail))⟩ :=
    ws_space h₁ (noSpace_cons (by decide))
  have hstart : i + size w₀ + size k + size w₁ + 1 = i + size (w₀ ++ k ++ w₁) + 1 := by
    simp only [size_append]
    omega
  have hread := hcomplete.reads _ _ _ _ (w₃ ++ tail) h₂ hvalue (boundary_space h₃ htail)
  have hfresh : (fields.any fun f => f.1 == m.1) = false := by
    rw [List.any_eq_false]
    intro f hf heq
    exact hnew (List.mem_map.mpr ⟨f, hf, by simpa using heq⟩)
  refine ⟨⟨i + size (w₀ ++ k ++ w₁) + 1 + size (w₂ ++ u), w₃ ++ tail⟩, ?_, ?_⟩
  · have htext : w₀ ++ k ++ w₁ ++ ':' :: (w₂ ++ u ++ w₃) ++ tail
        = w₀ ++ (k ++ (w₁ ++ ':' :: (w₂ ++ u ++ (w₃ ++ tail)))) := by
      simp only [List.append_assoc, List.cons_append]
    rw [htext]
    simp only [member, hskip₀, hquote, hkey, hskip₁, hfresh, hstart, hread, refuseIf, ok_bind,
      List.head?_cons, List.tail_cons, bne_self_eq_false, Bool.false_eq_true, ↓reduceIte]
  · rw [ws_space h₃ hclose]
    simp only [size_append, size_cons, show ':'.utf8Size = 1 from rfl, Cursor.mk.injEq, and_true]
    omega

theorem members_complete (hcomplete : Complete element elementText) {i : Nat}
    {new : List (String × JNode)} {t : List Char}
    (h : MembersText scannerDialect.quad elementText i new t) (fuel : Nat)
    (fields : List (String × JNode)) (tail : List Char) (hfuel : new.length ≤ fuel)
    (hnodup : ((fields ++ new).map Prod.fst).Nodup) :
    members element fuel fields ⟨i, t ++ '\x7d' :: tail⟩
      = .ok (fields ++ new, ⟨i + size (t ++ ['\x7d']), tail⟩) := by
  have hnotMem : ∀ {fields : List (String × JNode)} {m : String × JNode}
      {ms : List (String × JNode)}, ((fields ++ m :: ms).map Prod.fst).Nodup →
      m.1 ∉ fields.map Prod.fst := by
    intro fields m ms hall hmem
    rw [List.map_append, List.nodup_append] at hall
    exact hall.2.2 _ hmem _ (List.mem_cons_self ..) rfl
  induction h generalizing fuel fields with
  | @last i m t member =>
    obtain ⟨fuel, rfl⟩ := Nat.exists_eq_succ_of_ne_zero (Nat.ne_of_gt hfuel)
    obtain ⟨c, hc, hskip⟩ := member_complete hcomplete (hnotMem hnodup) member
      (boundary_brace tail) (noSpace_cons (by decide))
    rw [members, hc, ok_bind]
    simp only [hskip]
    rw [size_append, ← Nat.add_assoc]
    rfl
  | @more i m ms t rest member _ ih =>
    obtain ⟨fuel, rfl⟩ := Nat.exists_eq_succ_of_ne_zero (Nat.ne_of_gt (Nat.zero_lt_of_lt hfuel))
    have hle : ms.length ≤ fuel := by
      rw [List.length_cons] at hfuel
      omega
    obtain ⟨c, hc, hskip⟩ := member_complete hcomplete (hnotMem hnodup) member
      (boundary_comma (rest ++ '\x7d' :: tail)) (noSpace_cons (by decide))
    have hrest := ih fuel (fields ++ [m]) hle
      (by rw [List.append_assoc, List.singleton_append]; exact hnodup)
    rw [List.append_assoc, List.cons_append, members, hc, ok_bind]
    simp only [hskip]
    have hend : i + size t + 1 + size (rest ++ ['\x7d'])
        = i + size (t ++ ',' :: rest ++ ['\x7d']) := by
      rw [List.append_assoc t, size_append t, List.cons_append, size_cons]
      simp only [show ','.utf8Size = 1 from rfl, Nat.add_assoc]
    rw [hrest, List.append_assoc fields, hend]
    rfl

theorem container_sound {α : Type} {close : Char} {empty x : α} {c c' : Cursor}
    {body : Nat → Cursor → V2Result (α × Cursor)} (hsize : close.utf8Size = 1)
    (h : container close empty c body = .ok (x, c')) :
    (∃ w, Space w ∧ x = empty ∧ Consumed c (w ++ [close]) c')
      ∨ ∃ fuel w, Space w ∧ Consumed c w (ws c) ∧ body fuel (ws c) = .ok (x, c') := by
  obtain ⟨w, hw, hskip, -⟩ := ws_consumed c
  unfold container at h
  simp only at h
  split at h
  · rename_i ch tl hrest
    split_ifs at h with hclose
    · obtain ⟨rfl, rfl⟩ := Prod.mk.inj (Except.ok.inj h)
      have hread : Consumed (ws c) [close] ⟨(ws c).pos + 1, tl⟩ :=
        .head (by rw [hrest, hclose]) (by rw [hsize])
      exact .inl ⟨w, hw, rfl, hskip.append hread⟩
    · exact .inr ⟨_, w, hw, hskip, h⟩
  · exact .inr ⟨_, w, hw, hskip, h⟩

theorem container_empty {α : Type} {close : Char} {empty : α} {i : Nat} {w tail : List Char}
    {body : Nat → Cursor → V2Result (α × Cursor)} (hclose : close = ']' ∨ close = '\x7d')
    (hw : Space w) :
    container close empty ⟨i, w ++ close :: tail⟩ body
      = .ok (empty, ⟨i + size (w ++ [close]), tail⟩) := by
  have hws : isWs close = false := by
    rcases hclose with rfl | rfl <;> decide
  have hsize : size (w ++ [close]) = size w + 1 := by
    rw [size_append]
    rcases hclose with rfl | rfl <;> rfl
  have hclosed : NoSpace (close :: tail) := noSpace_cons hws
  have hskip := ws_space (i := i) hw hclosed
  simp only [container, hskip, ↓reduceIte, hsize, Nat.add_assoc]

/-- A container that does not close at once hands its body over after the white space. -/
theorem container_body {α : Type} {close : Char} {empty : α} {i : Nat} {w t tail : List Char}
    {body : Nat → Cursor → V2Result (α × Cursor)} (hclose : close = ']' ∨ close = '\x7d')
    (hw : Space w) (h : Opens t) :
    container close empty ⟨i, w ++ t ++ tail⟩ body
      = body ((t ++ tail).length + 1) ⟨i + size w, t ++ tail⟩ := by
  have hopens : Opens (t ++ tail) := by
    obtain ⟨c, cs, rfl, hc⟩ := h
    exact ⟨c, cs ++ tail, rfl, hc⟩
  have hskip := ws_space (i := i) hw (noSpace_of_opens h tail)
  rw [List.append_assoc]
  have hsame : container close empty ⟨i, w ++ (t ++ tail)⟩ body
      = container close empty ⟨i + size w, t ++ tail⟩ body := by
    simp only [container, hskip, ws_of_opens hopens]
  rw [hsame, container_of_opens hopens hclose]

theorem length_le_of_itemsText (hopens : ∀ i n t, elementText i n t → Opens t) {i : Nat}
    {xs : List JNode} {t : List Char} (h : ItemsText elementText i xs t) :
    xs.length ≤ t.length := by
  induction h with
  | last before item after =>
    obtain ⟨c, cs, rfl, -⟩ := hopens _ _ _ item
    simp only [List.length_append, List.length_cons, List.length_nil]
    omega
  | more before item after _ ih =>
    simp only [List.length_append, List.length_cons]
    omega

theorem length_le_of_membersText {quad : Nat → List Char → Prop} {i : Nat}
    {ms : List (String × JNode)} {t : List Char} (h : MembersText quad elementText i ms t) :
    ms.length ≤ t.length := by
  induction h with
  | last member =>
    obtain ⟨w₀, k, w₁, w₂, u, w₃, h₀, hname, h₁, h₂, hvalue, h₃, rfl⟩ := member
    simp only [List.length_append, List.length_cons, List.length_nil]
    omega
  | more member _ ih =>
    simp only [List.length_append, List.length_cons]
    omega

theorem opens_of_opens_append {t r : List Char} (h : Opens t) : Opens (t ++ r) := by
  obtain ⟨c, cs, rfl, hc⟩ := h
  exact ⟨c, cs ++ r, rfl, hc⟩

theorem array_complete (hcomplete : Complete element elementText) {i : Nat} {xs : List JNode}
    {t tail : List Char} (h : ItemsText elementText i xs t) :
    container ']' [] ⟨i, t ++ ']' :: tail⟩ (fun fuel c => items element fuel [] c)
      = .ok (xs, ⟨i + size (t ++ [']']), tail⟩) := by
  obtain ⟨w, t', hw, rfl, hitems, x, u, r, hx, rfl⟩ := h.exists_space
  have hopens := opens_of_opens_append (r := r) (hcomplete.opens _ _ _ hx)
  have hlen := length_le_of_itemsText hcomplete.opens hitems
  rw [container_body (.inl rfl) hw hopens, items_complete hcomplete hitems _ _ _
    (by rw [List.length_append]; omega), List.nil_append, Nat.add_assoc, ← size_append,
    ← List.append_assoc w]

theorem object_complete (hcomplete : Complete element elementText) {i : Nat}
    {ms : List (String × JNode)} {t tail : List Char}
    (h : MembersText scannerDialect.quad elementText i ms t) (hnames : (ms.map Prod.fst).Nodup) :
    container '\x7d' [] ⟨i, t ++ '\x7d' :: tail⟩ (fun fuel c => members element fuel [] c)
      = .ok (ms, ⟨i + size (t ++ ['\x7d']), tail⟩) := by
  obtain ⟨w, t', hw, rfl, hmembers⟩ := h.exists_space
  have hopens : Opens ('"' :: t') := ⟨'"', t', rfl, by decide, by decide, by decide⟩
  have hlen := length_le_of_membersText hmembers
  rw [container_body (.inr rfl) hw hopens, members_complete hcomplete hmembers _ [] tail
    (by rw [List.length_append]; omega) hnames, List.nil_append, Nat.add_assoc, ← size_append,
    ← List.append_assoc w]

end Containers

/-! ## Values -/

section Values

variable {element? : Option (Cursor → V2Result (JNode × Cursor))}
  {elementText? : Option (Nat → JNode → List Char → Prop)}

/-- A node as the scanner reads it, given its elements. -/
def NodeText (elementText? : Option (Nat → JNode → List Char → Prop)) (i : Nat) (n : JNode)
    (t : List Char) : Prop :=
  ∃ shape, ShapeText scannerDialect elementText? i shape t
    ∧ n = JNode.ofShape shape i (i + size t)

theorem literal_sound {text : List Char} {v v' : JV} {c c' : Cursor}
    (hascii : ∀ ch ∈ text, ch.toNat ≤ 127) (h : literal text v c = .ok (v', c')) :
    v' = v ∧ Consumed c text c' := by
  unfold literal at h
  split_ifs at h with hstart
  · obtain ⟨rfl, rfl⟩ := Prod.mk.inj (Except.ok.inj h)
    obtain ⟨r, hr⟩ := List.isPrefixOf_iff_prefix.mp hstart
    refine ⟨rfl, ?_, by rw [size_of_ascii hascii]⟩
    rw [← hr, List.drop_left]
  · cases h

/-- The elements of a container against their grammar, where there is room for one. -/
structure Matches (element? : Option (Cursor → V2Result (JNode × Cursor)))
    (elementText? : Option (Nat → JNode → List Char → Prop)) : Prop where
  sound : ∀ element, element? = some element →
    ∃ elementText, elementText? = some elementText ∧ Sound element elementText
  complete : ∀ elementText, elementText? = some elementText →
    ∃ element, element? = some element ∧ Complete element elementText

theorem array_sound {element : Cursor → V2Result (JNode × Cursor)}
    {elementText : Nat → JNode → List Char → Prop} (hsound : Sound element elementText)
    (hroom : elementText? = some elementText) {c c' : Cursor} {xs : List JNode} {tl : List Char}
    (hc : c.rest = '[' :: tl)
    (h : container ']' [] ⟨c.pos + 1, tl⟩ (fun fuel c => items element fuel [] c)
      = .ok (xs, c')) :
    ∃ t, ShapeText scannerDialect elementText? c.pos (.arr xs) t ∧ Consumed c t c' := by
  have hopen : Consumed c ['['] ⟨c.pos + 1, tl⟩ := .head hc rfl
  rcases container_sound rfl h with ⟨w, hw, rfl, hread⟩ | ⟨fuel, w, hw, hskip, hbody⟩
  · exact ⟨_, .emptyArr hroom hw, hopen.append hread⟩
  · obtain ⟨ys, t, rfl, hitems, hread⟩ := items_sound hsound hbody
    rw [hskip.pos] at hitems
    refine ⟨_, .arr hroom (hitems.space hw), ?_⟩
    have hall := hopen.append (hskip.append hread)
    rwa [← List.append_assoc w] at hall

theorem object_sound {element : Cursor → V2Result (JNode × Cursor)}
    {elementText : Nat → JNode → List Char → Prop} (hsound : Sound element elementText)
    (hroom : elementText? = some elementText) {c c' : Cursor} {ms : List (String × JNode)}
    {tl : List Char} (hc : c.rest = '\x7b' :: tl)
    (h : container '\x7d' [] ⟨c.pos + 1, tl⟩ (fun fuel c => members element fuel [] c)
      = .ok (ms, c')) :
    ∃ t, ShapeText scannerDialect elementText? c.pos (.obj ms) t ∧ Consumed c t c' := by
  have hopen : Consumed c ['\x7b'] ⟨c.pos + 1, tl⟩ := .head hc rfl
  rcases container_sound rfl h with ⟨w, hw, rfl, hread⟩ | ⟨fuel, w, hw, hskip, hbody⟩
  · exact ⟨_, .emptyObj hroom hw, hopen.append hread⟩
  · have hempty : (([] : List (String × JNode)).map Prod.fst).Nodup := List.nodup_nil
    obtain ⟨new, t, rfl, hnames, hmembers, hread⟩ := members_sound hsound hempty hbody
    rw [hskip.pos] at hmembers
    refine ⟨_, .obj hroom (hmembers.space hw) hnames, ?_⟩
    have hall := hopen.append (hskip.append hread)
    rwa [← List.append_assoc w] at hall

theorem valueBody_sound (hmatch : Matches element? elementText?) :
    Sound (valueBody element?) (NodeText elementText?) := by
  intro c n c' h
  obtain ⟨w, hw, hskip, -⟩ := ws_consumed c
  have hfinish : ∀ {v c₁} shape t, v = JV.ofShape shape →
      ShapeText scannerDialect elementText? (ws c).pos shape t → Consumed (ws c) t c₁ →
      (.ok (.mk v (ws c).pos c₁.pos, c₁) : V2Result (JNode × Cursor)) = .ok (n, c') →
      ∃ w t, Space w ∧ NodeText elementText? (c.pos + size w) n t ∧ Consumed c (w ++ t) c' := by
    rintro _ c₁ shape t rfl htext hread heq
    obtain ⟨rfl, rfl⟩ := Prod.mk.inj (Except.ok.inj heq)
    refine ⟨w, t, hw, ⟨shape, ?_, ?_⟩, hskip.append hread⟩
    · rw [← hskip.pos]
      exact htext
    · rw [JNode.ofShape, hread.pos, hskip.pos]
  unfold valueBody at h
  simp only at h
  split at h
  · cases h
  · rename_i ch tl hrest
    split_ifs at h with hbrace hbracket hquote ht hf hn hnumber
    · subst hbrace
      split at h
      · cases h
      · rename_i element
        obtain ⟨elementText, hroom, hsound⟩ := hmatch.sound element rfl
        obtain ⟨⟨ms, c₂⟩, hms, h⟩ := bind_eq_ok_iff.mp h
        obtain ⟨t, htext, hread⟩ := object_sound hsound hroom hrest hms
        exact hfinish _ t rfl htext hread h
    · subst hbracket
      split at h
      · cases h
      · rename_i element
        obtain ⟨elementText, hroom, hsound⟩ := hmatch.sound element rfl
        obtain ⟨⟨xs, c₂⟩, hxs, h⟩ := bind_eq_ok_iff.mp h
        obtain ⟨t, htext, hread⟩ := array_sound hsound hroom hrest hxs
        exact hfinish _ t rfl htext hread h
    · obtain ⟨⟨s, c₂⟩, hs, h⟩ := bind_eq_ok_iff.mp h
      obtain ⟨t, htext, hread⟩ := string_sound (by rw [hrest, hquote]; rfl) hs
      exact hfinish (.str s) t rfl (.str htext) hread h
    · obtain ⟨⟨v, c₂⟩, hv, h⟩ := bind_eq_ok_iff.mp h
      obtain ⟨rfl, hread⟩ := literal_sound (by simp) hv
      exact hfinish (.bool true) _ rfl .true hread h
    · obtain ⟨⟨v, c₂⟩, hv, h⟩ := bind_eq_ok_iff.mp h
      obtain ⟨rfl, hread⟩ := literal_sound (by simp) hv
      exact hfinish (.bool false) _ rfl .false hread h
    · obtain ⟨⟨v, c₂⟩, hv, h⟩ := bind_eq_ok_iff.mp h
      obtain ⟨rfl, hread⟩ := literal_sound (by simp) hv
      exact hfinish .null _ rfl .null hread h
    · obtain ⟨⟨text, c₂⟩, hnum, h⟩ := bind_eq_ok_iff.mp h
      obtain ⟨m, hbound, rfl, hread⟩ := number_sound hnum
      exact hfinish (.int m) _ rfl (.int (integerText_iff.mpr rfl) hbound) hread h
    · cases h

theorem opens_of_shapeText {i : Nat} {shape : JsonShape JNode} {t : List Char}
    (h : ShapeText scannerDialect elementText? i shape t) : Opens t := by
  cases h with
  | null => exact ⟨'n', _, rfl, by decide, by decide, by decide⟩
  | true => exact ⟨'t', _, rfl, by decide, by decide, by decide⟩
  | false => exact ⟨'f', _, rfl, by decide, by decide, by decide⟩
  | int number =>
    obtain rfl := integerText_iff.mp number
    exact opens_encodeInt _
  | str string => exact opens_string string
  | emptyArr => exact ⟨'[', _, rfl, by decide, by decide, by decide⟩
  | arr => exact ⟨'[', _, rfl, by decide, by decide, by decide⟩
  | emptyObj => exact ⟨'\x7b', _, rfl, by decide, by decide, by decide⟩
  | obj => exact ⟨'\x7b', _, rfl, by decide, by decide, by decide⟩

theorem delimited_append (opening close : Char) (t tail : List Char) :
    opening :: t ++ [close] ++ tail = opening :: (t ++ close :: tail) := by
  rw [List.append_assoc, List.cons_append, List.singleton_append]

theorem size_delimited (i : Nat) {opening close : Char} {t : List Char}
    (h : opening.utf8Size = 1) :
    i + size (opening :: t ++ [close]) = i + 1 + size (t ++ [close]) := by
  rw [List.cons_append, size_cons, h, Nat.add_assoc]

theorem valueBody_shape (hmatch : Matches element? elementText?) {i : Nat}
    {shape : JsonShape JNode} {t tail : List Char}
    (h : ShapeText scannerDialect elementText? i shape t) (htail : Boundary tail) :
    valueBody element? ⟨i, t ++ tail⟩
      = .ok (JNode.ofShape shape i (i + size t), ⟨i + size t, tail⟩) := by
  cases h with
  | null => simp [valueBody, ws_cons (c := 'n') (by decide), literal]; constructor <;> rfl
  | true => simp [valueBody, ws_cons (c := 't') (by decide), literal]; constructor <;> rfl
  | false => simp [valueBody, ws_cons (c := 'f') (by decide), literal]; constructor <;> rfl
  | @int n t number range =>
    obtain rfl := integerText_iff.mp number
    have hread := number_complete range htail (i := i)
    obtain ⟨c, cs, hc, hfirst⟩ : ∃ c cs, encodeInt n = c :: cs ∧ (c = '-' ∨ c.isDigit = true) := by
      rw [encodeInt_eq]
      split
      · exact ⟨'-', _, rfl, .inl rfl⟩
      · obtain ⟨d, ds, hd⟩ :=
          List.exists_cons_of_ne_nil (Nat.toDigits_ne_nil (b := 10) (n := n.natAbs))
        exact ⟨d, ds, hd, .inr (all_isDigit_toDigits n.natAbs d (by simp [hd]))⟩
    rw [JNode.ofShape, JV.ofShape]
    rw [hc, List.cons_append] at hread ⊢
    exact valueBody_number hfirst hread
  | @str s t string =>
    have hread : V2.string ⟨i, t ++ tail⟩ = _ := string_complete string
    obtain ⟨ts, -, rfl⟩ := string
    exact valueBody_quote hread
  | @emptyArr elementText w room space =>
    obtain ⟨element, rfl, -⟩ := hmatch.complete _ room
    rw [delimited_append, size_delimited i rfl]
    exact valueBody_bracket (container_empty (.inl rfl) space)
  | @arr elementText xs t room items =>
    obtain ⟨element, rfl, hcomplete⟩ := hmatch.complete _ room
    rw [delimited_append, size_delimited i rfl]
    exact valueBody_bracket (array_complete hcomplete items)
  | @emptyObj elementText w room space =>
    obtain ⟨element, rfl, -⟩ := hmatch.complete _ room
    rw [delimited_append, size_delimited i rfl]
    exact valueBody_brace (container_empty (.inr rfl) space)
  | @obj elementText ms t room members names =>
    obtain ⟨element, rfl, hcomplete⟩ := hmatch.complete _ room
    rw [delimited_append, size_delimited i rfl]
    exact valueBody_brace (object_complete hcomplete members names)

theorem valueBody_complete (hmatch : Matches element? elementText?) :
    Complete (valueBody element?) (NodeText elementText?) where
  opens := by
    rintro i n t ⟨shape, htext, -⟩
    exact opens_of_shapeText htext
  reads := by
    rintro i n w t tail hw ⟨shape, htext, rfl⟩ htail
    have hopens := opens_of_opens_append (r := tail) (opens_of_shapeText htext)
    have hskip := ws_space (i := i) hw (noSpace_of_opens (opens_of_shapeText htext) tail)
    have hsame : valueBody element? ⟨i, w ++ (t ++ tail)⟩
        = valueBody element? ⟨i + size w, t ++ tail⟩ := by
      simp only [valueBody, hskip, ws_of_opens hopens]
    rw [List.append_assoc, hsame, valueBody_shape hmatch htext htail, size_append, ← Nat.add_assoc]

/-- The parser and the grammar of values, level by level. -/
theorem value_matches (levels : Nat) :
    Sound (value levels) (ValueText scannerDialect JNode.ofShape levels)
      ∧ Complete (value levels) (ValueText scannerDialect JNode.ofShape levels) := by
  induction levels with
  | zero =>
    have hmatch : Matches none none := ⟨fun _ h => (nomatch h), fun _ h => (nomatch h)⟩
    exact ⟨valueBody_sound hmatch, valueBody_complete hmatch⟩
  | succ levels ih =>
    have hmatch : Matches (some (value levels))
        (some (ValueText scannerDialect JNode.ofShape levels)) := by
      constructor
      · intro e he
        obtain rfl := Option.some.inj he
        exact ⟨_, rfl, ih.1⟩
      · intro e he
        obtain rfl := Option.some.inj he
        exact ⟨_, rfl, ih.2⟩
    exact ⟨valueBody_sound hmatch, valueBody_complete hmatch⟩

end Values

/-! ## Documents -/

theorem utf8_of_fromUtf8 {b : Bytes} {s : String} (h : fromUtf8 b = some s) : utf8 s = b := by
  unfold fromUtf8 String.fromUTF8? at h
  split at h
  · obtain rfl := Option.some.inj h
    have hbytes := toByteArray_utf8 (String.fromUTF8 b.toByteArray ‹_›)
    have hdata := congrArg ByteArray.data hbytes
    simpa [String.fromUTF8] using hdata
  · cases h

/-- The parser accepts exactly the texts of its grammar, and the node it returns is
the text's reading with its byte spans. -/
theorem parseJson_eq_ok_iff {b : Bytes} {n : JNode} :
    parseJson b = .ok n ↔ ∃ text, utf8Chars text = b
      ∧ DocumentText scannerDialect JNode.ofShape maxJsonNestingDepth n text := by
  obtain ⟨hsound, hcomplete⟩ := value_matches maxJsonNestingDepth
  constructor
  · intro h
    unfold parseJson at h
    split at h
    · cases h
    · rename_i s hs
      obtain ⟨⟨root, c⟩, hroot, h⟩ := bind_eq_ok_iff.mp h
      obtain ⟨htrailing, h⟩ := refuseIf_bind_eq_ok_iff.mp h
      obtain rfl := Except.ok.inj h
      obtain ⟨w, t, hw, htext, hread⟩ := hsound _ _ _ hroot
      obtain ⟨w', hw', hskip, -⟩ := ws_consumed c
      refine ⟨s.toList, utf8_of_fromUtf8 hs, w, t, w', hw, ?_, hw', ?_⟩
      · simpa only [Nat.zero_add] using htext
      · have hend : (ws c).rest = [] := by simpa using htrailing
        have hall := (hread.append hskip).rest
        rwa [hend, List.append_nil] at hall
  · rintro ⟨text, rfl, w, t, w', hw, htext, hw', rfl⟩
    have hfrom : fromUtf8 (utf8Chars (w ++ t ++ w')) = some (String.ofList (w ++ t ++ w')) := by
      rw [← utf8_ofList, fromUtf8_utf8]
    have hboundary : Boundary w' := by
      have h := boundary_space hw' boundary_nil
      rwa [List.append_nil] at h
    have hread := hcomplete.reads 0 n w t w' hw (by rw [Nat.zero_add]; exact htext) hboundary
    have hskip := ws_space (i := 0 + size (w ++ t)) hw' noSpace_nil
    rw [List.append_nil] at hskip
    simp only [parseJson, hfrom, String.toList_ofList, hread, ok_bind, hskip, refuseIf,
      bne_self_eq_false, Bool.false_eq_true, ↓reduceIte]

end RatifyProtocol.V2
