import RatifyProtocol.V2.Json
set_option autoImplicit false

/-!
# V2: the parser reads canonical text back

Canonical text of a value that nests within the limit and repeats no key parses
to a node that denotes the value (`parseJson_canonical`).  Since the parser is a
function, two values with one canonical text are denoted by one node, which is
how every injectivity fact about a signed or hashed body is obtained.
-/

namespace RatifyProtocol.V2

open Foundation

/-! ## What a node denotes -/

/-- Members in the order the writer emits them. -/
def inKeyOrder (fields : List (String × CJ)) : List (String × CJ) :=
  fields.insertionSort fun a b => a.1 ≤ b.1

/-- A parsed node holds exactly the value `v`, its members in key order. -/
inductive Denotes : CJ → JNode → Prop
  | null (i j : Nat) : Denotes .null (.mk .null i j)
  | bool (b : Bool) (i j : Nat) : Denotes (.bool b) (.mk (.bool b) i j)
  | int (n : Int) (i j : Nat) :
      Denotes (.int n) (.mk (.num (String.ofList (encodeInt n))) i j)
  | str (s : String) (i j : Nat) : Denotes (.str s) (.mk (.str s) i j)
  | bytes (b : Bytes) (i j : Nat) :
      Denotes (.bytes b) (.mk (.str (String.ofList (Base64.encodeChars b))) i j)
  | arr (xs : List CJ) (ns : List JNode) (i j : Nat) :
      List.Forall₂ Denotes xs ns → Denotes (.arr xs) (.mk (.arr ns) i j)
  | obj (fields : List (String × CJ)) (ms : List (String × JNode)) (i j : Nat) :
      (inKeyOrder fields).map Prod.fst = ms.map Prod.fst →
      List.Forall₂ Denotes ((inKeyOrder fields).map Prod.snd) (ms.map Prod.snd) →
      Denotes (.obj fields) (.mk (.obj ms) i j)

/-- A value the parser has room for: containers nest at most `levels` deep and
no object repeats a key. -/
inductive Fits : Nat → CJ → Prop
  | null (levels : Nat) : Fits levels .null
  | bool (levels : Nat) (b : Bool) : Fits levels (.bool b)
  | int (levels : Nat) (n : Int) : Fits levels (.int n)
  | str (levels : Nat) (s : String) : Fits levels (.str s)
  | bytes (levels : Nat) (b : Bytes) : Fits levels (.bytes b)
  | arr (levels : Nat) (xs : List CJ) : (∀ x ∈ xs, Fits levels x) → Fits (levels + 1) (.arr xs)
  | obj (levels : Nat) (fields : List (String × CJ)) :
      (fields.map Prod.fst).Nodup → (∀ f ∈ fields, Fits levels f.2) →
      Fits (levels + 1) (.obj fields)

theorem Fits.succ {levels : Nat} {v : CJ} (h : Fits levels v) : Fits (levels + 1) v := by
  induction h with
  | null levels => exact .null _
  | bool levels b => exact .bool _ b
  | int levels n => exact .int _ n
  | str levels s => exact .str _ s
  | bytes levels b => exact .bytes _ b
  | arr levels xs _ ih => exact .arr _ xs ih
  | obj levels fields hkeys _ ih => exact .obj _ fields hkeys ih

/-- A value that needs fewer levels has room. -/
theorem Fits.mono {levels more : Nat} {v : CJ} (h : Fits levels v) (hle : levels ≤ more) :
    Fits more v := by
  induction hle with
  | refl => exact h
  | step _ ih => exact ih.succ

/-! ## White space and token boundaries -/

theorem ws_cons {i : Nat} {c : Char} {cs : List Char} (h : isWs c = false) :
    ws ⟨i, c :: cs⟩ = ⟨i, c :: cs⟩ := by
  simp [ws, h]

@[simp] theorem ws_nil {i : Nat} : ws ⟨i, []⟩ = ⟨i, []⟩ := rfl

/-- What may follow a number without lengthening it. -/
def Boundary (tail : List Char) : Prop :=
  ∀ c cs, tail = c :: cs → c.isDigit = false ∧ c ≠ '.' ∧ c ≠ 'e' ∧ c ≠ 'E'

theorem boundary_nil : Boundary [] := by
  intro c cs h
  simp at h

theorem boundary_cons {c : Char} {cs : List Char}
    (h : c.isDigit = false ∧ c ≠ '.' ∧ c ≠ 'e' ∧ c ≠ 'E') : Boundary (c :: cs) := by
  intro d ds hd
  obtain ⟨rfl, -⟩ := List.cons.inj hd
  exact h

theorem takeWhile_isDigit_append {ds tail : List Char} (hds : ∀ d ∈ ds, d.isDigit = true)
    (ht : Boundary tail) : (ds ++ tail).takeWhile Char.isDigit = ds := by
  rw [List.takeWhile_append_of_pos hds]
  cases tail with
  | nil => simp
  | cons c cs => simp [(ht c cs rfl).1]

theorem dropWhile_isDigit_append {ds tail : List Char} (hds : ∀ d ∈ ds, d.isDigit = true)
    (ht : Boundary tail) : (ds ++ tail).dropWhile Char.isDigit = tail := by
  rw [List.dropWhile_append_of_pos hds]
  cases tail with
  | nil => simp
  | cons c cs => simp [(ht c cs rfl).1]

/-! ## Numbers -/

theorem digitChar_isDigit {n : Nat} (h : n < 10) : (Nat.digitChar n).isDigit = true := by
  have key : ∀ m : Fin 10, (Nat.digitChar m).isDigit = true := by decide
  exact key ⟨n, h⟩

/-- A positive decimal starts with a digit that is not zero. -/
theorem toDigits_eq_cons {m : Nat} (hm : 0 < m) :
    ∃ d ds, Nat.toDigits 10 m = d :: ds ∧ ('1' ≤ d ∧ d ≤ '9') ∧
      ∀ x ∈ ds, x.isDigit = true := by
  induction m using Nat.strongRecOn with
  | ind m ih =>
    by_cases hlt : m < 10
    · refine ⟨Nat.digitChar m, [], Nat.toDigits_of_lt_base hlt, ?_, by simp⟩
      have key : ∀ k : Fin 10, 0 < k.val → '1' ≤ Nat.digitChar k ∧ Nat.digitChar k ≤ '9' := by
        decide
      exact key ⟨m, hlt⟩ hm
    · obtain ⟨d, ds, hd, hfirst, hrest⟩ := ih (m / 10) (by omega) (by omega)
      refine ⟨d, ds ++ [Nat.digitChar (m % 10)], ?_, hfirst, ?_⟩
      · rw [Nat.toDigits_of_base_le (by omega) (by omega), hd, List.cons_append]
      · intro x hx
        rcases List.mem_append.mp hx with hx | hx
        · exact hrest x hx
        · rw [List.mem_singleton.mp hx]
          exact digitChar_isDigit (by omega)

theorem all_isDigit_toDigits (m : Nat) : ∀ x ∈ Nat.toDigits 10 m, x.isDigit = true :=
  fun _ hx => Nat.isDigit_of_mem_toDigits (by omega) (by omega) hx

theorem isDigit_ne {c : Char} (h : c.isDigit = true) :
    c ≠ '.' ∧ c ≠ 'e' ∧ c ≠ 'E' ∧ c ≠ '-' ∧ c ≠ '+' := by
  refine ⟨?_, ?_, ?_, ?_, ?_⟩ <;> (rintro rfl; revert h; decide)

theorem parseMagnitude_toDigits {negative : Bool} {m : Nat} (h : (m : Int) ≤ maxSafe) :
    parseMagnitude negative (Nat.toDigits 10 m)
      = some (if negative then -(m : Int) else m) := by
  have hne : Nat.toDigits 10 m ≠ [] := Nat.toDigits_ne_nil
  have hall : (Nat.toDigits 10 m).all Char.isDigit = true :=
    List.all_eq_true.mpr (all_isDigit_toDigits m)
  simp only [maxSafe] at h
  simp only [parseMagnitude, hne, hall, Nat.ofDigitChars_ten_toDigits, Bool.true_eq_false,
    or_self, ↓reduceIte]
  rw [if_pos]
  cases negative <;> simp <;> omega

/-- A decimal token without a sign is read as a magnitude. -/
theorem parseI64_of_isDigit {d : Char} {ds : List Char} (h : d.isDigit = true) :
    parseI64 (d :: ds) = parseMagnitude false (d :: ds) := by
  obtain ⟨-, -, -, hminus, hplus⟩ := isDigit_ne h
  unfold parseI64
  split
  · rename_i heq
    exact absurd (List.cons.inj heq).1 hminus
  · rename_i heq
    exact absurd (List.cons.inj heq).1 hplus
  · rfl

theorem parseI64_encodeInt {n : Int} (h : -maxSafe ≤ n ∧ n ≤ maxSafe) :
    parseI64 (encodeInt n) = some n := by
  have habs : (n.natAbs : Int) ≤ maxSafe := by omega
  unfold encodeInt
  split
  · rename_i hneg
    have hn : -(n.natAbs : Int) = n := by omega
    change parseMagnitude true (Nat.toDigits 10 n.natAbs) = some n
    rw [parseMagnitude_toDigits habs, if_pos rfl, hn]
  · rename_i hneg
    have hn : (n.natAbs : Int) = n := by omega
    obtain ⟨d, ds, hd⟩ := List.exists_cons_of_ne_nil (Nat.toDigits_ne_nil (b := 10) (n := n.natAbs))
    have hdigit : d.isDigit = true := all_isDigit_toDigits n.natAbs d (by simp [hd])
    rw [hd, parseI64_of_isDigit hdigit, ← hd, parseMagnitude_toDigits habs]
    simp [hn]

theorem wholePart_toDigits {m : Nat} {tail : List Char} (ht : Boundary tail) :
    wholePart (Nat.toDigits 10 m ++ tail) = .ok (Nat.toDigits 10 m, tail) := by
  rcases Nat.eq_zero_or_pos m with rfl | hm
  · rw [Nat.toDigits_zero]
    simp [wholePart]
  · obtain ⟨d, ds, hd, hfirst, hrest⟩ := toDigits_eq_cons hm
    have hz : d ≠ '0' := by
      rintro rfl
      exact absurd hfirst.1 (by decide)
    rw [hd, List.cons_append]
    simp only [wholePart, hz, ↓reduceIte, hfirst.1, hfirst.2, and_self,
      takeWhile_isDigit_append hrest ht, dropWhile_isDigit_append hrest ht]

theorem fractionPart_boundary {tail : List Char} (ht : Boundary tail) :
    fractionPart tail = .ok ([], tail) := by
  cases tail with
  | nil => rfl
  | cons c cs => simp [fractionPart, (ht c cs rfl).2.1]

theorem exponentPart_boundary {tail : List Char} (ht : Boundary tail) :
    exponentPart tail = .ok ([], tail) := by
  cases tail with
  | nil => rfl
  | cons c cs =>
    obtain ⟨-, -, he, hE⟩ := ht c cs rfl
    simp [exponentPart, he, hE]

/-- Sign and magnitude of a canonical integer. -/
theorem encodeInt_eq (n : Int) :
    encodeInt n = (if n < 0 then ['-'] else []) ++ Nat.toDigits 10 n.natAbs := by
  unfold encodeInt
  split <;> rfl

theorem encodeInt_ne_minus_zero (n : Int) : encodeInt n ≠ ['-', '0'] := by
  intro h
  rw [encodeInt_eq] at h
  split at h
  · rename_i hneg
    have h0 : Nat.toDigits 10 n.natAbs = ['0'] := by simpa using h
    have := congrArg (fun ds => Nat.ofDigitChars 10 ds 0) h0
    simp only [Nat.ofDigitChars_ten_toDigits] at this
    have hz : Nat.ofDigitChars 10 ['0'] 0 = 0 := by decide
    omega
  · have : '-' ∈ Nat.toDigits 10 n.natAbs := by
      rw [List.nil_append] at h
      simp [h]
    exact (isDigit_ne (all_isDigit_toDigits _ _ this)).2.2.2.1 rfl

theorem not_any_float_encodeInt (n : Int) :
    ((encodeInt n).any fun ch => ch == '.' || ch == 'e' || ch == 'E') = false := by
  rw [List.any_eq_false]
  intro ch hch
  rw [encodeInt_eq, List.mem_append] at hch
  rcases hch with hch | hch
  · have : ch = '-' := by
      split at hch <;> simp_all
    simp [this]
  · obtain ⟨h₁, h₂, h₃, -⟩ := isDigit_ne (all_isDigit_toDigits _ _ hch)
    simp [h₁, h₂, h₃]

/-- The scanner reads the token of a canonical integer exactly. -/
theorem number_encodeInt {n : Int} (h : -maxSafe ≤ n ∧ n ≤ maxSafe) {i : Nat}
    {tail : List Char} (ht : Boundary tail) :
    ∃ j, number ⟨i, encodeInt n ++ tail⟩ = .ok (String.ofList (encodeInt n), ⟨j, tail⟩) := by
  have hsign : (if (encodeInt n ++ tail).head? = some '-' then ['-'] else [])
      = if n < 0 then ['-'] else [] := by
    rw [encodeInt_eq]
    split_ifs with hn hh hh
    · rfl
    · simp at hh
    · exfalso
      obtain ⟨d, ds, hd⟩ :=
        List.exists_cons_of_ne_nil (Nat.toDigits_ne_nil (b := 10) (n := n.natAbs))
      have hdigit := all_isDigit_toDigits n.natAbs d (by simp [hd])
      rw [hd] at hh
      simp only [List.nil_append, List.cons_append, List.head?_cons, Option.some.injEq] at hh
      exact (isDigit_ne hdigit).2.2.2.1 hh
    · rfl
  have hdrop : (encodeInt n ++ tail).drop (if n < 0 then ['-'] else []).length
      = Nat.toDigits 10 n.natAbs ++ tail := by
    rw [encodeInt_eq, List.append_assoc, List.drop_left]
  refine ⟨i + (encodeInt n).length, ?_⟩
  simp only [number, hsign, hdrop, wholePart_toDigits ht, fractionPart_boundary ht,
    exponentPart_boundary ht, ok_bind, List.append_nil, ← encodeInt_eq]
  simp [refuseIf, not_any_float_encodeInt, encodeInt_ne_minus_zero, parseI64_encodeInt h, h]

/-! ## Strings -/

theorem hexValue?_hexDigit {n : Nat} (h : n < 16) : hexValue? (hexDigit n) = some n := by
  have key : ∀ m : Fin 16, hexValue? (hexDigit m) = some m.val := by decide
  exact key ⟨n, h⟩

theorem hex4_of_values {i : Nat} {a x y z : Char} {va vx vy vz : Nat} {r : List Char}
    (ha : (if a = '+' then some 0 else hexValue? a) = some va) (hx : hexValue? x = some vx)
    (hy : hexValue? y = some vy) (hz : hexValue? z = some vz) :
    hex4 ⟨i, a :: x :: y :: z :: r⟩
      = .ok (va * 4096 + vx * 256 + vy * 16 + vz, ⟨i + 4, r⟩) := by
  simp only [hex4, ha, hx, hy, hz]

theorem charFromU32_toNat (c : Char) : charFromU32 c.toNat = .ok c := by
  have hvalid : c.toNat.isValidChar := c.valid
  simp [charFromU32, hvalid]

/-- A four-digit escape below the surrogates names its code point. -/
theorem unicodeEscape_of_hex4 {c₀ c₁ : Cursor} {ch : Char} (hlt : ch.toNat < 0xD800)
    (h : hex4 c₀ = .ok (ch.toNat, c₁)) : unicodeEscape c₀ = .ok (ch, c₁) := by
  have h₁ : ¬ (0xD800 ≤ ch.toNat ∧ ch.toNat < 0xDC00) := by omega
  have h₂ : ¬ (0xDC00 ≤ ch.toNat ∧ ch.toNat < 0xE000) := by omega
  simp only [unicodeEscape, h, ok_bind, h₁, h₂, ↓reduceIte, charFromU32_toNat]

theorem escape_u {i : Nat} {r : List Char} :
    escape ⟨i, 'u' :: r⟩ = unicodeEscape ⟨i + 'u'.utf8Size, r⟩ := rfl

/-- One escaped character is read back as itself. -/
theorem stringBody_escape {fuel i : Nat} {out r r' : List Char} {c : Char}
    {d : Cursor} (h : escape ⟨i + 1, r⟩ = .ok (c, d)) (hr : d.rest = r') :
    ∃ j, stringBody (fuel + 1) out ⟨i, '\\' :: r⟩ = stringBody fuel (out ++ [c]) ⟨j, r'⟩ := by
  subst hr
  exact ⟨d.pos, by simp [stringBody, h]⟩

theorem stringBody_encodeChar (fuel i : Nat) (out r : List Char) (c : Char) :
    ∃ j, stringBody (fuel + 1) out ⟨i, encodeChar c ++ r⟩
      = stringBody fuel (out ++ [c]) ⟨j, r⟩ := by
  unfold encodeChar
  by_cases h₁ : c = '"'
  · subst h₁
    exact stringBody_escape rfl rfl
  rw [if_neg h₁]
  by_cases h₂ : c = '\\'
  · subst h₂
    exact stringBody_escape rfl rfl
  rw [if_neg h₂]
  by_cases h₃ : c = '\x08'
  · subst h₃
    exact stringBody_escape rfl rfl
  rw [if_neg h₃]
  by_cases h₄ : c = '\t'
  · subst h₄
    exact stringBody_escape rfl rfl
  rw [if_neg h₄]
  by_cases h₅ : c = '\n'
  · subst h₅
    exact stringBody_escape rfl rfl
  rw [if_neg h₅]
  by_cases h₆ : c = '\x0c'
  · subst h₆
    exact stringBody_escape rfl rfl
  rw [if_neg h₆]
  by_cases h₇ : c = '\r'
  · subst h₇
    exact stringBody_escape rfl rfl
  rw [if_neg h₇]
  by_cases h₈ : c.toNat = 0x2028
  · rw [if_pos h₈]
    refine stringBody_escape (d := ⟨i + 1 + 'u'.utf8Size + 4, r⟩)
      (escape_u.trans (unicodeEscape_of_hex4 (by omega) ?_)) rfl
    rw [h₈]
    rfl
  rw [if_neg h₈]
  by_cases h₉ : c.toNat = 0x2029
  · rw [if_pos h₉]
    refine stringBody_escape (d := ⟨i + 1 + 'u'.utf8Size + 4, r⟩)
      (escape_u.trans (unicodeEscape_of_hex4 (by omega) ?_)) rfl
    rw [h₉]
    rfl
  rw [if_neg h₉]
  by_cases h₁₀ : c.toNat < 0x20
  · rw [if_pos h₁₀]
    refine stringBody_escape (d := ⟨i + 1 + 'u'.utf8Size + 4, r⟩)
      (escape_u.trans (unicodeEscape_of_hex4 (by omega) ?_)) rfl
    have hcode : c.toNat = 0 * 4096 + 0 * 256 + c.toNat / 16 * 16 + c.toNat % 16 := by omega
    have hhi := hexValue?_hexDigit (n := c.toNat / 16) (by omega)
    have hlo := hexValue?_hexDigit (n := c.toNat % 16) (by omega)
    conv_rhs => rw [hcode]
    exact hex4_of_values (by decide) (by decide) hhi hlo
  rw [if_neg h₁₀]
  exact ⟨i + c.utf8Size, by simp only [List.cons_append, List.nil_append, stringBody, h₁, h₂, h₁₀, ↓reduceIte]⟩

theorem stringBody_encodeString (fuel i : Nat) (out tail cs : List Char)
    (h : cs.length < fuel) :
    ∃ j, stringBody fuel out ⟨i, cs.flatMap encodeChar ++ '"' :: tail⟩
      = .ok (String.ofList (out ++ cs), ⟨j, tail⟩) := by
  induction cs generalizing fuel i out with
  | nil =>
    obtain ⟨fuel, rfl⟩ := Nat.exists_eq_succ_of_ne_zero (Nat.ne_of_gt h)
    exact ⟨i + 1, by simp [stringBody]⟩
  | cons c cs ih =>
    obtain ⟨fuel, rfl⟩ := Nat.exists_eq_succ_of_ne_zero (Nat.ne_of_gt (Nat.zero_lt_of_lt h))
    rw [List.flatMap_cons, List.append_assoc]
    obtain ⟨j, hj⟩ := stringBody_encodeChar fuel i out
      (cs.flatMap encodeChar ++ '"' :: tail) c
    obtain ⟨k, hk⟩ := ih fuel j (out ++ [c])
      (by simp only [List.length_cons] at h; omega)
    exact ⟨k, by rw [hj, hk]; simp⟩

theorem encodeChar_length_pos (c : Char) : 0 < (encodeChar c).length := by
  have key : ∀ (p : Prop) [Decidable p] (a b : List Char), 0 < a.length → 0 < b.length →
      0 < (if p then a else b).length := by
    intro p _ a b ha hb
    by_cases hp : p
    · rwa [if_pos hp]
    · rwa [if_neg hp]
  unfold encodeChar
  iterate 10 refine key _ _ _ (by simp) ?_
  simp

theorem length_le_flatMap_encodeChar (cs : List Char) :
    cs.length ≤ (cs.flatMap encodeChar).length := by
  induction cs with
  | nil => simp
  | cons c cs ih =>
    have hc := encodeChar_length_pos c
    simp only [List.flatMap_cons, List.length_append, List.length_cons]
    omega

/-- A canonical string literal is read back as its characters. -/
theorem string_encodeString (i : Nat) (tail cs : List Char) :
    ∃ j, string ⟨i, encodeString cs ++ tail⟩ = .ok (String.ofList cs, ⟨j, tail⟩) := by
  have hlen := length_le_flatMap_encodeChar cs
  obtain ⟨j, hj⟩ := stringBody_encodeString (encodeString cs ++ tail).length (i + 1) [] tail cs
    (by simp only [encodeString, List.cons_append, List.length_cons, List.length_append]; omega)
  refine ⟨j, ?_⟩
  rw [List.nil_append] at hj
  rw [← hj]
  simp [string, encodeString]

/-! ## Containers -/

/-- The first character of canonical text is never white space, a closing
bracket or a separator. -/
def Opens (t : List Char) : Prop :=
  ∃ c cs, t = c :: cs ∧ isWs c = false ∧ c ≠ ']' ∧ c ≠ '\x7d'

theorem opens_encodeInt (n : Int) : Opens (encodeInt n) := by
  rw [encodeInt_eq]
  split
  · exact ⟨'-', _, rfl, by decide, by decide, by decide⟩
  · obtain ⟨d, ds, hd⟩ :=
      List.exists_cons_of_ne_nil (Nat.toDigits_ne_nil (b := 10) (n := n.natAbs))
    have hdigit := all_isDigit_toDigits n.natAbs d (by simp [hd])
    refine ⟨d, ds, by rw [List.nil_append, hd], ?_, ?_, ?_⟩
    · simp only [isWs, Bool.or_eq_false_iff, beq_eq_false_iff_ne, ne_eq]
      refine ⟨⟨⟨?_, ?_⟩, ?_⟩, ?_⟩ <;> (rintro rfl; revert hdigit; decide)
    · rintro rfl
      revert hdigit
      decide
    · rintro rfl
      revert hdigit
      decide

theorem opens_write {v : CJ} {t : List Char} (h : write v = .ok t) : Opens t := by
  cases v with
  | null =>
    obtain rfl := Except.ok.inj (by simpa only [write] using h)
    exact ⟨'n', _, rfl, by decide, by decide, by decide⟩
  | bool b =>
    cases b with
    | true =>
      obtain rfl := Except.ok.inj (by simpa only [write] using h)
      exact ⟨'t', _, rfl, by decide, by decide, by decide⟩
    | false =>
      obtain rfl := Except.ok.inj (by simpa only [write] using h)
      exact ⟨'f', _, rfl, by decide, by decide, by decide⟩
  | int n =>
    simp only [write] at h
    split at h
    · obtain rfl := Except.ok.inj h
      exact opens_encodeInt n
    · simp at h
  | str s =>
    obtain rfl := Except.ok.inj (by simpa only [write] using h)
    exact ⟨'"', _, rfl, by decide, by decide, by decide⟩
  | bytes b =>
    obtain rfl := Except.ok.inj (by simpa only [write] using h)
    exact ⟨'"', _, rfl, by decide, by decide, by decide⟩
  | arr xs =>
    simp only [write, bind_eq_ok_iff] at h
    obtain ⟨ts, -, h⟩ := h
    obtain rfl := Except.ok.inj h
    exact ⟨'[', _, rfl, by decide, by decide, by decide⟩
  | obj fields =>
    simp only [write, writeObject, bind_eq_ok_iff] at h
    obtain ⟨ts, -, h⟩ := h
    obtain rfl := Except.ok.inj h
    exact ⟨'\x7b', _, rfl, by decide, by decide, by decide⟩

@[simp] theorem commaSeparated_nil : commaSeparated [] = [] := rfl

@[simp] theorem commaSeparated_singleton (t : List Char) : commaSeparated [t] = t := by
  simp [commaSeparated]

@[simp] theorem commaSeparated_cons_cons (t u : List Char) (ts : List (List Char)) :
    commaSeparated (t :: u :: ts) = t ++ ',' :: commaSeparated (u :: ts) := by
  simp [commaSeparated]

/-- `element` reads the text `t` as the value `x`, whatever follows it. -/
def Reads (element : Cursor → V2Result (JNode × Cursor)) (x : CJ) (t : List Char) : Prop :=
  ∀ i tail, Boundary tail →
    ∃ n j, element ⟨i, t ++ tail⟩ = .ok (n, ⟨j, tail⟩) ∧ Denotes x n

theorem boundary_comma (cs : List Char) : Boundary (',' :: cs) := boundary_cons (by decide)

theorem boundary_bracket (cs : List Char) : Boundary (']' :: cs) := boundary_cons (by decide)

theorem boundary_brace (cs : List Char) : Boundary ('\x7d' :: cs) := boundary_cons (by decide)

/-- The items of an array are read one comma at a time. -/
theorem items_of_reads {element : Cursor → V2Result (JNode × Cursor)} {x : CJ} {t : List Char}
    {xs : List CJ} {ts : List (List Char)} (hx : Reads element x t)
    (h : List.Forall₂ (Reads element) xs ts) (fuel : Nat) (hfuel : xs.length < fuel)
    (acc : List JNode) (i : Nat) (tail : List Char) :
    ∃ ns j, items element fuel acc ⟨i, commaSeparated (t :: ts) ++ ']' :: tail⟩
        = .ok (acc ++ ns, ⟨j, tail⟩) ∧ List.Forall₂ Denotes (x :: xs) ns := by
  induction h generalizing x t fuel acc i with
  | nil =>
    obtain ⟨fuel, rfl⟩ := Nat.exists_eq_succ_of_ne_zero (Nat.ne_of_gt hfuel)
    obtain ⟨n, j, hn, hd⟩ := hx i (']' :: tail) (boundary_bracket tail)
    refine ⟨[n], j + 1, ?_, .cons hd .nil⟩
    simp only [commaSeparated_singleton, items, hn, ok_bind, ws_cons (c := ']') (by decide)]
  | @cons y u ys us hy hys ih =>
    obtain ⟨fuel, rfl⟩ := Nat.exists_eq_succ_of_ne_zero (Nat.ne_of_gt (Nat.zero_lt_of_lt hfuel))
    obtain ⟨n, j, hn, hd⟩ := hx i (',' :: (commaSeparated (u :: us) ++ ']' :: tail))
      (boundary_comma _)
    obtain ⟨ns, k, hk, hds⟩ := ih hy fuel
      (by simp only [List.length_cons] at hfuel; omega) (acc ++ [n]) (j + 1)
    refine ⟨n :: ns, k, ?_, .cons hd hds⟩
    rw [commaSeparated_cons_cons, List.append_assoc, List.cons_append]
    simp only [items, hn, ok_bind, ws_cons (c := ',') (by decide), hk]
    rw [List.append_assoc, List.singleton_append]

/-- The text of one member. -/
def memberText (f : String × CJ) (t : List Char) : List Char :=
  encodeString f.1.toList ++ ':' :: t

theorem member_of_reads {element : Cursor → V2Result (JNode × Cursor)} {f : String × CJ}
    {t : List Char} (hf : Reads element f.2 t) {acc : List (String × JNode)}
    (hkey : f.1 ∉ acc.map Prod.fst) (i : Nat) {tail : List Char} (ht : Boundary tail) :
    ∃ n j, member element acc ⟨i, memberText f t ++ tail⟩ = .ok ((f.1, n), ⟨j, tail⟩) ∧
      Denotes f.2 n := by
  obtain ⟨k, hk⟩ := string_encodeString i (':' :: (t ++ tail)) f.1.toList
  obtain ⟨n, j, hn, hd⟩ := hf (k + 1) tail ht
  refine ⟨n, j, ?_, hd⟩
  have hopen : ws ⟨i, memberText f t ++ tail⟩ = ⟨i, memberText f t ++ tail⟩ :=
    ws_cons (c := '"') (by decide)
  have htext : memberText f t ++ tail = encodeString f.1.toList ++ ':' :: (t ++ tail) := by
    simp [memberText]
  have hquote : (memberText f t ++ tail).head? = some '"' := rfl
  have hfresh : (acc.any fun g => g.1 == f.1) = false := by
    rw [List.any_eq_false]
    intro g hg
    simp only [beq_iff_eq]
    intro heq
    exact hkey (heq ▸ List.mem_map_of_mem hg)
  simp only [member, hopen, hquote, refuseIf, bne_self_eq_false, Bool.false_eq_true, ↓reduceIte,
    ok_bind]
  rw [htext, hk]
  simp only [ok_bind, String.ofList_toList, hfresh, Bool.false_eq_true, ↓reduceIte,
    ws_cons (c := ':') (by decide), List.head?_cons, bne_self_eq_false, List.tail_cons, hn]

/-- The members of an object are read one comma at a time. -/
theorem members_of_reads {element : Cursor → V2Result (JNode × Cursor)} {f : String × CJ}
    {t : List Char} {fs : List (String × CJ)} {ts : List (List Char)}
    (hf : Reads element f.2 t) (h : List.Forall₂ (fun g u => Reads element g.2 u) fs ts)
    (fuel : Nat) (hfuel : fs.length < fuel) (acc : List (String × JNode))
    (hkeys : (acc.map Prod.fst ++ f.1 :: fs.map Prod.fst).Nodup) (i : Nat)
    (tail : List Char) :
    ∃ ms j, members element fuel acc
          ⟨i, commaSeparated (List.zipWith memberText (f :: fs) (t :: ts)) ++ '\x7d' :: tail⟩
        = .ok (acc ++ ms, ⟨j, tail⟩) ∧
      (f :: fs).map Prod.fst = ms.map Prod.fst ∧
      List.Forall₂ Denotes ((f :: fs).map Prod.snd) (ms.map Prod.snd) := by
  have hkey : f.1 ∉ acc.map Prod.fst := fun hmem =>
    (List.nodup_append.mp hkeys).2.2 _ hmem _ (by simp) rfl
  induction h generalizing f t fuel acc i with
  | nil =>
    obtain ⟨fuel, rfl⟩ := Nat.exists_eq_succ_of_ne_zero (Nat.ne_of_gt hfuel)
    obtain ⟨n, j, hn, hd⟩ := member_of_reads hf hkey i (boundary_brace tail)
    refine ⟨[(f.1, n)], j + 1, ?_, rfl, .cons hd .nil⟩
    simp only [List.zipWith_cons_cons, List.zipWith_nil_left, commaSeparated_singleton, members,
      hn, ok_bind, ws_cons (c := '\x7d') (by decide)]
  | @cons g u gs us hg hgs ih =>
    obtain ⟨fuel, rfl⟩ := Nat.exists_eq_succ_of_ne_zero (Nat.ne_of_gt (Nat.zero_lt_of_lt hfuel))
    obtain ⟨n, j, hn, hd⟩ := member_of_reads hf hkey i (boundary_comma
      (commaSeparated (List.zipWith memberText (g :: gs) (u :: us)) ++ '\x7d' :: tail))
    have hkeys' : ((acc ++ [(f.1, n)]).map Prod.fst ++ g.1 :: gs.map Prod.fst).Nodup := by
      simpa using hkeys
    have hkey' : g.1 ∉ (acc ++ [(f.1, n)]).map Prod.fst := fun hmem =>
      (List.nodup_append.mp hkeys').2.2 _ hmem _ (by simp) rfl
    obtain ⟨ms, k, hk, hfst, hds⟩ := ih hg fuel
      (by simp only [List.length_cons] at hfuel; omega) (acc ++ [(f.1, n)]) hkeys' (j + 1) hkey'
    refine ⟨(f.1, n) :: ms, k, ?_, ?_, .cons hd hds⟩
    · rw [List.zipWith_cons_cons, List.zipWith_cons_cons, commaSeparated_cons_cons,
        List.append_assoc, List.cons_append, ← List.zipWith_cons_cons]
      simp only [members, hn, ok_bind, ws_cons (c := ',') (by decide), hk]
      rw [List.append_assoc, List.singleton_append]
    · rw [List.map_cons, hfst, List.map_cons]

/-! ## Values -/

theorem writeItems_eq_mapM (xs : List CJ) : writeItems xs = xs.mapM write := by
  induction xs with
  | nil => rfl
  | cons x xs ih =>
    rw [writeItems, List.mapM_cons, ih]
    rfl

theorem writeMembers_eq_map (fields : List (String × CJ)) :
    writeMembers fields = fields.map fun f => (f.1, write f.2) := by
  induction fields with
  | nil => rfl
  | cons f fields ih =>
    obtain ⟨k, x⟩ := f
    rw [writeMembers, ih, List.map_cons]

/-- The text of an object lists its members in key order. -/
theorem write_obj_eq_ok_iff {fields : List (String × CJ)} {t : List Char} :
    write (.obj fields) = .ok t ↔
      ∃ ts, List.Forall₂ (fun f u => write f.2 = .ok u) (inKeyOrder fields) ts ∧
        t = '\x7b' :: commaSeparated (List.zipWith memberText (inKeyOrder fields) ts)
          ++ ['\x7d'] := by
  have hsort : (writeMembers fields).insertionSort (fun a b => a.1 ≤ b.1)
      = (inKeyOrder fields).map fun f => (f.1, write f.2) := by
    rw [writeMembers_eq_map, inKeyOrder]
    exact (List.map_insertionSort (fun a b => a.1 ≤ b.1) (fun a b => a.1 ≤ b.1)
      (fun f => (f.1, write f.2)) fields fun a _ b _ => Iff.rfl).symm
  simp only [write, writeObject, hsort, bind_eq_ok_iff, mapM_eq_ok_iff,
    List.forall₂_map_left_iff, Except.ok.injEq]
  generalize inKeyOrder fields = sorted
  constructor
  · rintro ⟨texts, htexts, rfl⟩
    have hsplit : ∃ ts, List.Forall₂ (fun f u => write f.2 = .ok u) sorted ts ∧
        texts = List.zipWith memberText sorted ts := by
      induction htexts with
      | nil => exact ⟨[], .nil, rfl⟩
      | cons hf _ ih =>
        obtain ⟨u, hu, rfl⟩ := hf
        obtain ⟨ts, hts, rfl⟩ := ih
        exact ⟨u :: ts, .cons hu hts, rfl⟩
    obtain ⟨ts, hts, rfl⟩ := hsplit
    exact ⟨ts, hts, rfl⟩
  · rintro ⟨ts, hts, rfl⟩
    refine ⟨_, ?_, rfl⟩
    induction hts with
    | nil => exact .nil
    | cons hf _ ih => exact .cons ⟨_, hf, rfl⟩ ih

theorem inKeyOrder_perm (fields : List (String × CJ)) : (inKeyOrder fields).Perm fields :=
  List.perm_insertionSort _ _

/-- Every text of a list of at least one starts the comma-separated text. -/
theorem opens_commaSeparated {t : List Char} {ts : List (List Char)} (h : Opens t) (r : List Char) :
    Opens (commaSeparated (t :: ts) ++ r) := by
  obtain ⟨c, cs, rfl, hc⟩ := h
  cases ts with
  | nil => exact ⟨c, cs ++ r, by simp, hc⟩
  | cons u us => exact ⟨c, cs ++ ',' :: commaSeparated (u :: us) ++ r, by simp, hc⟩

theorem opens_memberText (f : String × CJ) (t : List Char) : Opens (memberText f t) :=
  ⟨'"', _, rfl, by decide, by decide, by decide⟩

theorem ws_of_opens {i : Nat} {cs : List Char} (h : Opens cs) : ws ⟨i, cs⟩ = ⟨i, cs⟩ := by
  obtain ⟨c, cs, rfl, hc, -⟩ := h
  exact ws_cons hc

/-- A container that does not close at once hands its body over unchanged. -/
theorem container_of_opens {α : Type} {close : Char} {empty : α} {i : Nat} {cs : List Char}
    {body : Nat → Cursor → V2Result (α × Cursor)} (h : Opens cs)
    (hclose : close = ']' ∨ close = '\x7d') :
    container close empty ⟨i, cs⟩ body = body (cs.length + 1) ⟨i, cs⟩ := by
  have hws := ws_of_opens (i := i) h
  obtain ⟨c, cs, rfl, -, h₁, h₂⟩ := h
  have hne : c ≠ close := by
    rcases hclose with rfl | rfl
    · exact h₁
    · exact h₂
  simp only [container, hws, hne, ↓reduceIte]

theorem container_close {α : Type} {close : Char} {empty : α} {i : Nat} {cs : List Char}
    {body : Nat → Cursor → V2Result (α × Cursor)} (hclose : close = ']' ∨ close = '\x7d') :
    container close empty ⟨i, close :: cs⟩ body = .ok (empty, ⟨i + 1, cs⟩) := by
  have hws : isWs close = false := by
    rcases hclose with rfl | rfl <;> decide
  simp [container, ws_cons hws]

theorem length_le_commaSeparated (t : List Char) (ts : List (List Char)) :
    ts.length ≤ (commaSeparated (t :: ts)).length := by
  induction ts generalizing t with
  | nil => simp
  | cons u us ih =>
    have := ih u
    simp only [commaSeparated_cons_cons, List.length_append, List.length_cons]
    omega

theorem forall₂_reads {levels : Nat} {xs : List CJ} {ts : List (List Char)}
    (ih : ∀ x ∈ xs, ∀ {t}, write x = .ok t → Reads (value levels) x t)
    (h : List.Forall₂ (fun x t => write x = .ok t) xs ts) :
    List.Forall₂ (Reads (value levels)) xs ts := by
  induction h with
  | nil => exact .nil
  | cons hx _ ihx =>
    exact .cons (ih _ (by simp) hx) (ihx fun x hmem => ih x (by simp [hmem]))

theorem exists_value_eq (levels : Nat) : ∃ element?, value levels = valueBody element? := by
  cases levels with
  | zero => exact ⟨none, rfl⟩
  | succ levels => exact ⟨some (value levels), rfl⟩

theorem valueBody_quote {element? : Option (Cursor → V2Result (JNode × Cursor))} {i j : Nat}
    {r tail : List Char} {s : String} (h : string ⟨i, '"' :: r⟩ = .ok (s, ⟨j, tail⟩)) :
    valueBody element? ⟨i, '"' :: r⟩ = .ok (.mk (.str s) i j, ⟨j, tail⟩) := by
  have h₁ : ¬ '"' = '\x7b' := by decide
  have h₂ : ¬ '"' = '[' := by decide
  simp only [valueBody, ws_cons (c := '"') (by decide), h₁, h₂, ↓reduceIte, h, ok_bind]

theorem valueBody_literal (element? : Option (Cursor → V2Result (JNode × Cursor))) (i : Nat)
    (tail : List Char) :
    ∀ p ∈ [(['t', 'r', 'u', 'e'], JV.bool true), (['f', 'a', 'l', 's', 'e'], JV.bool false),
      (['n', 'u', 'l', 'l'], JV.null)],
      ∃ j, valueBody element? ⟨i, p.1 ++ tail⟩ = .ok (.mk p.2 i j, ⟨j, tail⟩) := by
  intro p hp
  simp only [List.mem_cons, List.not_mem_nil, or_false] at hp
  rcases hp with rfl | rfl | rfl
  · exact ⟨i + 4, by simp [valueBody, ws_cons (c := 't') (by decide), literal]⟩
  · exact ⟨i + 5, by simp [valueBody, ws_cons (c := 'f') (by decide), literal]⟩
  · exact ⟨i + 4, by simp [valueBody, ws_cons (c := 'n') (by decide), literal]⟩

theorem valueBody_number {element? : Option (Cursor → V2Result (JNode × Cursor))} {i j : Nat}
    {c : Char} {r tail : List Char} {text : String} (hc : c = '-' ∨ c.isDigit = true)
    (h : number ⟨i, c :: r⟩ = .ok (text, ⟨j, tail⟩)) :
    valueBody element? ⟨i, c :: r⟩ = .ok (.mk (.num text) i j, ⟨j, tail⟩) := by
  have hne : isWs c = false ∧ c ≠ '\x7b' ∧ c ≠ '[' ∧ c ≠ '"' ∧ c ≠ 't' ∧ c ≠ 'f' ∧ c ≠ 'n' := by
    rcases hc with rfl | hdigit
    · decide
    · refine ⟨?_, ?_, ?_, ?_, ?_, ?_, ?_⟩
      · simp only [isWs, Bool.or_eq_false_iff, beq_eq_false_iff_ne, ne_eq]
        refine ⟨⟨⟨?_, ?_⟩, ?_⟩, ?_⟩ <;> (rintro rfl; revert hdigit; decide)
      all_goals (rintro rfl; revert hdigit; decide)
  obtain ⟨hws, h₁, h₂, h₃, h₄, h₅, h₆⟩ := hne
  have hnum : (decide (c = '-') || c.isDigit) = true := by simpa using hc
  simp only [valueBody, ws_cons hws, h₁, h₂, h₃, h₄, h₅, h₆, hnum, ↓reduceIte, h, ok_bind]

theorem valueBody_bracket {element : Cursor → V2Result (JNode × Cursor)} {i j : Nat}
    {r tail : List Char} {ns : List JNode}
    (h : container ']' [] ⟨i + 1, r⟩ (fun fuel c => items element fuel [] c)
      = .ok (ns, ⟨j, tail⟩)) :
    valueBody (some element) ⟨i, '[' :: r⟩ = .ok (.mk (.arr ns) i j, ⟨j, tail⟩) := by
  have h₁ : ¬ '[' = '\x7b' := by decide
  simp only [valueBody, ws_cons (c := '[') (by decide), h₁, ↓reduceIte, h, ok_bind]

theorem valueBody_brace {element : Cursor → V2Result (JNode × Cursor)} {i j : Nat}
    {r tail : List Char} {ms : List (String × JNode)}
    (h : container '\x7d' [] ⟨i + 1, r⟩ (fun fuel c => members element fuel [] c)
      = .ok (ms, ⟨j, tail⟩)) :
    valueBody (some element) ⟨i, '\x7b' :: r⟩ = .ok (.mk (.obj ms) i j, ⟨j, tail⟩) := by
  simp only [valueBody, ws_cons (c := '\x7b') (by decide), ↓reduceIte, h, ok_bind]

/-- A value that fits is read back from its canonical text. -/
theorem reads_write {levels : Nat} {v : CJ} (h : Fits levels v) :
    ∀ {t}, write v = .ok t → Reads (value levels) v t := by
  induction h with
  | null levels =>
    intro t ht i tail _
    obtain rfl := Except.ok.inj (by simpa only [write] using ht)
    obtain ⟨e, he⟩ := exists_value_eq levels
    obtain ⟨j, hj⟩ := valueBody_literal e i tail
      (['n', 'u', 'l', 'l'], JV.null) (by simp)
    exact ⟨_, j, he ▸ hj, .null i j⟩
  | bool levels b =>
    intro t ht i tail _
    obtain ⟨e, he⟩ := exists_value_eq levels
    cases b with
    | true =>
      obtain rfl := Except.ok.inj (by simpa only [write] using ht)
      obtain ⟨j, hj⟩ := valueBody_literal e i tail
        (['t', 'r', 'u', 'e'], JV.bool true) (by simp)
      exact ⟨_, j, he ▸ hj, .bool true i j⟩
    | false =>
      obtain rfl := Except.ok.inj (by simpa only [write] using ht)
      obtain ⟨j, hj⟩ := valueBody_literal e i tail
        (['f', 'a', 'l', 's', 'e'], JV.bool false) (by simp)
      exact ⟨_, j, he ▸ hj, .bool false i j⟩
  | int levels n =>
    intro t ht i tail htail
    simp only [write] at ht
    split at ht
    · rename_i hn
      obtain rfl := Except.ok.inj ht
      obtain ⟨e, he⟩ := exists_value_eq levels
      obtain ⟨j, hj⟩ := number_encodeInt (i := i) hn htail
      obtain ⟨c, cs, hcs, hc⟩ : ∃ c cs, encodeInt n = c :: cs ∧ (c = '-' ∨ c.isDigit = true) := by
        rw [encodeInt_eq]
        split
        · exact ⟨'-', _, rfl, .inl rfl⟩
        · obtain ⟨d, ds, hd⟩ :=
            List.exists_cons_of_ne_nil (Nat.toDigits_ne_nil (b := 10) (n := n.natAbs))
          exact ⟨d, ds, by rw [List.nil_append, hd],
            .inr (all_isDigit_toDigits n.natAbs d (by simp [hd]))⟩
      refine ⟨_, j, ?_, .int n i j⟩
      rw [hcs, List.cons_append] at hj ⊢
      rw [he]
      exact valueBody_number hc hj
    · simp at ht
  | str levels s =>
    intro t ht i tail _
    obtain rfl := Except.ok.inj (by simpa only [write] using ht)
    obtain ⟨e, he⟩ := exists_value_eq levels
    obtain ⟨j, hj⟩ := string_encodeString i tail s.toList
    rw [String.ofList_toList] at hj
    exact ⟨_, j, by rw [he]; exact valueBody_quote hj, .str s i j⟩
  | bytes levels b =>
    intro t ht i tail _
    obtain rfl := Except.ok.inj (by simpa only [write] using ht)
    obtain ⟨e, he⟩ := exists_value_eq levels
    obtain ⟨j, hj⟩ := string_encodeString i tail (Base64.encodeChars b)
    exact ⟨_, j, by rw [he]; exact valueBody_quote hj, .bytes b i j⟩
  | arr levels xs _ ih =>
    intro t ht i tail _
    simp only [write, bind_eq_ok_iff, writeItems_eq_mapM, mapM_eq_ok_iff] at ht
    obtain ⟨ts, hts, ht⟩ := ht
    obtain rfl := Except.ok.inj ht
    have hreads := forall₂_reads ih hts
    cases hreads with
    | nil =>
      refine ⟨_, i + 1 + 1, valueBody_bracket (container_close (.inl rfl)), ?_⟩
      exact .arr [] [] _ _ .nil
    | @cons x t xs ts hx hxs =>
      obtain ⟨ns, j, hns, hds⟩ := items_of_reads hx hxs
        ((commaSeparated (t :: ts) ++ ']' :: tail).length + 1)
        (by
          have hlen := hxs.length_eq
          have := length_le_commaSeparated t ts
          rw [List.length_append]
          omega) [] (i + 1) tail
      refine ⟨_, j, ?_, .arr (x :: xs) ns i j hds⟩
      rw [List.cons_append, List.cons_append, List.append_assoc, List.singleton_append]
      refine valueBody_bracket ?_
      rw [container_of_opens (opens_commaSeparated (opens_write (List.forall₂_cons.mp hts).1) _)
        (.inl rfl)]
      simpa using hns
  | obj levels fields hkeys _ ih =>
    intro t ht i tail _
    obtain ⟨ts, hts, rfl⟩ := write_obj_eq_ok_iff.mp ht
    have hperm := inKeyOrder_perm fields
    have hnodup : ((inKeyOrder fields).map Prod.fst).Nodup :=
      (hperm.map Prod.fst).nodup_iff.mpr hkeys
    have hmem : ∀ f ∈ inKeyOrder fields, f ∈ fields := fun f hf => hperm.mem_iff.mp hf
    have hden : ∀ ms k l, (inKeyOrder fields).map Prod.fst = ms.map Prod.fst →
        List.Forall₂ Denotes ((inKeyOrder fields).map Prod.snd) (ms.map Prod.snd) →
        Denotes (.obj fields) (.mk (.obj ms) k l) := fun ms k l => .obj fields ms k l
    generalize inKeyOrder fields = sorted at hts hnodup hmem hden
    have hreads : List.Forall₂ (fun f u => Reads (value levels) f.2 u) sorted ts := by
      clear hnodup hden ht
      induction hts with
      | nil => exact .nil
      | @cons f u fs us hf _ ihts =>
        exact .cons (ih f (hmem f (by simp)) hf) (ihts fun g hg => hmem g (by simp [hg]))
    cases hreads with
    | nil =>
      exact ⟨_, i + 1 + 1, valueBody_brace (container_close (.inr rfl)),
        hden [] _ _ rfl .nil⟩
    | @cons f t fs ts hf hfs =>
      obtain ⟨ms, j, hms, hfst, hds⟩ := members_of_reads hf hfs
        ((commaSeparated (List.zipWith memberText (f :: fs) (t :: ts))
          ++ '\x7d' :: tail).length + 1)
        (by
          have hlen := hfs.length_eq
          have := length_le_commaSeparated (memberText f t)
            (List.zipWith memberText fs ts)
          rw [List.length_zipWith] at this
          rw [List.length_append, List.zipWith_cons_cons]
          omega) [] (by simpa using hnodup) (i + 1) tail
      refine ⟨_, j, ?_, hden ms i j hfst hds⟩
      rw [List.cons_append, List.cons_append, List.append_assoc, List.singleton_append]
      refine valueBody_brace ?_
      rw [List.zipWith_cons_cons] at hms ⊢
      rw [container_of_opens (opens_commaSeparated (opens_memberText f t) _) (.inr rfl)]
      simpa using hms

/-- Canonical text parses to a node that denotes the value it was written from. -/
theorem parseJson_canonical {v : CJ} {b : Bytes} (hfits : Fits maxJsonNestingDepth v)
    (h : canonical v = .ok b) : ∃ n, parseJson b = .ok n ∧ Denotes v n := by
  simp only [canonical, bind_eq_ok_iff] at h
  obtain ⟨t, ht, h⟩ := h
  obtain rfl := Except.ok.inj h
  obtain ⟨n, j, hn, hd⟩ := reads_write hfits ht 0 [] boundary_nil
  refine ⟨n, ?_, hd⟩
  rw [List.append_nil] at hn
  have htext : fromUtf8 (utf8Chars t) = some (String.ofList t) := by
    rw [← utf8_ofList, fromUtf8_utf8]
  simp only [parseJson, htext, String.toList_ofList, hn, ok_bind, ws_nil, refuseIf]
  rfl

/-! ## Re-encoding a parsed text -/

theorem writeFields_eq_map (ms : List (String × JNode)) :
    writeFields ms = ms.map fun f => (f.1, writeNode f.2) := by
  induction ms with
  | nil => rfl
  | cons m ms ih =>
    obtain ⟨k, x⟩ := m
    rw [writeFields, ih, List.map_cons]

theorem writeNodes_eq_map (ns : List JNode) : writeNodes ns = ns.map writeNode := by
  induction ns with
  | nil => rfl
  | cons n ns ih => rw [writeNodes, ih, List.map_cons]

theorem pairwise_inKeyOrder (fields : List (String × CJ)) :
    ((inKeyOrder fields).map Prod.fst).Pairwise (· ≤ ·) := by
  rw [List.pairwise_map, inKeyOrder]
  exact List.pairwise_insertionSort (fun a b : String × CJ => a.1 ≤ b.1) fields

/-- A parsed value re-encodes to the text it denotes. -/
theorem writeNode_of_denotes {levels : Nat} {v : CJ} (hv : Fits levels v) :
    ∀ {n : JNode} {t : List Char}, Denotes v n → write v = .ok t → writeNode n = t := by
  induction hv with
  | null levels =>
    intro n t hn ht
    cases hn
    cases ht
    rfl
  | bool levels b =>
    intro n t hn ht
    cases hn
    cases b <;> (cases ht; rfl)
  | int levels k =>
    intro n t hn ht
    cases hn
    simp only [write] at ht
    split at ht
    · cases ht
      simp only [writeNode, writeParsed, String.toList_ofList]
    · cases ht
  | str levels s =>
    intro n t hn ht
    cases hn
    cases ht
    rfl
  | bytes levels b =>
    intro n t hn ht
    cases hn
    cases ht
    simp only [writeNode, writeParsed, String.toList_ofList]
  | arr levels xs hxs ih =>
    clear hxs
    intro n t hn ht
    cases hn with
    | arr _ ns i j hns =>
      simp only [write, bind_eq_ok_iff, Except.ok.injEq] at ht
      obtain ⟨texts, htexts, rfl⟩ := ht
      have hmap : ns.map writeNode = texts := by
        induction hns generalizing texts with
        | nil =>
          cases htexts
          rfl
        | @cons x n xs ns hx _ ihns =>
          simp only [writeItems, bind_eq_ok_iff, Except.ok.injEq] at htexts
          obtain ⟨u, hu, us, hus, rfl⟩ := htexts
          rw [List.map_cons, ih x List.mem_cons_self hx hu,
            ihns (fun y hy => ih y (List.mem_cons_of_mem _ hy)) us hus]
      simp only [writeNode, writeParsed, writeNodes_eq_map, hmap]
  | obj levels fields _ _ ih =>
    intro n t hn ht
    cases hn with
    | obj _ ms i j hfst hns =>
      obtain ⟨ts, hts, rfl⟩ := write_obj_eq_ok_iff.mp ht
      have hsorted : (writeFields ms).insertionSort (fun a b => a.1 ≤ b.1) = writeFields ms := by
        apply List.Pairwise.insertionSort_eq
        rw [writeFields_eq_map, List.pairwise_map]
        have h := pairwise_inKeyOrder fields
        rw [hfst, List.pairwise_map] at h
        exact h
      have hmem : ∀ f ∈ inKeyOrder fields, f ∈ fields :=
        fun f hf => (inKeyOrder_perm fields).mem_iff.mp hf
      have htexts : ms.map (fun f => encodeString f.1.toList ++ ':' :: writeNode f.2)
          = List.zipWith memberText (inKeyOrder fields) ts := by
        clear hsorted ht
        generalize inKeyOrder fields = sorted at hfst hns hts hmem
        induction hts generalizing ms with
        | nil =>
          cases ms with
          | nil => rfl
          | cons m ms => simp at hfst
        | @cons f u fs us hu _ ihts =>
          cases ms with
          | nil => simp at hfst
          | cons m ms =>
            obtain ⟨k, x⟩ := m
            simp only [List.map_cons, List.cons.injEq] at hfst
            obtain ⟨rfl, hfst⟩ := hfst
            obtain ⟨hx, hxs⟩ := List.forall₂_cons.mp hns
            rw [List.map_cons, List.zipWith_cons_cons,
              ihts ms hfst hxs fun g hg => hmem g (List.mem_cons_of_mem _ hg)]
            simp only [memberText, ih f (hmem f List.mem_cons_self) hx hu]
      simp only [writeNode, writeParsed, hsorted]
      rw [writeFields_eq_map, List.map_map]
      simp only [Function.comp_def, htexts]

/-- Canonical text parses to a node that re-encodes to it. -/
theorem canonicalNode_of_denotes {levels : Nat} {v : CJ} {n : JNode} {b : Bytes}
    (hv : Fits levels v) (hn : Denotes v n) (hb : canonical v = .ok b) : canonicalNode n = b := by
  simp only [canonical, bind_eq_ok_iff, Except.ok.injEq] at hb
  obtain ⟨t, ht, rfl⟩ := hb
  rw [canonicalNode, writeNode_of_denotes hv hn ht]

/-! ## Wire documents -/

/-- A value a schema without nullable members may carry: it fits, holds no
`null`, keeps its integers in the safe range, and writes byte fields as bytes. -/
inductive WireValue : Nat → CJ → Prop
  | bool (levels : Nat) (b : Bool) : WireValue levels (.bool b)
  | int (levels : Nat) (n : Int) : -maxSafe ≤ n ∧ n ≤ maxSafe → WireValue levels (.int n)
  | str (levels : Nat) (s : String) : WireValue levels (.str s)
  | bytes (levels : Nat) (b : Bytes) : WireValue levels (.bytes b)
  | arr (levels : Nat) (xs : List CJ) :
      (∀ x ∈ xs, WireValue levels x) → WireValue (levels + 1) (.arr xs)
  | obj (levels : Nat) (fields : List (String × CJ)) :
      (fields.map Prod.fst).Nodup →
      (∀ f ∈ fields, f.1 ∈ wireByteFields → ∃ b, f.2 = .bytes b) →
      (∀ f ∈ fields, WireValue levels f.2) → WireValue (levels + 1) (.obj fields)

theorem WireValue.fits {levels : Nat} {v : CJ} (h : WireValue levels v) : Fits levels v := by
  induction h with
  | bool levels b => exact .bool levels b
  | int levels n _ => exact .int levels n
  | str levels s => exact .str levels s
  | bytes levels b => exact .bytes levels b
  | arr levels xs _ ih => exact .arr levels xs ih
  | obj levels fields hkeys _ _ ih => exact .obj levels fields hkeys ih

/-- A wire value always has canonical text. -/
theorem WireValue.exists_write {levels : Nat} {v : CJ} (h : WireValue levels v) :
    ∃ t, write v = .ok t := by
  induction h with
  | bool levels b => cases b <;> exact ⟨_, rfl⟩
  | int levels n hn => exact ⟨encodeInt n, by simp only [write, hn, and_self, ↓reduceIte]⟩
  | str levels s => exact ⟨_, rfl⟩
  | bytes levels b => exact ⟨_, rfl⟩
  | arr levels xs hxs ih =>
    have hts : ∃ ts, List.Forall₂ (fun x t => write x = .ok t) xs ts := by
      clear hxs
      induction xs with
      | nil => exact ⟨[], .nil⟩
      | cons x xs ihxs =>
        obtain ⟨t, ht⟩ := ih x (by simp)
        obtain ⟨ts, hts⟩ := ihxs fun y hy => ih y (by simp [hy])
        exact ⟨t :: ts, .cons ht hts⟩
    obtain ⟨ts, hts⟩ := hts
    refine ⟨'[' :: commaSeparated ts ++ [']'], ?_⟩
    simp only [write, bind_eq_ok_iff, writeItems_eq_mapM, mapM_eq_ok_iff]
    exact ⟨ts, hts, rfl⟩
  | obj levels fields _ _ _ ih =>
    have hmem : ∀ f ∈ inKeyOrder fields, ∃ t, write f.2 = .ok t :=
      fun f hf => ih f ((inKeyOrder_perm fields).mem_iff.mp hf)
    have hts : ∃ ts, List.Forall₂ (fun f t => write f.2 = .ok t) (inKeyOrder fields) ts := by
      generalize inKeyOrder fields = sorted at hmem
      induction sorted with
      | nil => exact ⟨[], .nil⟩
      | cons f fs ihfs =>
        obtain ⟨t, ht⟩ := hmem f (by simp)
        obtain ⟨ts, hts⟩ := ihfs fun g hg => hmem g (by simp [hg])
        exact ⟨t :: ts, .cons ht hts⟩
    obtain ⟨ts, hts⟩ := hts
    exact ⟨_, write_obj_eq_ok_iff.mpr ⟨ts, hts, rfl⟩⟩

theorem WireValue.exists_canonical {levels : Nat} {v : CJ} (h : WireValue levels v) :
    ∃ b, canonical v = .ok b := by
  obtain ⟨t, ht⟩ := h.exists_write
  exact ⟨utf8Chars t, by simp only [canonical, ht, ok_bind]⟩

theorem checkCanonicalBase64_encodeChars (key : String) (b : Bytes) :
    checkCanonicalBase64 key (String.ofList (Base64.encodeChars b)) = .ok () := by
  simp [checkCanonicalBase64, String.toList_ofList, refuseIf]

theorem b64Decode_encodeChars (b : Bytes) :
    b64Decode (String.ofList (Base64.encodeChars b)) = .ok b := by
  simp [b64Decode, String.toList_ofList]

theorem checkByteMember_of_denotes {topByte topText : List String} {k : String} {v : CJ}
    {n : JNode} {d : Nat} (htop : d = 1 → topByte = [] ∧ topText = [])
    (hbytes : k ∈ wireByteFields → ∃ b, v = .bytes b) (hn : Denotes v n) :
    checkByteMember topByte topText d k n.v = .ok () := by
  by_cases hk : k ∈ wireByteFields
  · obtain ⟨b, rfl⟩ := hbytes hk
    cases hn
    simp [checkByteMember, JNode.v, checkCanonicalBase64_encodeChars]
  · unfold checkByteMember
    split
    · by_cases hd : d = 1
      · simp [hk, htop hd]
      · simp [hk, hd]
    · rfl

/-- A byte field of a wire value holds canonical base64; the names a schema adds
or exempts matter only among the members of the document itself. -/
theorem checkByteNode_of_denotes {topByte topText : List String} {levels : Nat} {v : CJ}
    (h : WireValue levels v) : ∀ {n}, Denotes v n → ∀ d,
      (d = 0 → topByte = [] ∧ topText = []) → checkByteNode topByte topText d n = .ok () := by
  induction h with
  | bool levels b => rintro n ⟨⟩ d _; rfl
  | int levels n _ => rintro n ⟨⟩ d _; rfl
  | str levels s => rintro n ⟨⟩ d _; rfl
  | bytes levels b => rintro n ⟨⟩ d _; rfl
  | arr levels xs hxs ih =>
    rintro n ⟨⟩ d htop
    rename_i ns i j hns
    clear hxs htop
    simp only [checkByteNode, checkByteFields]
    induction hns with
    | nil => rfl
    | cons hx _ ihns =>
      rw [checkByteItems, ih _ (by simp) hx _ (by simp), ok_bind]
      exact ihns fun x hmem => ih x (by simp [hmem])
  | obj levels fields hkeys hbytes _ ih =>
    rintro n ⟨⟩ d htop
    rename_i ms i j hfst hns
    have hmem : ∀ f ∈ inKeyOrder fields, f ∈ fields :=
      fun f hf => (inKeyOrder_perm fields).mem_iff.mp hf
    simp only [checkByteNode, checkByteFields]
    generalize inKeyOrder fields = sorted at hfst hns hmem
    induction ms generalizing sorted with
    | nil => rfl
    | cons m ms ihms =>
      obtain ⟨k, x⟩ := m
      cases sorted with
      | nil => simp at hfst
      | cons f fs =>
        simp only [List.map_cons, List.cons.injEq] at hfst
        obtain ⟨rfl, hfst⟩ := hfst
        obtain ⟨hx, hxs⟩ := List.forall₂_cons.mp hns
        have hf := hmem f (by simp)
        have hbyte := checkByteMember_of_denotes (d := d + 1)
          (fun hd => htop (Nat.succ.inj hd)) (hbytes f hf) hx
        rw [checkByteMembers, hbyte, ok_bind, ih f hf hx _ (by simp), ite_self, ok_bind]
        exact ihms fs hfst hxs fun g hg => hmem g (by simp [hg])

theorem rejectNullNode_of_denotes {levels : Nat} {v : CJ} (h : WireValue levels v) :
    ∀ {n}, Denotes v n → rejectNullNode n = .ok () := by
  induction h with
  | bool levels b => rintro n ⟨⟩; rfl
  | int levels n _ => rintro n ⟨⟩; rfl
  | str levels s => rintro n ⟨⟩; rfl
  | bytes levels b => rintro n ⟨⟩; rfl
  | arr levels xs hxs ih =>
    rintro n ⟨⟩
    rename_i ns i j hns
    clear hxs
    simp only [rejectNullNode, rejectUnexpectedNull]
    induction hns with
    | nil => rfl
    | cons hx _ ihns =>
      rw [rejectNullItems, ih _ (by simp) hx, ok_bind]
      exact ihns fun x hmem => ih x (by simp [hmem])
  | obj levels fields hkeys hbytes _ ih =>
    rintro n ⟨⟩
    rename_i ms i j hfst hns
    have hmem : ∀ f ∈ inKeyOrder fields, f ∈ fields :=
      fun f hf => (inKeyOrder_perm fields).mem_iff.mp hf
    simp only [rejectNullNode, rejectUnexpectedNull]
    generalize inKeyOrder fields = sorted at hfst hns hmem
    induction ms generalizing sorted with
    | nil => rfl
    | cons m ms ihms =>
      obtain ⟨k, x⟩ := m
      cases sorted with
      | nil => simp at hfst
      | cons f fs =>
        simp only [List.map_cons, List.cons.injEq] at hfst
        obtain ⟨rfl, hfst⟩ := hfst
        obtain ⟨hx, hxs⟩ := List.forall₂_cons.mp hns
        rw [rejectNullMembers, ih f (hmem f (by simp)) hx, ite_self, ok_bind]
        exact ihms fs hfst hxs fun g hg => hmem g (by simp [hg])

/-- Canonical wire text passes every schema-wide check. -/
theorem parseWire_canonical {v : CJ} {b : Bytes} (hv : WireValue maxJsonNestingDepth v)
    (h : canonical v = .ok b) : ∃ n, parseWire b [] [] = .ok n ∧ Denotes v n := by
  obtain ⟨n, hn, hd⟩ := parseJson_canonical hv.fits h
  refine ⟨n, ?_, hd⟩
  simp only [parseWire, hn, ok_bind, checkByteNode_of_denotes hv hd 0 (fun _ => ⟨rfl, rfl⟩),
    rejectNullNode_of_denotes hv hd]

/-! ## Documents with nullable members -/

/-- The members of a document whose schema names further byte members
(`topByte`), exempts some (`topText`) and lets the nullable ones be `null`. -/
structure WireDocument (topByte topText : List String) (fields : List (String × CJ)) : Prop where
  keys : (fields.map Prod.fst).Nodup
  values : ∀ f ∈ fields, WireValue (maxJsonNestingDepth - 1) f.2
    ∨ (f.2 = .null ∧ f.1 ∈ nullableMembers)
  bytes : ∀ f ∈ fields, (f.1 ∈ wireByteFields ∧ f.1 ∉ topText) ∨ f.1 ∈ topByte →
    (∃ b, f.2 = .bytes b) ∨ f.2 = .null

variable {topByte topText : List String} {fields : List (String × CJ)}

/-- A document passes with fewer of its byte members named. -/
theorem WireDocument.fewerBytes (h : WireDocument topByte topText fields) {named : List String}
    (hsub : named ⊆ topByte) : WireDocument named topText fields :=
  { keys := h.keys, values := h.values
    bytes := fun f hf hnamed => h.bytes f hf (hnamed.imp id fun hname => hsub hname) }

theorem WireDocument.fits (h : WireDocument topByte topText fields) :
    Fits maxJsonNestingDepth (.obj fields) := by
  refine .obj 15 fields h.keys fun f hf => ?_
  rcases h.values f hf with hv | ⟨hnull, -⟩
  · exact hv.fits
  · rw [hnull]
    exact .null 15

theorem WireDocument.checkByteNode_ok (h : WireDocument topByte topText fields) {n : JNode}
    (hn : Denotes (.obj fields) n) : checkByteNode topByte topText 0 n = .ok () := by
  cases hn with
  | obj _ ms i j hfst hns =>
    have hmem : ∀ f ∈ inKeyOrder fields, f ∈ fields :=
      fun f hf => (inKeyOrder_perm fields).mem_iff.mp hf
    simp only [checkByteNode, checkByteFields]
    generalize inKeyOrder fields = sorted at hfst hns hmem
    induction ms generalizing sorted with
    | nil => rfl
    | cons m ms ihms =>
      obtain ⟨k, x⟩ := m
      cases sorted with
      | nil => simp at hfst
      | cons f fs =>
        simp only [List.map_cons, List.cons.injEq] at hfst
        obtain ⟨rfl, hfst⟩ := hfst
        obtain ⟨hx, hxs⟩ := List.forall₂_cons.mp hns
        have hf := hmem f (by simp)
        have hbyte : checkByteMember topByte topText 1 f.1 x.v = .ok () := by
          unfold checkByteMember
          split
          · rename_i s hs
            split
            · rename_i hnamed
              have hnamed' : (f.1 ∈ wireByteFields ∧ f.1 ∉ topText) ∨ f.1 ∈ topByte := by
                simpa using hnamed
              rcases h.bytes f hf hnamed' with ⟨b, hb⟩ | hnull
              · rw [hb] at hx
                cases hx
                cases hs
                exact checkCanonicalBase64_encodeChars _ _
              · rw [hnull] at hx
                cases hx
                cases hs
            · rfl
          · rfl
        have hnode : checkByteNode topByte topText 1 x = .ok () := by
          rcases h.values f hf with hv | ⟨hnull, -⟩
          · exact checkByteNode_of_denotes hv hx 1 (by simp)
          · rw [hnull] at hx
            cases hx
            rfl
        rw [checkByteMembers, hbyte, ok_bind, hnode, ite_self, ok_bind]
        exact ihms fs hfst hxs fun g hg => hmem g (by simp [hg])

theorem WireDocument.rejectNullNode_ok (h : WireDocument topByte topText fields) {n : JNode}
    (hn : Denotes (.obj fields) n) : rejectNullNode n = .ok () := by
  cases hn with
  | obj _ ms i j hfst hns =>
    have hmem : ∀ f ∈ inKeyOrder fields, f ∈ fields :=
      fun f hf => (inKeyOrder_perm fields).mem_iff.mp hf
    simp only [rejectNullNode, rejectUnexpectedNull]
    generalize inKeyOrder fields = sorted at hfst hns hmem
    induction ms generalizing sorted with
    | nil => rfl
    | cons m ms ihms =>
      obtain ⟨k, x⟩ := m
      cases sorted with
      | nil => simp at hfst
      | cons f fs =>
        simp only [List.map_cons, List.cons.injEq] at hfst
        obtain ⟨rfl, hfst⟩ := hfst
        obtain ⟨hx, hxs⟩ := List.forall₂_cons.mp hns
        have hrest := ihms fs hfst hxs fun g hg => hmem g (by simp [hg])
        rw [rejectNullMembers]
        rcases h.values f (hmem f (by simp)) with hv | ⟨hnull, hname⟩
        · rw [rejectNullNode_of_denotes hv hx, ite_self, ok_bind]
          exact hrest
        · rw [hnull] at hx
          cases hx
          have hnullable : nullableMembers.contains f.1 = true := by simpa using hname
          have hskip : ∀ p q, (decide (f.1 = "params")
              || (JNode.mk .null p q).isNull && nullableMembers.contains f.1) = true := by
            intro p q
            rw [hnullable]
            simp [JNode.isNull, JNode.v]
          rw [if_pos (hskip _ _)]
          exact hrest

/-- Canonical text of a document passes every schema-wide check. -/
theorem WireDocument.parseWire_ok (h : WireDocument topByte topText fields) {b : Bytes}
    (hb : canonical (.obj fields) = .ok b) :
    ∃ n, parseWire b topByte topText = .ok n ∧ Denotes (.obj fields) n := by
  obtain ⟨n, hn, hd⟩ := parseJson_canonical h.fits hb
  refine ⟨n, ?_, hd⟩
  simp only [parseWire, hn, ok_bind, h.checkByteNode_ok hd, h.rejectNullNode_ok hd]

/-- A document always has canonical text. -/
theorem WireDocument.exists_canonical (h : WireDocument topByte topText fields) :
    ∃ b, canonical (.obj fields) = .ok b := by
  have hmem : ∀ f ∈ inKeyOrder fields, ∃ t, write f.2 = .ok t := by
    intro f hf
    rcases h.values f ((inKeyOrder_perm fields).mem_iff.mp hf) with hv | ⟨hnull, -⟩
    · exact hv.exists_write
    · rw [hnull]
      exact ⟨_, rfl⟩
  have hts : ∃ ts, List.Forall₂ (fun f t => write f.2 = .ok t) (inKeyOrder fields) ts := by
    generalize inKeyOrder fields = sorted at hmem
    induction sorted with
    | nil => exact ⟨[], .nil⟩
    | cons f fs ihfs =>
      obtain ⟨t, ht⟩ := hmem f (by simp)
      obtain ⟨ts, hts⟩ := ihfs fun g hg => hmem g (by simp [hg])
      exact ⟨t :: ts, .cons ht hts⟩
  obtain ⟨ts, hts⟩ := hts
  obtain ⟨t, hwrite⟩ : ∃ t, write (.obj fields) = .ok t :=
    ⟨_, write_obj_eq_ok_iff.mpr ⟨ts, hts, rfl⟩⟩
  exact ⟨utf8Chars t, by simp only [canonical, hwrite, ok_bind]⟩

/-! ## Object views of denoting nodes -/

theorem isNull_of_denotes {v : CJ} {n : JNode} (h : Denotes v n) (hv : v ≠ .null) :
    n.isNull = false := by
  cases h <;> first | rfl | exact absurd rfl hv

/-- Reading the nodes of written values gives what each value reads as. -/
theorem mapM_reads {α β : Type} {read : JNode → V2Result β} {cj : α → CJ} {g : α → β}
    {values : List α} {ns : List JNode}
    (hread : ∀ a ∈ values, ∀ n, Denotes (cj a) n → read n = .ok (g a))
    (hns : List.Forall₂ Denotes (values.map cj) ns) : ns.mapM read = .ok (values.map g) := by
  rw [mapM_eq_ok_iff]
  induction values generalizing ns with
  | nil =>
    cases hns
    exact .nil
  | cons a values ih =>
    cases hns with
    | cons hn hrest =>
      exact .cons (hread a (by simp) _ hn) (ih (fun b hb => hread b (by simp [hb])) hrest)

/-- The members `o` hold exactly the values of `fields`. -/
structure ObjView (fields : List (String × CJ)) (o : Obj) : Prop where
  get : ∀ k v, (k, v) ∈ fields → ∃ m, o.get k = some m ∧ Denotes v m
  keys : ∀ f ∈ o, f.1 ∈ fields.map Prod.fst

theorem objView_of_denotes {fields : List (String × CJ)} {n : JNode}
    (h : Denotes (.obj fields) n) (hkeys : (fields.map Prod.fst).Nodup) :
    ∃ o, obj n = .ok o ∧ ObjView fields o := by
  cases h with
  | obj _ ms i j hfst hns =>
    have hperm := inKeyOrder_perm fields
    have hnodup : ((inKeyOrder fields).map Prod.fst).Nodup :=
      (hperm.map Prod.fst).nodup_iff.mpr hkeys
    refine ⟨ms, rfl, ?_, ?_⟩
    · intro k v hkv
      have hkv' : (k, v) ∈ inKeyOrder fields := hperm.mem_iff.mpr hkv
      clear hkv hkeys hperm
      generalize inKeyOrder fields = sorted at hfst hns hnodup hkv'
      induction ms generalizing sorted with
      | nil =>
        cases sorted with
        | nil => simp at hkv'
        | cons f fs => simp at hfst
      | cons m ms ih =>
        cases sorted with
        | nil => simp at hkv'
        | cons f fs =>
          simp only [List.map_cons, List.cons.injEq] at hfst
          obtain ⟨hk, hfst⟩ := hfst
          obtain ⟨hx, hxs⟩ := List.forall₂_cons.mp hns
          simp only [List.map_cons, List.nodup_cons] at hnodup
          rcases List.mem_cons.mp hkv' with rfl | hmem
          · exact ⟨m.2, by simp [Obj.get, ← hk], hx⟩
          · have hne : (m.1 == k) = false := by
              rw [beq_eq_false_iff_ne]
              rintro rfl
              exact hnodup.1 (hk ▸ List.mem_map_of_mem hmem)
            obtain ⟨m', hm', hd⟩ := ih fs hfst hxs hnodup.2 hmem
            exact ⟨m', by simpa [Obj.get, List.find?_cons, hne] using hm', hd⟩
    · intro f hf
      have : f.1 ∈ ms.map Prod.fst := List.mem_map_of_mem hf
      rw [← hfst] at this
      exact (hperm.map Prod.fst).mem_iff.mp this

namespace ObjView

variable {fields : List (String × CJ)} {o : Obj}

theorem only_ok (h : ObjView fields o) (allowed : List String)
    (hsub : ∀ f ∈ fields, f.1 ∈ allowed) : o.only allowed = .ok () := by
  have hnone : (o.find? fun f => !allowed.contains f.1) = none := by
    rw [List.find?_eq_none]
    intro f hf
    obtain ⟨g, hg, hgf⟩ := List.mem_map.mp (h.keys f hf)
    have := hsub g hg
    rw [hgf] at this
    simpa using this
  simp only [Obj.only, hnone]

theorem require_nullable_ok (h : ObjView fields o) (names nullable : List String)
    (hall : ∀ name ∈ names, name ∈ fields.map Prod.fst)
    (hnull : ∀ f ∈ fields, f.2 = .null → f.1 ∈ nullable) : o.require names nullable = .ok () := by
  induction names with
  | nil => rfl
  | cons name names ih =>
    obtain ⟨f, hf, rfl⟩ := List.mem_map.mp (hall name (by simp))
    obtain ⟨m, hm, hd⟩ := h.get f.1 f.2 hf
    have hallowed : (m.isNull && !nullable.contains f.1) = false := by
      by_cases hv : f.2 = .null
      · have hname : nullable.contains f.1 = true := by simpa using hnull f hf hv
        rw [hname, Bool.not_true, Bool.and_false]
      · rw [isNull_of_denotes hd hv, Bool.false_and]
    simp only [Obj.require, hm, hallowed, Bool.false_eq_true, ↓reduceIte]
    exact ih fun n hn => hall n (by simp [hn])

theorem require_ok (h : ObjView fields o) (names : List String)
    (hall : ∀ name ∈ names, name ∈ fields.map Prod.fst) (hnull : ∀ f ∈ fields, f.2 ≠ .null) :
    o.require names [] = .ok () :=
  h.require_nullable_ok names [] hall fun f hf hv => absurd hv (hnull f hf)

theorem present (h : ObjView fields o) {k : String} {v : CJ} (hk : (k, v) ∈ fields)
    (hv : v ≠ .null) : ∃ m, o.present k = some m ∧ Denotes v m := by
  obtain ⟨m, hm, hd⟩ := h.get k v hk
  exact ⟨m, by simp [Obj.present, hm, isNull_of_denotes hd hv], hd⟩

theorem str_ok (h : ObjView fields o) {k s : String} (hk : (k, .str s) ∈ fields) :
    o.str k = .ok s := by
  obtain ⟨m, hm, hd⟩ := h.present hk (by simp)
  cases hd
  simp [Obj.str, hm, asStr, JNode.v]

theorem i64_ok (h : ObjView fields o) {k : String} {n : Int} (hk : (k, .int n) ∈ fields)
    (hn : -maxSafe ≤ n ∧ n ≤ maxSafe) : o.i64 k = .ok n := by
  obtain ⟨m, hm, hd⟩ := h.present hk (by simp)
  cases hd
  simp only [Obj.i64, hm, asI64, JNode.v, String.toList_ofList, not_any_float_encodeInt,
    parseI64_encodeInt hn, Bool.false_eq_true, ↓reduceIte]

theorem bytes_ok (h : ObjView fields o) {k : String} {b : Bytes} (hk : (k, .bytes b) ∈ fields) :
    o.bytes k = .ok b := by
  obtain ⟨m, hm, hd⟩ := h.present hk (by simp)
  cases hd
  simp [Obj.bytes, hm, asStr, JNode.v, b64Decode_encodeChars]

theorem array_ok (h : ObjView fields o) {k : String} {xs : List CJ}
    (hk : (k, .arr xs) ∈ fields) :
    ∃ ns, o.array k = .ok ns ∧ List.Forall₂ Denotes xs ns := by
  obtain ⟨m, hm, hd⟩ := h.present hk (by simp)
  cases hd with
  | arr _ ns i j hns => exact ⟨ns, by simp [Obj.array, hm, JNode.v], hns⟩

theorem get_absent (h : ObjView fields o) {k : String} (hk : k ∉ fields.map Prod.fst) :
    o.get k = none := by
  have hnone : (o.find? fun f => f.1 == k) = none := by
    rw [List.find?_eq_none]
    intro f hf heq
    obtain rfl := beq_iff_eq.mp heq
    exact hk (h.keys f hf)
  rw [Obj.get, hnone, Option.map_none]

theorem present_absent (h : ObjView fields o) {k : String} (hk : k ∉ fields.map Prod.fst) :
    o.present k = none := by
  rw [Obj.present, h.get_absent hk, Option.filter_none]

/-- A text member that is written exactly when it is not empty. -/
theorem str_optional (h : ObjView fields o) {k s : String}
    (hin : s ≠ "" → (k, .str s) ∈ fields) (hout : s = "" → k ∉ fields.map Prod.fst) :
    o.str k = .ok s := by
  by_cases hs : s = ""
  · rw [Obj.str, h.present_absent (hout hs), hs]
  · exact h.str_ok (hin hs)

theorem strArray_ok (h : ObjView fields o) {k : String} {values : List String}
    (hk : (k, CJ.strs values) ∈ fields) : o.strArray k = .ok values := by
  obtain ⟨m, hm, hd⟩ := h.present hk (by simp [CJ.strs])
  cases hd with
  | arr _ ns i j hns =>
    simp only [Obj.strArray, hm, JNode.v, mapM_eq_ok_iff]
    clear hm hk h
    induction values generalizing ns with
    | nil =>
      cases hns
      exact .nil
    | cons v values ih =>
      cases hns with
      | cons hv hvs =>
        cases hv
        exact .cons rfl (ih _ hvs)

/-- A member that is `null` or a text. -/
theorem optStr_ok (h : ObjView fields o) {k : String} {value : Option String}
    (hk : (k, value.elim .null .str) ∈ fields) : o.optStr k = .ok value := by
  cases value with
  | none =>
    obtain ⟨m, hm, hd⟩ := h.get k .null hk
    cases hd
    rw [Obj.optStr, Obj.present, hm]
    rfl
  | some s =>
    obtain ⟨m, hm, hd⟩ := h.present (v := .str s) hk (by simp)
    cases hd
    simp [Obj.optStr, hm, asStr, JNode.v]

theorem u16_ok (h : ObjView fields o) {k : String} {n : Nat} (hk : (k, .int n) ∈ fields)
    (hn : n ≤ 65535) : o.u16 k = .ok n := by
  have hsafe : -maxSafe ≤ (n : Int) ∧ (n : Int) ≤ maxSafe := by
    simp only [maxSafe]
    omega
  rw [Obj.u16, h.i64_ok hk hsafe, ok_bind, if_pos (by omega), Int.toNat_natCast]

/-- The two components of a hybrid key or signature. -/
theorem pair_ok (h : ObjView fields o) {k : String} {ed25519 mlDsa65 : Bytes}
    (hk : (k, .obj [("ed25519", .bytes ed25519), ("ml_dsa_65", .bytes mlDsa65)]) ∈ fields) :
    o.pair k = .ok (ed25519, mlDsa65) := by
  obtain ⟨m, hm, hd⟩ := h.present hk (by simp)
  obtain ⟨inner, hinner, hview⟩ := objView_of_denotes hd (by simp)
  have honly := hview.only_ok ["ed25519", "ml_dsa_65"] (by simp)
  have hreq := hview.require_ok ["ed25519", "ml_dsa_65"] (by simp) (by simp)
  have hed : Obj.bytes inner "ed25519" = .ok ed25519 := hview.bytes_ok (by simp)
  have hml : Obj.bytes inner "ml_dsa_65" = .ok mlDsa65 := hview.bytes_ok (by simp)
  simp only [Obj.pair, hm, hinner, ok_bind, honly, hreq, hed, hml]

theorem pubKey_ok (h : ObjView fields o) {k : String} {key : HybridPublicKey}
    (hk : (k, CJ.key key) ∈ fields) : o.pubKey k = .ok key := by
  rw [Obj.pubKey, h.pair_ok hk, ok_bind]

theorem sig_ok (h : ObjView fields o) {k : String} {s : HybridSignature}
    (hk : (k, CJ.sig s) ∈ fields) : o.sig k = .ok s := by
  rw [Obj.sig, h.pair_ok hk, ok_bind]

end ObjView

/-- A document's canonical text is read back member by member. -/
theorem WireDocument.exists_view (h : WireDocument topByte topText fields) {b : Bytes}
    (hb : canonical (.obj fields) = .ok b) :
    ∃ n o, parseWire b topByte topText = .ok n ∧ obj n = .ok o ∧ canonicalNode n = b
      ∧ ObjView fields o := by
  obtain ⟨n, hn, hd⟩ := h.parseWire_ok hb
  obtain ⟨o, ho, hview⟩ := objView_of_denotes hd h.keys
  exact ⟨n, o, hn, ho, canonicalNode_of_denotes h.fits hd hb, hview⟩

end RatifyProtocol.V2
