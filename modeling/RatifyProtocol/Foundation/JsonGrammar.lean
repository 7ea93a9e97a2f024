import Mathlib.Data.List.Forall2
import RatifyProtocol.Foundation.Text
set_option autoImplicit false

/-!
# A grammar of JSON texts

RFC 8259 over characters, with integers as the only numbers, no repeated member
names and bounded nesting.  The grammar is generic in what is read: a reading is
built from the shape of a text and the bytes it covers, so that a tree with its
byte spans and a plain value are readings of the same texts.
-/

namespace RatifyProtocol.Foundation

/-! ## Values -/

/-- A JSON value.  An object is a finite map from names to values. -/
inductive JsonValue where
  | null
  | bool (b : Bool)
  | int (n : Int)
  | str (s : String)
  | arr (items : List JsonValue)
  | obj (members : String → Option JsonValue)

/-- One level of a reading: a scalar, or a container of readings. -/
inductive JsonShape (τ : Type) where
  | null
  | bool (b : Bool)
  | int (n : Int)
  | str (s : String)
  | arr (items : List τ)
  | obj (members : List (String × τ))

namespace JsonShape

variable {τ τ' : Type}

/-- A shape of other readings. -/
def map (f : τ → τ') : JsonShape τ → JsonShape τ'
  | null => .null
  | bool b => .bool b
  | int n => .int n
  | str s => .str s
  | arr items => .arr (items.map f)
  | obj members => .obj (members.map fun m => (m.1, f m.2))

theorem map_id (shape : JsonShape τ) : shape.map id = shape := by
  cases shape with
  | null => rfl
  | bool b => rfl
  | int n => rfl
  | str s => rfl
  | arr items => rw [map, List.map_id]
  | obj members => exact congrArg obj (List.map_id members)

/-- The value of a shape of values. -/
def value : JsonShape JsonValue → JsonValue
  | null => .null
  | bool b => .bool b
  | int n => .int n
  | str s => .str s
  | arr items => .arr items
  | obj members => .obj fun k => members.lookup k

end JsonShape

namespace JsonGrammar

/-! ## Tokens -/

/-- What is left to a dialect: how a `\u` escape spells a number, and the largest
magnitude of an integer. -/
structure Dialect where
  quad : Nat → List Char → Prop
  bound : Int

/-- Insignificant white space. -/
def Space (w : List Char) : Prop := ∀ c ∈ w, c = ' ' ∨ c = '\t' ∨ c = '\n' ∨ c = '\r'

/-- The value of a hexadecimal digit of either case. -/
def hexDigitValue (c : Char) : Option Nat :=
  if '0' ≤ c ∧ c ≤ '9' then some (c.toNat - 48)
  else if 'a' ≤ c ∧ c ≤ 'f' then some (c.toNat - 87)
  else if 'A' ≤ c ∧ c ≤ 'F' then some (c.toNat - 55)
  else none

/-- Exactly four hexadecimal digits. -/
def FourHexDigits (n : Nat) (t : List Char) : Prop :=
  ∃ a b c d va vb vc vd, t = [a, b, c, d] ∧ hexDigitValue a = some va
    ∧ hexDigitValue b = some vb ∧ hexDigitValue c = some vc ∧ hexDigitValue d = some vd
    ∧ n = va * 4096 + vb * 256 + vc * 16 + vd

/-- The characters with an escape of one letter. -/
def letterEscapes : List (Char × Char) :=
  [('"', '"'), ('\\', '\\'), ('/', '/'), ('b', '\x08'), ('f', '\x0c'), ('n', '\n'), ('r', '\r'),
    ('t', '\t')]

/-- One character of a string. -/
inductive CharText (quad : Nat → List Char → Prop) : Char → List Char → Prop
  | plain {c : Char} (quote : c ≠ '"') (backslash : c ≠ '\\') (control : 0x20 ≤ c.toNat) :
      CharText quad c [c]
  | letter {e c : Char} (escape : (e, c) ∈ letterEscapes) : CharText quad c ['\\', e]
  | unit {c : Char} {q : List Char} (code : quad c.toNat q) : CharText quad c ('\\' :: 'u' :: q)
  | pair {c : Char} {high low : Nat} {q q' : List Char} (first : quad high q)
      (second : quad low q') (isHigh : 0xD800 ≤ high ∧ high < 0xDC00)
      (isLow : 0xDC00 ≤ low ∧ low < 0xE000)
      (code : c.toNat = 0x10000 + (high - 0xD800) * 1024 + (low - 0xDC00)) :
      CharText quad c ('\\' :: 'u' :: (q ++ '\\' :: 'u' :: q'))

/-- A string between its quotes. -/
def StringText (quad : Nat → List Char → Prop) (s : String) (t : List Char) : Prop :=
  ∃ ts, List.Forall₂ (CharText quad) s.toList ts ∧ t = '"' :: ts.flatten ++ ['"']

/-- The digits of a positive integer. -/
structure PositiveDigits (m : Nat) (ds : List Char) : Prop where
  first : ∃ d rest, ds = d :: rest ∧ '1' ≤ d ∧ d ≤ '9'
  digits : ∀ d ∈ ds, d.isDigit = true
  value : m = Nat.ofDigitChars 10 ds 0

/-- An integer: no fraction, no exponent, no leading zero and no negative zero. -/
inductive IntegerText : Int → List Char → Prop
  | zero : IntegerText 0 ['0']
  | positive {m : Nat} {ds : List Char} (digits : PositiveDigits m ds) : IntegerText m ds
  | negative {m : Nat} {ds : List Char} (digits : PositiveDigits m ds) :
      IntegerText (-m) ('-' :: ds)

/-! ## Containers -/

/-- The number of bytes of a text. -/
def size (t : List Char) : Nat := (utf8Chars t).length

@[simp] theorem size_nil : size [] = 0 := rfl

@[simp] theorem size_cons (c : Char) (t : List Char) : size (c :: t) = c.utf8Size + size t := by
  rw [size, utf8Chars_cons, List.length_append, String.length_utf8EncodeChar]
  rfl

@[simp] theorem size_append (t u : List Char) : size (t ++ u) = size t + size u := by
  rw [size, utf8Chars_append, List.length_append]
  rfl

variable {τ : Type}

/-- The elements of an array, each between white space, with commas between them,
from byte `i` on. -/
inductive ItemsText (element : Nat → τ → List Char → Prop) : Nat → List τ → List Char → Prop
  | last {i : Nat} {x : τ} {w t w' : List Char} (before : Space w) (item : element (i + size w) x t)
      (after : Space w') : ItemsText element i [x] (w ++ t ++ w')
  | more {i : Nat} {x : τ} {xs : List τ} {w t w' rest : List Char} (before : Space w)
      (item : element (i + size w) x t) (after : Space w')
      (items : ItemsText element (i + size (w ++ t ++ w') + 1) xs rest) :
      ItemsText element i (x :: xs) (w ++ t ++ w' ++ ',' :: rest)

/-- One member: a name, a colon and a value, each between white space. -/
structure MemberText (quad : Nat → List Char → Prop) (element : Nat → τ → List Char → Prop)
    (i : Nat) (m : String × τ) (text : List Char) : Prop where
  parts : ∃ w₀ k w₁ w₂ t w₃, Space w₀ ∧ StringText quad m.1 k ∧ Space w₁ ∧ Space w₂
    ∧ element (i + size (w₀ ++ k ++ w₁) + 1 + size w₂) m.2 t ∧ Space w₃
    ∧ text = w₀ ++ k ++ w₁ ++ ':' :: (w₂ ++ t ++ w₃)

/-- The members of an object with commas between them, from byte `i` on. -/
inductive MembersText (quad : Nat → List Char → Prop) (element : Nat → τ → List Char → Prop) :
    Nat → List (String × τ) → List Char → Prop
  | last {i : Nat} {m : String × τ} {t : List Char} (member : MemberText quad element i m t) :
      MembersText quad element i [m] t
  | more {i : Nat} {m : String × τ} {ms : List (String × τ)} {t rest : List Char}
      (member : MemberText quad element i m t)
      (members : MembersText quad element (i + size t + 1) ms rest) :
      MembersText quad element i (m :: ms) (t ++ ',' :: rest)

/-! ## Leading white space -/

section Leading

variable {element : Nat → τ → List Char → Prop} {quad : Nat → List Char → Prop} {i : Nat}

theorem Space.append {w w' : List Char} (h : Space w) (h' : Space w') : Space (w ++ w') := by
  intro c hc
  rcases List.mem_append.mp hc with hc | hc
  · exact h c hc
  · exact h' c hc

theorem ItemsText.space {w t : List Char} {xs : List τ} (hw : Space w)
    (h : ItemsText element (i + size w) xs t) : ItemsText element i xs (w ++ t) := by
  cases h with
  | @last _ x v t v' before item after =>
    rw [Nat.add_assoc, ← size_append] at item
    have hlast := ItemsText.last (hw.append before) item after
    rwa [List.append_assoc, List.append_assoc, ← List.append_assoc v] at hlast
  | @more _ x xs v t v' rest before item after items =>
    rw [Nat.add_assoc, ← size_append] at item
    rw [Nat.add_assoc i, ← size_append, ← List.append_assoc, ← List.append_assoc] at items
    have hmore := ItemsText.more (hw.append before) item after items
    simpa only [List.append_assoc] using hmore

/-- The first element of an array, after the white space before it. -/
theorem ItemsText.exists_space {xs : List τ} {t : List Char} (h : ItemsText element i xs t) :
    ∃ w t', Space w ∧ t = w ++ t' ∧ ItemsText element (i + size w) xs t'
      ∧ ∃ x u r, element (i + size w) x u ∧ t' = u ++ r := by
  have hnil : Space [] := fun _ hc => absurd hc List.not_mem_nil
  cases h with
  | @last _ x w t w' before item after =>
    exact ⟨w, t ++ w', before, List.append_assoc .., .last hnil item after,
      x, t, w', item, rfl⟩
  | @more _ x xs w t w' rest before item after items =>
    refine ⟨w, t ++ w' ++ ',' :: rest, before, by simp only [List.append_assoc], ?_,
      x, t, w' ++ ',' :: rest, item, List.append_assoc ..⟩
    refine .more (w := []) hnil item after ?_
    have hpos : i + size w + size ([] ++ t ++ w') = i + size (w ++ t ++ w') := by
      simp only [size_append, List.nil_append]
      omega
    rw [hpos]
    exact items

theorem MemberText.space {w t : List Char} {m : String × τ} (hw : Space w)
    (h : MemberText quad element (i + size w) m t) : MemberText quad element i m (w ++ t) := by
  obtain ⟨w₀, key, w₁, w₂, u, w₃, h₀, hname, h₁, h₂, hvalue, h₃, rfl⟩ := h
  refine ⟨w ++ w₀, key, w₁, w₂, u, w₃, hw.append h₀, hname, h₁, h₂, ?_, h₃,
    by simp only [List.append_assoc]⟩
  have hpos : i + size (w ++ w₀ ++ key ++ w₁) = i + size w + size (w₀ ++ key ++ w₁) := by
    simp only [size_append]
    omega
  rw [hpos]
  exact hvalue

theorem MembersText.space {w t : List Char} {ms : List (String × τ)} (hw : Space w)
    (h : MembersText quad element (i + size w) ms t) : MembersText quad element i ms (w ++ t) := by
  cases h with
  | last member => exact .last (member.space hw)
  | @more _ m ms t rest member members =>
    rw [Nat.add_assoc i, ← size_append] at members
    have hmore := MembersText.more (member.space hw) members
    rwa [List.append_assoc] at hmore

/-- The quote of the first name, after the white space before it. -/
theorem MemberText.exists_space {m : String × τ} {t : List Char}
    (h : MemberText quad element i m t) :
    ∃ w t', Space w ∧ t = w ++ '"' :: t' ∧ MemberText quad element (i + size w) m ('"' :: t') := by
  obtain ⟨w₀, key, w₁, w₂, u, w₃, h₀, hname, h₁, h₂, hvalue, h₃, rfl⟩ := h
  obtain ⟨ts, hts, rfl⟩ := hname
  have hnil : Space [] := fun _ hc => absurd hc List.not_mem_nil
  refine ⟨w₀, ts.flatten ++ '"' :: (w₁ ++ ':' :: (w₂ ++ u ++ w₃)), h₀, by simp,
    ⟨[], '"' :: ts.flatten ++ ['"'], w₁, w₂, u, w₃, hnil, ⟨ts, hts, rfl⟩, h₁, h₂, ?_, h₃, by simp⟩⟩
  have hpos : i + size w₀ + size ([] ++ ('"' :: ts.flatten ++ ['"']) ++ w₁)
      = i + size (w₀ ++ ('"' :: ts.flatten ++ ['"']) ++ w₁) := by
    simp only [size_append, List.nil_append]
    omega
  rw [hpos]
  exact hvalue

theorem MembersText.exists_space {ms : List (String × τ)} {t : List Char}
    (h : MembersText quad element i ms t) :
    ∃ w t', Space w ∧ t = w ++ '"' :: t'
      ∧ MembersText quad element (i + size w) ms ('"' :: t') := by
  cases h with
  | last member =>
    obtain ⟨w, t', hw, rfl, hm⟩ := member.exists_space
    exact ⟨w, t', hw, rfl, .last hm⟩
  | @more _ m ms t rest member members =>
    obtain ⟨w, t', hw, rfl, hm⟩ := member.exists_space
    refine ⟨w, t' ++ ',' :: rest, hw, by simp, ?_⟩
    rw [size_append, ← Nat.add_assoc] at members
    exact .more hm members

end Leading

/-! ## Texts -/

/-- One value from byte `i` on, without the white space around it.  Containers are
there only where their elements have a grammar. -/
inductive ShapeText (D : Dialect) (element? : Option (Nat → τ → List Char → Prop)) (i : Nat) :
    JsonShape τ → List Char → Prop
  | null : ShapeText D element? i .null ['n', 'u', 'l', 'l']
  | true : ShapeText D element? i (.bool true) ['t', 'r', 'u', 'e']
  | false : ShapeText D element? i (.bool false) ['f', 'a', 'l', 's', 'e']
  | int {n : Int} {t : List Char} (number : IntegerText n t)
      (range : -D.bound ≤ n ∧ n ≤ D.bound) : ShapeText D element? i (.int n) t
  | str {s : String} {t : List Char} (string : StringText D.quad s t) :
      ShapeText D element? i (.str s) t
  | emptyArr {element : Nat → τ → List Char → Prop} {w : List Char}
      (room : element? = some element) (space : Space w) :
      ShapeText D element? i (.arr []) ('[' :: w ++ [']'])
  | arr {element : Nat → τ → List Char → Prop} {xs : List τ} {t : List Char}
      (room : element? = some element) (items : ItemsText element (i + 1) xs t) :
      ShapeText D element? i (.arr xs) ('[' :: t ++ [']'])
  | emptyObj {element : Nat → τ → List Char → Prop} {w : List Char}
      (room : element? = some element) (space : Space w) :
      ShapeText D element? i (.obj []) ('\x7b' :: w ++ ['\x7d'])
  | obj {element : Nat → τ → List Char → Prop} {ms : List (String × τ)} {t : List Char}
      (room : element? = some element) (members : MembersText D.quad element (i + 1) ms t)
      (names : (ms.map Prod.fst).Nodup) : ShapeText D element? i (.obj ms) ('\x7b' :: t ++ ['\x7d'])

variable (D : Dialect) (build : JsonShape τ → Nat → Nat → τ)

/-- `t`, from byte `i` on, reads as `x`: containers nest at most `levels` deep, and
every value is built from its shape and the bytes it covers. -/
def ValueText : Nat → Nat → τ → List Char → Prop
  | 0, i, x, t => ∃ shape, ShapeText D none i shape t ∧ x = build shape i (i + size t)
  | levels + 1, i, x, t =>
    ∃ shape, ShapeText D (some (ValueText levels)) i shape t ∧ x = build shape i (i + size t)

/-- A JSON text: one value between white space. -/
def DocumentText (levels : Nat) (x : τ) (text : List Char) : Prop :=
  ∃ w t w', Space w ∧ ValueText D build levels (size w) x t ∧ Space w' ∧ text = w ++ t ++ w'

/-- The value of a text, whatever bytes it covers. -/
def valueOf (shape : JsonShape JsonValue) (_ _ : Nat) : JsonValue := shape.value

/-! ## Readings of one text -/

variable {D : Dialect} {build : JsonShape τ → Nat → Nat → τ} {τ' : Type}
  {build' : JsonShape τ' → Nat → Nat → τ'} {element : Nat → τ → List Char → Prop}
  {element' : Nat → τ' → List Char → Prop} {f : τ → τ'} {k : Nat} {D' : Dialect}
  {quad quad' : Nat → List Char → Prop}

/-- Every text of one dialect is one of the other. -/
structure Dialect.Within (D D' : Dialect) : Prop where
  quad : ∀ n q, D.quad n q → D'.quad n q
  bound : D.bound ≤ D'.bound

theorem Dialect.Within.refl (D : Dialect) : D.Within D := ⟨fun _ _ h => h, Int.le_refl _⟩

theorem CharText.mono (hq : ∀ n q, quad n q → quad' n q) {c : Char} {t : List Char}
    (h : CharText quad c t) : CharText quad' c t := by
  cases h with
  | plain quote backslash control => exact .plain quote backslash control
  | letter escape => exact .letter escape
  | unit code => exact .unit (hq _ _ code)
  | pair first second isHigh isLow code =>
    exact .pair (hq _ _ first) (hq _ _ second) isHigh isLow code

theorem StringText.mono (hq : ∀ n q, quad n q → quad' n q) {s : String} {t : List Char}
    (h : StringText quad s t) : StringText quad' s t := by
  obtain ⟨ts, hts, htext⟩ := h
  exact ⟨ts, hts.imp fun _ _ hc => hc.mono hq, htext⟩

theorem ItemsText.map (hf : ∀ i x t, element i x t → element' (i + k) (f x) t) {i : Nat}
    {xs : List τ} {t : List Char} (h : ItemsText element i xs t) :
    ItemsText element' (i + k) (xs.map f) t := by
  induction h with
  | last before item after =>
    have hitem := hf _ _ _ item
    rw [Nat.add_right_comm] at hitem
    exact .last before hitem after
  | more before item after _ ih =>
    have hitem := hf _ _ _ item
    rw [Nat.add_right_comm] at hitem
    refine .more before hitem after ?_
    rw [Nat.add_right_comm _ k, Nat.add_right_comm _ k]
    exact ih

theorem ItemsText.of_map (hf : ∀ i y t, element' (i + k) y t → ∃ x, element i x t ∧ f x = y)
    {i : Nat} {ys : List τ'} {t : List Char} (h : ItemsText element' (i + k) ys t) :
    ∃ xs, ItemsText element i xs t ∧ xs.map f = ys := by
  generalize hi : i + k = i' at h
  induction h generalizing i with
  | last before item after =>
    rw [← hi, Nat.add_right_comm] at item
    obtain ⟨x, hx, rfl⟩ := hf _ _ _ item
    exact ⟨[x], .last before hx after, rfl⟩
  | @more _ _ _ w t w' _ before item after _ ih =>
    rw [← hi, Nat.add_right_comm] at item
    obtain ⟨x, hx, rfl⟩ := hf _ _ _ item
    obtain ⟨xs, hxs, rfl⟩ := ih (i := i + size (w ++ t ++ w') + 1) (by omega)
    exact ⟨x :: xs, .more before hx after hxs, rfl⟩

theorem MemberText.map (hq : ∀ n q, quad n q → quad' n q)
    (hf : ∀ i x t, element i x t → element' (i + k) (f x) t) {i : Nat}
    {m : String × τ} {t : List Char} (h : MemberText quad element i m t) :
    MemberText quad' element' (i + k) (m.1, f m.2) t := by
  obtain ⟨w₀, key, w₁, w₂, u, w₃, h₀, hname, h₁, h₂, hvalue, h₃, htext⟩ := h
  refine ⟨w₀, key, w₁, w₂, u, w₃, h₀, hname.mono hq, h₁, h₂, ?_, h₃, htext⟩
  rw [Nat.add_right_comm i k, Nat.add_right_comm _ k, Nat.add_right_comm _ k]
  exact hf _ _ _ hvalue

theorem MemberText.of_map (hf : ∀ i y t, element' (i + k) y t → ∃ x, element i x t ∧ f x = y)
    {i : Nat} {m : String × τ'} {t : List Char} (h : MemberText quad element' (i + k) m t) :
    ∃ x, MemberText quad element i (m.1, x) t ∧ f x = m.2 := by
  obtain ⟨w₀, key, w₁, w₂, u, w₃, h₀, hname, h₁, h₂, hvalue, h₃, htext⟩ := h
  rw [Nat.add_right_comm i k, Nat.add_right_comm _ k, Nat.add_right_comm _ k] at hvalue
  obtain ⟨x, hx, hfx⟩ := hf _ _ _ hvalue
  exact ⟨x, ⟨w₀, key, w₁, w₂, u, w₃, h₀, hname, h₁, h₂, hx, h₃, htext⟩, hfx⟩

theorem MembersText.map (hq : ∀ n q, quad n q → quad' n q)
    (hf : ∀ i x t, element i x t → element' (i + k) (f x) t) {i : Nat}
    {ms : List (String × τ)} {t : List Char} (h : MembersText quad element i ms t) :
    MembersText quad' element' (i + k) (ms.map fun m => (m.1, f m.2)) t := by
  induction h with
  | last member => exact .last (member.map hq hf)
  | more member _ ih =>
    refine .more (member.map hq hf) ?_
    rw [Nat.add_right_comm _ k, Nat.add_right_comm _ k]
    exact ih

theorem MembersText.of_map (hf : ∀ i y t, element' (i + k) y t → ∃ x, element i x t ∧ f x = y)
    {i : Nat} {ms' : List (String × τ')} {t : List Char}
    (h : MembersText quad element' (i + k) ms' t) :
    ∃ ms, MembersText quad element i ms t ∧ (ms.map fun m => (m.1, f m.2)) = ms' := by
  generalize hi : i + k = i' at h
  induction h generalizing i with
  | last member =>
    subst hi
    obtain ⟨x, hx, hfx⟩ := member.of_map hf
    exact ⟨_, .last hx, by rw [List.map_singleton, hfx]⟩
  | @more _ _ _ t _ member _ ih =>
    subst hi
    obtain ⟨x, hx, hfx⟩ := member.of_map hf
    obtain ⟨ms, hms, rfl⟩ := ih (i := i + size t + 1) (by omega)
    exact ⟨_ :: ms, .more hx hms, by rw [List.map_cons, hfx]⟩

theorem names_map (f : τ → τ') (ms : List (String × τ)) :
    (ms.map fun m => (m.1, f m.2)).map Prod.fst = ms.map Prod.fst := by
  rw [List.map_map]
  rfl

theorem ShapeText.map (hD : D.Within D') {element? : Option (Nat → τ → List Char → Prop)}
    {element?' : Option (Nat → τ' → List Char → Prop)}
    (hf : ∀ e, element? = some e → ∃ e', element?' = some e'
      ∧ ∀ i x t, e i x t → e' (i + k) (f x) t) {i : Nat} {shape : JsonShape τ} {t : List Char}
    (h : ShapeText D element? i shape t) : ShapeText D' element?' (i + k) (shape.map f) t := by
  have hbound := hD.bound
  cases h with
  | null => exact .null
  | true => exact .true
  | false => exact .false
  | int number range => exact .int number (by omega)
  | str string => exact .str (string.mono hD.quad)
  | emptyArr room space =>
    obtain ⟨e', he', -⟩ := hf _ room
    exact .emptyArr he' space
  | arr room items =>
    obtain ⟨e', he', hmap⟩ := hf _ room
    have hitems := items.map hmap
    rw [Nat.add_right_comm] at hitems
    exact .arr he' hitems
  | emptyObj room space =>
    obtain ⟨e', he', -⟩ := hf _ room
    exact .emptyObj he' space
  | obj room members names =>
    obtain ⟨e', he', hmap⟩ := hf _ room
    have hmembers := members.map hD.quad hmap
    rw [Nat.add_right_comm] at hmembers
    exact .obj he' hmembers (by rw [names_map]; exact names)

theorem ShapeText.of_map {element? : Option (Nat → τ → List Char → Prop)}
    {element?' : Option (Nat → τ' → List Char → Prop)}
    (hf : ∀ e', element?' = some e' → ∃ e, element? = some e
      ∧ ∀ i y t, e' (i + k) y t → ∃ x, e i x t ∧ f x = y) {i : Nat} {shape' : JsonShape τ'}
    {t : List Char} (h : ShapeText D element?' (i + k) shape' t) :
    ∃ shape, ShapeText D element? i shape t ∧ shape.map f = shape' := by
  cases h with
  | null => exact ⟨_, .null, rfl⟩
  | true => exact ⟨_, .true, rfl⟩
  | false => exact ⟨_, .false, rfl⟩
  | int number range => exact ⟨_, .int number range, rfl⟩
  | str string => exact ⟨_, .str string, rfl⟩
  | emptyArr room space =>
    obtain ⟨e, he, -⟩ := hf _ room
    exact ⟨_, .emptyArr he space, rfl⟩
  | arr room items =>
    obtain ⟨e, he, hmap⟩ := hf _ room
    rw [Nat.add_right_comm] at items
    obtain ⟨xs, hxs, rfl⟩ := items.of_map hmap
    exact ⟨_, .arr he hxs, rfl⟩
  | emptyObj room space =>
    obtain ⟨e, he, -⟩ := hf _ room
    exact ⟨_, .emptyObj he space, rfl⟩
  | obj room members names =>
    obtain ⟨e, he, hmap⟩ := hf _ room
    rw [Nat.add_right_comm] at members
    obtain ⟨ms, hms, rfl⟩ := members.of_map hmap
    exact ⟨_, .obj he hms (by rw [names_map] at names; exact names), rfl⟩

/-- A map between readings, which may move a text by `k` bytes, takes the readings of
a text to its readings, in every larger dialect with at least as much room. -/
theorem ValueText.map (hD : D.Within D')
    (hf : ∀ shape i j, f (build shape i j) = build' (shape.map f) (i + k) (j + k)) {levels : Nat} :
    ∀ {levels' i : Nat} {x : τ} {t : List Char}, ValueText D build levels i x t →
      levels ≤ levels' → ValueText D' build' levels' (i + k) (f x) t := by
  induction levels with
  | zero =>
    intro levels' i x t h _
    obtain ⟨shape, hshape, rfl⟩ := h
    have hmap : ∀ element?' : Option (Nat → τ' → List Char → Prop),
        ShapeText D' element?' (i + k) (shape.map f) t :=
      fun _ => hshape.map hD fun e he => by cases he
    have hbuild : f (build shape i (i + size t))
        = build' (shape.map f) (i + k) (i + k + size t) := by
      rw [hf, Nat.add_right_comm]
    cases levels' with
    | zero => exact ⟨_, hmap none, hbuild⟩
    | succ levels' => exact ⟨_, hmap _, hbuild⟩
  | succ levels ih =>
    intro levels' i x t h hle
    obtain ⟨levels', rfl⟩ := Nat.exists_eq_succ_of_ne_zero (Nat.ne_of_gt (Nat.zero_lt_of_lt hle))
    obtain ⟨shape, hshape, rfl⟩ := h
    refine ⟨shape.map f, hshape.map hD fun e he => ⟨_, rfl, ?_⟩, ?_⟩
    · obtain rfl := Option.some.inj he
      exact fun _ _ _ hx => ih hx (Nat.le_of_succ_le_succ hle)
    · rw [hf, Nat.add_right_comm]

/-- Every reading of a text is taken from one of the readings that map to it. -/
theorem ValueText.of_map
    (hf : ∀ shape i j, f (build shape i j) = build' (shape.map f) (i + k) (j + k))
    {levels : Nat} : ∀ {i : Nat} {y : τ'} {t : List Char},
      ValueText D build' levels (i + k) y t → ∃ x, ValueText D build levels i x t ∧ f x = y := by
  induction levels with
  | zero =>
    intro i y t h
    obtain ⟨shape', htext, rfl⟩ := h
    have hback : ∃ shape, ShapeText D (none : Option (Nat → τ → List Char → Prop)) i shape t
        ∧ shape.map f = shape' := htext.of_map fun e he => by cases he
    obtain ⟨shape, hshape, rfl⟩ := hback
    exact ⟨_, ⟨shape, hshape, rfl⟩, by rw [hf, Nat.add_right_comm]⟩
  | succ levels ih =>
    intro i y t h
    obtain ⟨shape', htext, rfl⟩ := h
    have hback : ∃ shape, ShapeText D (some (ValueText D build levels)) i shape t
        ∧ shape.map f = shape' := htext.of_map fun e' he' => ⟨_, rfl, by
          obtain rfl := Option.some.inj he'
          exact fun _ _ _ => ih⟩
    obtain ⟨shape, hshape, rfl⟩ := hback
    exact ⟨_, ⟨shape, hshape, rfl⟩, by rw [hf, Nat.add_right_comm]⟩

theorem ValueText.mono (hD : D.Within D') {levels levels' i : Nat} {x : τ} {t : List Char}
    (hle : levels ≤ levels') (h : ValueText D build levels i x t) :
    ValueText D' build levels' i x t := by
  have hsame : ∀ (shape : JsonShape τ) i j,
      id (build shape i j) = build (shape.map id) (i + 0) (j + 0) := by
    intro shape i j
    rw [JsonShape.map_id]
    rfl
  exact ValueText.map hD hsame h hle

/-- A text of a dialect is one of every larger dialect, with the same reading. -/
theorem DocumentText.mono (hD : D.Within D') {levels : Nat} {x : τ} {t : List Char}
    (h : DocumentText D build levels x t) : DocumentText D' build levels x t := by
  obtain ⟨w, u, w', hw, hvalue, hw', rfl⟩ := h
  exact ⟨w, u, w', hw, hvalue.mono hD (Nat.le_refl _), hw', rfl⟩

/-! ## Texts made of tokens -/

section Tokens

variable {Good Bad : List Char → Prop} {e : Nat → τ → List Char → Prop}
  {e' : Nat → τ → List Char → Prop}

/-- A property of every character outside the escapes and of every escape, that holds of
a text when it holds of its parts. -/
structure Tokenwise (quad : Nat → List Char → Prop) (Good : List Char → Prop) : Prop where
  nil : Good []
  append : ∀ {t u}, Good t → Good u → Good (t ++ u)
  char : ∀ {c}, c ≠ '\\' → Good [c]
  letter : ∀ {e c}, (e, c) ∈ letterEscapes → Good ['\\', e]
  unit : ∀ {n q}, quad n q → Good ('\\' :: 'u' :: q)

namespace Tokenwise

theorem cons (h : Tokenwise quad Good) {c : Char} {t : List Char} (hc : c ≠ '\\') (ht : Good t) :
    Good (c :: t) :=
  h.append (h.char hc) ht

theorem plain (h : Tokenwise quad Good) {t : List Char} (ht : ∀ c ∈ t, c ≠ '\\') : Good t := by
  induction t with
  | nil => exact h.nil
  | cons c t ih =>
    exact h.cons (ht c (List.mem_cons_self ..)) (ih fun d hd => ht d (List.mem_cons_of_mem _ hd))

theorem space (h : Tokenwise quad Good) {w : List Char} (hw : Space w) : Good w := by
  apply h.plain
  rintro c hc rfl
  exact absurd (hw _ hc) (by decide)

theorem charText (h : Tokenwise quad Good) {c : Char} {t : List Char} (ht : CharText quad c t) :
    Good t := by
  cases ht with
  | plain quote backslash control => exact h.char backslash
  | letter escape => exact h.letter escape
  | unit code => exact h.unit code
  | pair first second isHigh isLow code => exact h.append (h.unit first) (h.unit second)

theorem chars (h : Tokenwise quad Good) {cs : List Char} {ts : List (List Char)}
    (hts : List.Forall₂ (CharText quad) cs ts) : Good ts.flatten := by
  induction hts with
  | nil => exact h.nil
  | cons hc _ ih => exact h.append (h.charText hc) ih

theorem stringText (h : Tokenwise quad Good) {s : String} {t : List Char}
    (ht : StringText quad s t) : Good t := by
  obtain ⟨ts, hts, rfl⟩ := ht
  exact h.append (h.cons (by decide) (h.chars hts)) (h.char (by decide))

theorem integerText (h : Tokenwise quad Good) {n : Int} {t : List Char} (ht : IntegerText n t) :
    Good t := by
  have hdigits : ∀ {m ds}, PositiveDigits m ds → Good ds := by
    intro m ds hds
    apply h.plain
    rintro c hc rfl
    exact absurd (hds.digits _ hc) (by decide)
  cases ht with
  | zero => exact h.char (by decide)
  | positive digits => exact hdigits digits
  | negative digits => exact h.cons (by decide) (hdigits digits)

theorem itemsText (h : Tokenwise quad Good) (he : ∀ i x t, e i x t → Good t) {i : Nat}
    {xs : List τ} {t : List Char} (ht : ItemsText e i xs t) : Good t := by
  induction ht with
  | last before item after => exact h.append (h.append (h.space before) (he _ _ _ item)) (h.space after)
  | more before item after _ ih =>
    exact h.append (h.append (h.append (h.space before) (he _ _ _ item)) (h.space after))
      (h.cons (by decide) ih)

theorem memberText (h : Tokenwise quad Good) (he : ∀ i x t, e i x t → Good t) {i : Nat}
    {m : String × τ} {t : List Char} (ht : MemberText quad e i m t) : Good t := by
  obtain ⟨w₀, key, w₁, w₂, u, w₃, h₀, hname, h₁, h₂, hvalue, h₃, rfl⟩ := ht
  have hvalueGood := h.append (h.append (h.space h₂) (he _ _ _ hvalue)) (h.space h₃)
  exact h.append (h.append (h.append (h.space h₀) (h.stringText hname)) (h.space h₁))
    (h.cons (by decide) hvalueGood)

theorem membersText (h : Tokenwise quad Good) (he : ∀ i x t, e i x t → Good t) {i : Nat}
    {ms : List (String × τ)} {t : List Char} (ht : MembersText quad e i ms t) : Good t := by
  induction ht with
  | last member => exact h.memberText he member
  | more member _ ih => exact h.append (h.memberText he member) (h.cons (by decide) ih)

theorem shapeText (h : Tokenwise D.quad Good) {element? : Option (Nat → τ → List Char → Prop)}
    (he : ∀ e, element? = some e → ∀ i x t, e i x t → Good t) {i : Nat} {shape : JsonShape τ}
    {t : List Char} (ht : ShapeText D element? i shape t) : Good t := by
  cases ht with
  | null => exact h.plain (by simp)
  | true => exact h.plain (by simp)
  | false => exact h.plain (by simp)
  | int number range => exact h.integerText number
  | str string => exact h.stringText string
  | emptyArr room space => exact h.append (h.cons (by decide) (h.space space)) (h.char (by decide))
  | arr room items =>
    exact h.append (h.cons (by decide) (h.itemsText (he _ room) items)) (h.char (by decide))
  | emptyObj room space => exact h.append (h.cons (by decide) (h.space space)) (h.char (by decide))
  | obj room members names =>
    exact h.append (h.cons (by decide) (h.membersText (he _ room) members)) (h.char (by decide))

theorem valueText (h : Tokenwise D.quad Good) {levels : Nat} :
    ∀ {i : Nat} {x : τ} {t : List Char}, ValueText D build levels i x t → Good t := by
  induction levels with
  | zero =>
    rintro i x t ⟨shape, hshape, -⟩
    exact h.shapeText (fun e he => by cases he) hshape
  | succ levels ih =>
    rintro i x t ⟨shape, hshape, -⟩
    refine h.shapeText (fun e he => ?_) hshape
    obtain rfl := Option.some.inj he
    exact fun _ _ _ => ih

theorem documentText (h : Tokenwise D.quad Good) {levels : Nat} {x : τ} {t : List Char}
    (ht : DocumentText D build levels x t) : Good t := by
  obtain ⟨w, u, w', hw, hvalue, hw', rfl⟩ := ht
  exact h.append (h.append (h.space hw) (h.valueText hvalue)) (h.space hw')

end Tokenwise

/-- What a text of a dialect `D` has to contain to be no text of `D'`. -/
structure Offends (D D' : Dialect) (Good Bad : List Char → Prop) : Prop where
  tokens : Tokenwise D.quad Good
  bound : D.bound ≤ D'.bound
  unit : ∀ {n q}, D.quad n q → D'.quad n q ∨ Bad ('\\' :: 'u' :: q)
  left : ∀ {t u}, Bad t → Bad (t ++ u)
  right : ∀ {t u}, Good t → Bad u → Bad (t ++ u)

namespace Offends

theorem charText (h : Offends D D' Good Bad) {c : Char} {t : List Char}
    (ht : CharText D.quad c t) : CharText D'.quad c t ∨ Bad t := by
  cases ht with
  | plain quote backslash control => exact .inl (.plain quote backslash control)
  | letter escape => exact .inl (.letter escape)
  | unit code =>
    rcases h.unit code with hcode | hbad
    · exact .inl (.unit hcode)
    · exact .inr hbad
  | pair first second isHigh isLow code =>
    rcases h.unit first with hfirst | hbad
    · rcases h.unit second with hsecond | hbad
      · exact .inl (.pair hfirst hsecond isHigh isLow code)
      · exact .inr (h.right (h.tokens.unit first) hbad)
    · exact .inr (h.left hbad)

theorem chars (h : Offends D D' Good Bad) {cs : List Char} {ts : List (List Char)}
    (hts : List.Forall₂ (CharText D.quad) cs ts) :
    List.Forall₂ (CharText D'.quad) cs ts ∨ Bad ts.flatten := by
  induction hts with
  | nil => exact .inl .nil
  | cons hc _ ih =>
    rcases h.charText hc with hc' | hbad
    · rcases ih with hcs | hbad
      · exact .inl (.cons hc' hcs)
      · exact .inr (h.right (h.tokens.charText hc) hbad)
    · exact .inr (h.left hbad)

theorem stringText (h : Offends D D' Good Bad) {s : String} {t : List Char}
    (ht : StringText D.quad s t) : StringText D'.quad s t ∨ Bad t := by
  obtain ⟨ts, hts, rfl⟩ := ht
  rcases h.chars hts with hts' | hbad
  · exact .inl ⟨ts, hts', rfl⟩
  · exact .inr (h.left (h.right (h.tokens.char (c := '"') (by decide)) hbad))

theorem itemsText (h : Offends D D' Good Bad) (hgood : ∀ i x t, e i x t → Good t)
    (he : ∀ i x t, e i x t → e' i x t ∨ Bad t) {i : Nat} {xs : List τ} {t : List Char}
    (ht : ItemsText e i xs t) : ItemsText e' i xs t ∨ Bad t := by
  induction ht with
  | last before item after =>
    rcases he _ _ _ item with hitem | hbad
    · exact .inl (.last before hitem after)
    · exact .inr (h.left (h.right (h.tokens.space before) hbad))
  | more before item after _ ih =>
    rcases he _ _ _ item with hitem | hbad
    · rcases ih with hitems | hbad
      · exact .inl (.more before hitem after hitems)
      · have hfront := h.tokens.append (h.tokens.append (h.tokens.space before)
          (hgood _ _ _ item)) (h.tokens.space after)
        exact .inr (h.right hfront (h.right (h.tokens.char (c := ',') (by decide)) hbad))
    · exact .inr (h.left (h.left (h.right (h.tokens.space before) hbad)))

theorem memberText (h : Offends D D' Good Bad) (he : ∀ i x t, e i x t → e' i x t ∨ Bad t) {i : Nat}
    {m : String × τ} {t : List Char} (ht : MemberText D.quad e i m t) :
    MemberText D'.quad e' i m t ∨ Bad t := by
  obtain ⟨w₀, key, w₁, w₂, u, w₃, h₀, hname, h₁, h₂, hvalue, h₃, rfl⟩ := ht
  rcases h.stringText hname with hname' | hbad
  · rcases he _ _ _ hvalue with hvalue' | hbad
    · exact .inl ⟨w₀, key, w₁, w₂, u, w₃, h₀, hname', h₁, h₂, hvalue', h₃, rfl⟩
    · have hfront := h.tokens.append (h.tokens.append (h.tokens.space h₀)
        (h.tokens.stringText hname)) (h.tokens.space h₁)
      have hrest := h.left (u := w₃) (h.right (h.tokens.space h₂) hbad)
      exact .inr (h.right hfront (h.right (h.tokens.char (c := ':') (by decide)) hrest))
  · exact .inr (h.left (h.left (h.right (h.tokens.space h₀) hbad)))

theorem membersText (h : Offends D D' Good Bad) (hgood : ∀ i x t, e i x t → Good t)
    (he : ∀ i x t, e i x t → e' i x t ∨ Bad t) {i : Nat} {ms : List (String × τ)} {t : List Char}
    (ht : MembersText D.quad e i ms t) : MembersText D'.quad e' i ms t ∨ Bad t := by
  induction ht with
  | last member =>
    rcases h.memberText he member with hmember | hbad
    · exact .inl (.last hmember)
    · exact .inr hbad
  | more member _ ih =>
    rcases h.memberText he member with hmember | hbad
    · rcases ih with hmembers | hbad
      · exact .inl (.more hmember hmembers)
      · exact .inr (h.right (h.tokens.memberText hgood member)
          (h.right (h.tokens.char (c := ',') (by decide)) hbad))
    · exact .inr (h.left hbad)

theorem shapeText (h : Offends D D' Good Bad) {element? : Option (Nat → τ → List Char → Prop)}
    {element?' : Option (Nat → τ → List Char → Prop)}
    (he : ∀ e, element? = some e → (∀ i x t, e i x t → Good t)
      ∧ ∃ e', element?' = some e' ∧ ∀ i x t, e i x t → e' i x t ∨ Bad t) {i : Nat}
    {shape : JsonShape τ} {t : List Char} (ht : ShapeText D element? i shape t) :
    ShapeText D' element?' i shape t ∨ Bad t := by
  have hbound := h.bound
  cases ht with
  | null => exact .inl .null
  | true => exact .inl .true
  | false => exact .inl .false
  | int number range => exact .inl (.int number (by omega))
  | str string =>
    rcases h.stringText string with hstring | hbad
    · exact .inl (.str hstring)
    · exact .inr hbad
  | emptyArr room space =>
    obtain ⟨-, e', he', -⟩ := he _ room
    exact .inl (.emptyArr he' space)
  | arr room items =>
    obtain ⟨hgood, e', he', hmono⟩ := he _ room
    rcases h.itemsText hgood hmono items with hitems | hbad
    · exact .inl (.arr he' hitems)
    · exact .inr (h.left (h.right (h.tokens.char (c := '[') (by decide)) hbad))
  | emptyObj room space =>
    obtain ⟨-, e', he', -⟩ := he _ room
    exact .inl (.emptyObj he' space)
  | obj room members names =>
    obtain ⟨hgood, e', he', hmono⟩ := he _ room
    rcases h.membersText hgood hmono members with hmembers | hbad
    · exact .inl (.obj he' hmembers names)
    · exact .inr (h.left (h.right (h.tokens.char (c := '\x7b') (by decide)) hbad))

theorem valueText (h : Offends D D' Good Bad) {levels : Nat} :
    ∀ {i : Nat} {x : τ} {t : List Char}, ValueText D build levels i x t →
      ValueText D' build levels i x t ∨ Bad t := by
  induction levels with
  | zero =>
    rintro i x t ⟨shape, hshape, rfl⟩
    have hnone : ShapeText D' (none : Option (Nat → τ → List Char → Prop)) i shape t ∨ Bad t :=
      h.shapeText (fun e he => by cases he) hshape
    exact hnone.imp_left fun hs => ⟨shape, hs, rfl⟩
  | succ levels ih =>
    rintro i x t ⟨shape, hshape, rfl⟩
    have hsome : ShapeText D' (some (ValueText D' build levels)) i shape t ∨ Bad t := by
      refine h.shapeText (fun e he => ?_) hshape
      obtain rfl := Option.some.inj he
      exact ⟨fun _ _ _ => h.tokens.valueText, _, rfl, fun _ _ _ => ih⟩
    exact hsome.imp_left fun hs => ⟨shape, hs, rfl⟩

/-- A text of the larger dialect is one of the smaller, or it contains an offence. -/
theorem documentText (h : Offends D D' Good Bad) {levels : Nat} {x : τ} {t : List Char}
    (ht : DocumentText D build levels x t) : DocumentText D' build levels x t ∨ Bad t := by
  obtain ⟨w, u, w', hw, hvalue, hw', rfl⟩ := ht
  rcases h.valueText hvalue with hvalue' | hbad
  · exact .inl ⟨w, u, w', hw, hvalue', hw', rfl⟩
  · exact .inr (h.left (h.right (h.tokens.space hw) hbad))

end Offends

end Tokens

end JsonGrammar

end RatifyProtocol.Foundation
