import RatifyProtocol.V1.Canonical
set_option autoImplicit false

/-!
# V1: what the signed bytes determine

Every writer of canonical JSON is a code: texts and objects delimit themselves,
numbers do so before a delimiter.  So the signed bytes of a certificate determine
every signed member, floats up to the sign of a zero.
-/

namespace RatifyProtocol.V1

open Foundation
open V2 (HybridPublicKey ParamsMap ParamsValue encodeInt encodeInt_injective encodeString
  string_encodeString commaSeparated Opens opens_encodeInt)

/-- What may stand behind a number. -/
def Delimiter (c : Char) : Prop := c = ',' ∨ c = ']' ∨ c = '\x7d'

theorem not_delimiter_of_decimalChar {c : Char} (h : decimalChar c = true) : ¬ Delimiter c := by
  rintro (rfl | rfl | rfl) <;> exact absurd h (by decide)

/-! ## Texts and numbers -/

theorem encodeString_code :
    PrefixCode (fun _ => True) (fun a b : List Char => a = b) encodeString := by
  intro a b _ _ r s heq
  obtain ⟨i, hi⟩ := string_encodeString 0 r a
  obtain ⟨j, hj⟩ := string_encodeString 0 s b
  have hread := hi.symm.trans ((congrArg (fun t => V2.string ⟨0, t⟩) heq).trans hj)
  obtain ⟨htext, hrest⟩ := Prod.mk.inj (Except.ok.inj hread)
  exact ⟨String.ofList_injective htext, (V2.Cursor.mk.inj hrest).2⟩

theorem encodeStr_code : PrefixCode (fun _ => True) (fun a b : String => a = b) encodeStr :=
  (encodeString_code.comap String.toList).mono (fun _ _ => trivial) fun _ _ h =>
    String.toList_injective h

theorem encodeBytesB64_code :
    PrefixCode (fun _ => True) (fun a b : Bytes => a = b) encodeBytesB64 :=
  (encodeString_code.comap Base64.encodeChars).mono (fun _ _ => trivial) fun _ _ h =>
    Base64.encodeChars_injective h

theorem encodeInt_code :
    DelimitedCode Delimiter (fun _ => True) (fun m n : Int => m = n) encodeInt :=
  .ofFree (fun n _ c hc => not_delimiter_of_decimalChar
    (List.all_eq_true.mp (encodeInt_decimal n) c hc)) fun _ _ _ _ h => encodeInt_injective h

theorem encodeI64_code :
    DelimitedCode Delimiter (fun _ => True) (fun m n : Int64 => m = n) encodeI64 := by
  intro m n _ _ r s hr hs heq
  obtain ⟨hint, htails⟩ := encodeInt_code trivial trivial hr hs heq
  exact ⟨Int64.toInt.inj hint, htails⟩

theorem encodeI32_code :
    DelimitedCode Delimiter (fun _ => True) (fun m n : Int32 => m = n) encodeI32 := by
  intro m n _ _ r s hr hs heq
  obtain ⟨hint, htails⟩ := encodeInt_code trivial trivial hr hs heq
  exact ⟨Int32.toInt.inj hint, htails⟩

theorem encodeF64_code {P : Platform} (hP : P.Documented) :
    DelimitedCode Delimiter (fun x => x.isFinite = true) Binary64.SameValue (encodeF64 P) :=
  .ofFree (fun _ hx c hc => not_delimiter_of_decimalChar
    (List.all_eq_true.mp (encodeF64_decimal hP hx) c hc)) fun _ _ hx hy h =>
    sameValue_of_encodeF64 hP hx hy h

/-! ## Parameters -/

/-- The first character tells the constructor. -/
def leadSort (c : Char) : Nat :=
  if c = 'n' then 0 else if c = 't' ∨ c = 'f' then 1 else if c.isDigit ∨ c = '-' then 2
  else if c = '"' then 3 else if c = '[' then 4 else 5

theorem leadSort_of_decimalChar {c : Char} (hdigit : c.isDigit = true ∨ c = '-') :
    leadSort c = 2 := by
  have hletters : c ≠ 'n' ∧ c ≠ 't' ∧ c ≠ 'f' := by
    refine ⟨?_, ?_, ?_⟩ <;> rintro rfl <;> revert hdigit <;> decide
  simp [leadSort, hletters, hdigit]

theorem encodeParamsValue_lead (v : ParamsValue) :
    ∃ c t, encodeParamsValue v = c :: t ∧ leadSort c = v.ctorIdx ∧ c ≠ ']' ∧ c ≠ '\x7d' := by
  cases v with
  | null => exact ⟨'n', _, rfl, rfl, by decide, by decide⟩
  | bool b =>
    cases b with
    | false => exact ⟨'f', _, rfl, rfl, by decide, by decide⟩
    | true => exact ⟨'t', _, rfl, rfl, by decide, by decide⟩
  | int n =>
    obtain ⟨c, t, ht, -, hbracket, hbrace⟩ := opens_encodeInt n
    have hc := List.all_eq_true.mp (encodeInt_decimal n) c (by simp [ht])
    have hsign : c.isDigit = true ∨ c = '-' := by
      unfold encodeInt at ht
      split at ht
      · exact .inr (List.cons.inj ht).1.symm
      · exact .inl (V2.all_isDigit_toDigits n.natAbs c (by simp [ht]))
    refine ⟨c, t, ?_, leadSort_of_decimalChar hsign, hbracket, hbrace⟩
    rw [encodeParamsValue, ht]
  | str s => exact ⟨'"', _, by rw [encodeParamsValue]; rfl, rfl, by decide, by decide⟩
  | array items => exact ⟨'[', _, by rw [encodeParamsValue]; rfl, rfl, by decide, by decide⟩
  | object map =>
    exact ⟨'\x7b', _, by rw [encodeParamsValue]; rfl, rfl, by decide, by decide⟩

theorem encodeParamsItems_eq (items : List ParamsValue) :
    encodeParamsItems items = items.map encodeParamsValue := by
  induction items with
  | nil => rw [encodeParamsItems, List.map_nil]
  | cons v items ih => rw [encodeParamsItems, ih, List.map_cons]

/-- A key with its value. -/
def encodeParamsMember (m : String × ParamsValue) : List Char :=
  encodeStr m.1 ++ ':' :: encodeParamsValue m.2

theorem encodeParamsMembers_eq (map : List (String × ParamsValue)) :
    encodeParamsMembers map = map.map encodeParamsMember := by
  induction map with
  | nil => rw [encodeParamsMembers, List.map_nil]
  | cons m map ih => rw [encodeParamsMembers, ih, List.map_cons, encodeParamsMember]

/-- A key, a colon and a value of a delimited code. -/
theorem DelimitedCode.member {α : Type} {V : α → Prop} {R : α → α → Prop} {enc : α → List Char}
    (h : DelimitedCode Delimiter V R enc) :
    DelimitedCode Delimiter (fun m : String × α => V m.2) (fun m n => m.1 = n.1 ∧ R m.2 n.2)
      fun m => encodeStr m.1 ++ ':' :: enc m.2 := by
  intro m n hm hn r s hr hs heq
  simp only [List.append_assoc, List.cons_append] at heq
  obtain ⟨hkey, hrest⟩ := encodeStr_code trivial trivial heq
  obtain ⟨hvalue, htails⟩ := h hm hn hr hs (List.cons.inj hrest).2
  exact ⟨⟨hkey, hvalue⟩, htails⟩

theorem forall₂_member_eq {α : Type} {xs ys : List (String × α)}
    (h : List.Forall₂ (fun m n => m.1 = n.1 ∧ m.2 = n.2) xs ys) : xs = ys := by
  have heq : List.Forall₂ (· = ·) xs ys := h.imp fun m n hmn => Prod.ext hmn.1 hmn.2
  rwa [List.forall₂_eq_eq_eq] at heq

/-- By induction on the size: the items and the members are smaller. -/
theorem encodeParamsValue_code_of_lt (n : Nat) :
    DelimitedCode Delimiter (fun v => sizeOf v < n) (fun v w : ParamsValue => v = w)
      encodeParamsValue := by
  induction n with
  | zero => exact fun _ _ hv => absurd hv (Nat.not_lt_zero _)
  | succ n ih =>
    have hitems := (ih.separated ',' ']' (.inl rfl) (.inr (.inl rfl)) (by decide)
      fun v _ => by
        obtain ⟨c, t, ht, -, hc, -⟩ := encodeParamsValue_lead v
        exact ⟨c, t, ht, hc⟩)
    have hmembers := ((DelimitedCode.member ih).separated ',' '\x7d' (.inl rfl)
      (.inr (.inr rfl)) (by decide) fun m _ => ⟨'"', _, rfl, by decide⟩)
    intro v w hv hw r s hr hs heq
    -- Both values have the constructor that the first character tells.
    have hctor : v.ctorIdx = w.ctorIdx := by
      obtain ⟨c, t, ht, hc, -⟩ := encodeParamsValue_lead v
      obtain ⟨d, u, hu, hd, -⟩ := encodeParamsValue_lead w
      rw [ht, hu] at heq
      rw [← hc, ← hd, (List.cons.inj heq).1]
    cases v <;> cases w <;> try (simp [ParamsValue.ctorIdx] at hctor; done)
    case null.null => exact ⟨rfl, List.append_cancel_left heq⟩
    case bool.bool a b =>
      cases a <;> cases b <;>
        simp_all [encodeParamsValue, encodeBool]
    case int.int a b =>
      simp only [encodeParamsValue] at heq
      obtain ⟨rfl, htails⟩ := encodeInt_code trivial trivial hr hs heq
      exact ⟨rfl, htails⟩
    case str.str a b =>
      simp only [encodeParamsValue] at heq
      obtain ⟨rfl, htails⟩ := encodeStr_code trivial trivial heq
      exact ⟨rfl, htails⟩
    case array.array a b =>
      simp only [encodeParamsValue, encodeParamsItems_eq, List.cons_append] at heq
      have hsmall : ∀ l : List ParamsValue, sizeOf (ParamsValue.array l) < n + 1 →
          ∀ x ∈ l, sizeOf x < n := by
        intro l hl x hx
        have := List.sizeOf_lt_of_mem hx
        simp only [ParamsValue.array.sizeOf_spec] at hl
        omega
      obtain ⟨hab, htails⟩ := hitems (hsmall a hv) (hsmall b hw) (List.cons.inj heq).2
      rw [List.forall₂_eq_eq_eq] at hab
      subst hab
      exact ⟨rfl, htails⟩
    case object.object a b =>
      simp only [encodeParamsValue, encodeParamsMembers_eq, List.cons_append] at heq
      have hsmall : ∀ l : List (String × ParamsValue), sizeOf (ParamsValue.object l) < n + 1 →
          ∀ x ∈ l, sizeOf x.2 < n := by
        intro l hl x hx
        have := List.sizeOf_lt_of_mem hx
        obtain ⟨k, v⟩ := x
        simp only [ParamsValue.object.sizeOf_spec, Prod.mk.sizeOf_spec] at hl this ⊢
        omega
      obtain ⟨hab, htails⟩ := hmembers (hsmall a hv) (hsmall b hw) (List.cons.inj heq).2
      obtain rfl := forall₂_member_eq hab
      exact ⟨rfl, htails⟩

theorem encodeParamsValue_code :
    DelimitedCode Delimiter (fun _ => True) (fun v w : ParamsValue => v = w)
      encodeParamsValue := by
  intro v w _ _ r s hr hs heq
  exact encodeParamsValue_code_of_lt (sizeOf v + sizeOf w + 1) (by omega) (by omega) hr hs heq

/-! ## Lists and keys -/

theorem encodeStrArray_code :
    PrefixCode (fun _ => True) (fun a b : List String => a = b) encodeStrArray := by
  have hlist := (encodeStr_code.delimited (D := Delimiter)).separated ',' ']'
    (.inl rfl) (.inr (.inl rfl)) (by decide) fun s _ => ⟨'"', _, rfl, by decide⟩
  refine (hlist.tag ['[']).mono (fun _ _ _ _ => trivial) fun a b hab => ?_
  rwa [List.forall₂_eq_eq_eq] at hab

theorem encodeHybridPubKey_code :
    PrefixCode (fun _ => True) (fun a b : HybridPublicKey => a = b) encodeHybridPubKey := by
  intro a b _ _ r s heq
  unfold encodeHybridPubKey at heq
  simp only [List.append_assoc, List.append_cancel_left_eq] at heq
  obtain ⟨hed, heq⟩ := encodeBytesB64_code trivial trivial heq
  simp only [List.append_cancel_left_eq] at heq
  obtain ⟨hml, heq⟩ := encodeBytesB64_code trivial trivial heq
  have hkeys : a = b := by
    cases a
    cases b
    simp only at hed hml
    rw [hed, hml]
  exact ⟨hkeys, List.append_cancel_left heq⟩

/-- Points with the same coordinates up to signed zero. -/
def SamePoint (p q : Binary64 × Binary64) : Prop :=
  Binary64.SameValue p.1 q.1 ∧ Binary64.SameValue p.2 q.2

section Numbers

variable {P : Platform} (hP : P.Documented)
include hP

theorem encodePoint_code :
    PrefixCode (fun p => p.1.isFinite = true ∧ p.2.isFinite = true) SamePoint (encodePoint P) := by
  intro p q hp hq r s heq
  simp only [encodePoint, List.cons_append, List.append_assoc, List.nil_append] at heq
  obtain ⟨hlat, heq⟩ := encodeF64_code hP hp.1 hq.1 (.cons (.inl rfl) _) (.cons (.inl rfl) _)
    (List.cons.inj heq).2
  obtain ⟨hlon, heq⟩ := encodeF64_code hP hp.2 hq.2 (.cons (.inr (.inl rfl)) _)
    (.cons (.inr (.inl rfl)) _) (List.cons.inj heq).2
  exact ⟨⟨hlat, hlon⟩, (List.cons.inj heq).2⟩

theorem encodePointsArray_code :
    PrefixCode (fun pts => ∀ p ∈ pts, p.1.isFinite = true ∧ p.2.isFinite = true)
      (List.Forall₂ SamePoint) (encodePointsArray P) :=
  ((encodePoint_code hP).delimited.separated (D := Delimiter) ',' ']'
    (.inl rfl) (.inr (.inl rfl)) (by decide) fun _ _ => ⟨'[', _, rfl, by decide⟩).tag ['[']

end Numbers

/-! ## Members -/

/-- Every float of the member is finite. -/
def Member.Finite : Member → Prop
  | float x => x.isFinite = true
  | points pts => ∀ p ∈ pts, p.1.isFinite = true ∧ p.2.isFinite = true
  | _ => True

/-- The same value, floats up to signed zero. -/
inductive Member.Same : Member → Member → Prop
  | float {x y : Binary64} (h : Binary64.SameValue x y) : Same (.float x) (.float y)
  | int (n : Int64) : Same (.int n) (.int n)
  | text (s : String) : Same (.text s) (.text s)
  | points {p q : List (Binary64 × Binary64)} (h : List.Forall₂ SamePoint p q) :
      Same (.points p) (.points q)
  | params (map : ParamsMap) : Same (.params map) (.params map)

/-- The constructor of the values under a key. -/
def memberSort : String → Nat
  | "count" | "window_s" => 1
  | "currency" | "end" | "path_prefix" | "resource_id" | "start" | "type" | "tz" => 2
  | "points" => 3
  | "params" => 4
  | _ => 0

theorem Constraint.memberSort_of_mem (c : Constraint) :
    ∀ m ∈ c.members, m.2.ctorIdx = memberSort m.1 := by
  unfold members
  split
  case h_3 => cases c.hasAlt <;> simp [memberSort, Member.ctorIdx]
  case h_8 => cases c.pathPrefix <;> simp [memberSort, Member.ctorIdx]
  case h_9 => cases c.params <;> simp [memberSort, Member.ctorIdx]
  all_goals simp [memberSort, Member.ctorIdx]

/-! ## Constraints -/

/-- The signed floats are finite. -/
def Constraint.Finite (c : Constraint) : Prop := ∀ m ∈ c.members, m.2.Finite

/-- The signed members agree, floats up to signed zero. -/
def Constraint.Same (c d : Constraint) : Prop :=
  List.Forall₂ (fun m n => m.1 = n.1 ∧ m.2.Same n.2) c.members d.members

section Certificates

variable {P : Platform} (hP : P.Documented)
include hP

/-- Under one key stand values of one constructor. -/
theorem encodeMember_code :
    DelimitedCode Delimiter (fun m => m.2.ctorIdx = memberSort m.1 ∧ m.2.Finite)
      (fun m n : String × Member => m.1 = n.1 ∧ m.2.Same n.2) (encodeMember P) := by
  intro m n hm hn r s hr hs heq
  obtain ⟨k, v⟩ := m
  obtain ⟨l, w⟩ := n
  simp only [encodeMember, List.append_assoc, List.cons_append] at heq
  obtain ⟨rfl, hrest⟩ := encodeStr_code trivial trivial heq
  have heq := (List.cons.inj hrest).2
  have hctor : v.ctorIdx = w.ctorIdx := hm.1.trans hn.1.symm
  cases v <;> cases w <;> try (simp [Member.ctorIdx] at hctor; done)
  case float.float x y =>
    obtain ⟨h, htails⟩ := encodeF64_code hP hm.2 hn.2 hr hs heq
    exact ⟨⟨rfl, .float h⟩, htails⟩
  case int.int x y =>
    obtain ⟨rfl, htails⟩ := encodeI64_code trivial trivial hr hs heq
    exact ⟨⟨rfl, .int _⟩, htails⟩
  case text.text x y =>
    obtain ⟨rfl, htails⟩ := encodeStr_code trivial trivial heq
    exact ⟨⟨rfl, .text _⟩, htails⟩
  case points.points x y =>
    obtain ⟨h, htails⟩ := encodePointsArray_code hP hm.2 hn.2 heq
    exact ⟨⟨rfl, .points h⟩, htails⟩
  case params.params x y =>
    obtain ⟨h, htails⟩ := encodeParamsValue_code trivial trivial hr hs heq
    obtain rfl := ParamsMap.ext (ParamsValue.object.inj h)
    exact ⟨⟨rfl, .params _⟩, htails⟩

theorem encodeConstraint_code :
    PrefixCode Constraint.Finite Constraint.Same (encodeConstraint P) := by
  have hlist := (encodeMember_code hP).separated ',' '\x7d' (.inl rfl)
    (.inr (.inr rfl)) (by decide) fun m _ => ⟨'"', _, rfl, by decide⟩
  have hobject := ((hlist.comap Constraint.members).tag ['\x7b']).mono
    (fun c (hc : c.Finite) m hm => ⟨c.memberSort_of_mem m hm, hc m hm⟩)
    fun c d (h : c.Same d) => h
  intro c d hc hd r s heq
  rw [encodeConstraint_eq, encodeConstraint_eq] at heq
  exact hobject hc hd heq

theorem encodeConstraints_code :
    PrefixCode (fun cs => ∀ c ∈ cs, c.Finite) (List.Forall₂ Constraint.Same)
      (encodeConstraints P) := by
  refine ((encodeConstraint_code hP).delimited.separated (D := Delimiter) ',' ']'
    (.inl rfl) (.inr (.inl rfl)) (by decide) fun c _ => ?_).tag ['[']
  rw [encodeConstraint_eq]
  exact ⟨'\x7b', _, rfl, by decide⟩

end Certificates

/-! ## Certificates -/

/-- The signed floats of the certificate are finite. -/
def DelegationCert.Finite (cert : DelegationCert) : Prop := ∀ c ∈ cert.constraints, c.Finite

/-- The signed fields agree, floats up to signed zero. -/
structure DelegationCert.Same (a b : DelegationCert) : Prop where
  certId : a.certId = b.certId
  constraints : List.Forall₂ Constraint.Same a.constraints b.constraints
  expiresAt : a.expiresAt = b.expiresAt
  issuedAt : a.issuedAt = b.issuedAt
  issuerId : a.issuerId = b.issuerId
  issuerPubKey : a.issuerPubKey = b.issuerPubKey
  scope : a.scope = b.scope
  subjectId : a.subjectId = b.subjectId
  subjectPubKey : a.subjectPubKey = b.subjectPubKey
  version : a.version = b.version

section Signed

variable {P : Platform} (hP : P.Documented)
include hP

theorem delegationSignText_code :
    PrefixCode DelegationCert.Finite DelegationCert.Same (delegationSignText P) := by
  intro a b ha hb r s heq
  unfold delegationSignText at heq
  simp only [List.append_assoc, List.append_cancel_left_eq] at heq
  obtain ⟨certId, heq⟩ := encodeStr_code trivial trivial heq
  simp only [List.append_cancel_left_eq] at heq
  obtain ⟨constraints, heq⟩ := encodeConstraints_code hP ha hb heq
  simp only [List.append_cancel_left_eq] at heq
  obtain ⟨expiresAt, heq⟩ := encodeI64_code.cut trivial trivial heq
    ⟨',', _, rfl, .inl rfl⟩ ⟨',', _, rfl, .inl rfl⟩
  simp only [List.append_cancel_left_eq] at heq
  obtain ⟨issuedAt, heq⟩ := encodeI64_code.cut trivial trivial heq
    ⟨',', _, rfl, .inl rfl⟩ ⟨',', _, rfl, .inl rfl⟩
  simp only [List.append_cancel_left_eq] at heq
  obtain ⟨issuerId, heq⟩ := encodeStr_code trivial trivial heq
  simp only [List.append_cancel_left_eq] at heq
  obtain ⟨issuerPubKey, heq⟩ := encodeHybridPubKey_code trivial trivial heq
  simp only [List.append_cancel_left_eq] at heq
  obtain ⟨scope, heq⟩ := encodeStrArray_code trivial trivial heq
  simp only [List.append_cancel_left_eq] at heq
  obtain ⟨subjectId, heq⟩ := encodeStr_code trivial trivial heq
  simp only [List.append_cancel_left_eq] at heq
  obtain ⟨subjectPubKey, heq⟩ := encodeHybridPubKey_code trivial trivial heq
  simp only [List.append_cancel_left_eq] at heq
  obtain ⟨version, heq⟩ := encodeI32_code.cut trivial trivial heq
    ⟨'\x7d', _, rfl, .inr (.inr rfl)⟩ ⟨'\x7d', _, rfl, .inr (.inr rfl)⟩
  exact ⟨⟨certId, constraints, expiresAt, issuedAt, issuerId, issuerPubKey, scope, subjectId,
    subjectPubKey, version⟩, List.append_cancel_left heq⟩

/-- Certificates with one signature preimage agree in every signed field. -/
theorem same_of_delegationSignBytes {a b : DelegationCert} (ha : a.Finite) (hb : b.Finite)
    (h : delegationSignBytes P a = delegationSignBytes P b) : a.Same b :=
  (delegationSignText_code hP).related ha hb (utf8Chars_injective h)

/-- The concatenation that is hashed for a chain determines the preimages in it. -/
theorem map_delegationSignBytes_of_chainHashInput {as bs : List DelegationCert}
    (has : ∀ a ∈ as, a.Finite) (hbs : ∀ b ∈ bs, b.Finite)
    (h : chainHashInput P as = chainHashInput P bs) :
    as.map (delegationSignBytes P) = bs.map (delegationSignBytes P) := by
  have htext : ∀ cs : List DelegationCert,
      chainHashInput P cs = utf8Chars (cs.flatMap (delegationSignText P)) := by
    intro cs
    unfold chainHashInput delegationSignBytes utf8Chars
    exact List.flatMap_assoc.symm
  rw [htext, htext] at h
  have hmap := (delegationSignText_code hP).flatMap
    (fun a _ => by unfold delegationSignText; simp) has hbs (utf8Chars_injective h)
  have hbytes : ∀ cs : List DelegationCert,
      cs.map (delegationSignBytes P) = (cs.map (delegationSignText P)).map utf8Chars := by
    intro cs
    induction cs with
    | nil => rfl
    | cons c cs ih =>
      simp only [List.map_cons, ih]
      rw [delegationSignBytes]
  rw [hbytes, hbytes, hmap]

end Signed

end RatifyProtocol.V1
