import RatifyProtocol.V2.JsonValues
set_option autoImplicit false

/-!
# V2: canonical JSON is a normal form

`canonical_json_v2`.  Canonical text is a text of the grammar with the value of the
node it was written from, and depends on nothing but that value; so parsing and
canonicalising is idempotent and tells values apart.  Spans are exact: the bytes a
node covers parse to the node.
-/

namespace RatifyProtocol.V2

open Foundation Foundation.JsonGrammar

/-- `canonical_json_v2`: re-encode strict JSON canonically. -/
def canonicalJsonV2 (data : Bytes) : V2Result Bytes := do
  let root ← parseJson data
  .ok (canonicalNode root)

/-! ## Parsed nodes -/

/-- A node some text is read as: containers nest at most `levels` deep, no object
repeats a name and integers are spelled canonically. -/
inductive Parsed : Nat → JNode → Prop
  | null (levels i j : Nat) : Parsed levels (.mk .null i j)
  | bool (levels : Nat) (b : Bool) (i j : Nat) : Parsed levels (.mk (.bool b) i j)
  | int (levels : Nat) (n : Int) (i j : Nat) (range : -maxSafe ≤ n ∧ n ≤ maxSafe) :
      Parsed levels (.mk (.num (String.ofList (encodeInt n))) i j)
  | str (levels : Nat) (s : String) (i j : Nat) : Parsed levels (.mk (.str s) i j)
  | arr (levels : Nat) (xs : List JNode) (i j : Nat) (items : ∀ x ∈ xs, Parsed levels x) :
      Parsed (levels + 1) (.mk (.arr xs) i j)
  | obj (levels : Nat) (fields : List (String × JNode)) (i j : Nat)
      (names : (fields.map Prod.fst).Nodup) (values : ∀ f ∈ fields, Parsed levels f.2) :
      Parsed (levels + 1) (.mk (.obj fields) i j)

theorem exists_itemText {τ : Type} {element : Nat → τ → List Char → Prop} {i : Nat} {xs : List τ}
    {t : List Char} (h : ItemsText element i xs t) {x : τ} (hx : x ∈ xs) :
    ∃ front u back, t = front ++ u ++ back ∧ element (i + size front) x u := by
  induction h with
  | @last i y w u w' before item after =>
    obtain rfl := List.mem_singleton.mp hx
    exact ⟨w, u, w', rfl, item⟩
  | @more i y ys w u w' rest before item after items ih =>
    rcases List.mem_cons.mp hx with rfl | hx
    · exact ⟨w, u, w' ++ ',' :: rest, by simp only [List.append_assoc], item⟩
    · obtain ⟨front, v, back, rfl, hv⟩ := ih hx
      refine ⟨w ++ u ++ w' ++ ',' :: front, v, back, by simp only [List.append_assoc,
        List.cons_append], ?_⟩
      have hpos : i + size (w ++ u ++ w' ++ ',' :: front)
          = i + size (w ++ u ++ w') + 1 + size front := by
        rw [size_append (w ++ u ++ w'), size_cons, show ','.utf8Size = 1 from rfl]
        omega
      rw [hpos]
      exact hv

theorem exists_memberText {quad : Nat → List Char → Prop}
    {element : Nat → JNode → List Char → Prop} {i : Nat} {ms : List (String × JNode)}
    {t : List Char} (h : MembersText quad element i ms t) {m : String × JNode} (hm : m ∈ ms) :
    ∃ front u back, t = front ++ u ++ back ∧ element (i + size front) m.2 u := by
  have hmember : ∀ {i : Nat} {m : String × JNode} {t : List Char}, MemberText quad element i m t →
      ∃ front u back, t = front ++ u ++ back ∧ element (i + size front) m.2 u := by
    rintro i m _ ⟨w₀, key, w₁, w₂, u, w₃, -, -, -, -, hvalue, -, rfl⟩
    refine ⟨w₀ ++ key ++ w₁ ++ ':' :: w₂, u, w₃, by simp only [List.append_assoc,
      List.cons_append], ?_⟩
    have hpos : i + size (w₀ ++ key ++ w₁ ++ ':' :: w₂)
        = i + size (w₀ ++ key ++ w₁) + 1 + size w₂ := by
      rw [size_append (w₀ ++ key ++ w₁), size_cons, show ':'.utf8Size = 1 from rfl]
      omega
    rw [hpos]
    exact hvalue
  induction h with
  | last member =>
    obtain rfl := List.mem_singleton.mp hm
    exact hmember member
  | @more i m' ms t rest member members ih =>
    rcases List.mem_cons.mp hm with rfl | hm
    · obtain ⟨front, u, back, rfl, hu⟩ := hmember member
      exact ⟨front, u, back ++ ',' :: rest, by simp only [List.append_assoc], hu⟩
    · obtain ⟨front, v, back, rfl, hv⟩ := ih hm
      refine ⟨t ++ ',' :: front, v, back, by simp only [List.append_assoc, List.cons_append], ?_⟩
      have hpos : i + size (t ++ ',' :: front) = i + size t + 1 + size front := by
        rw [size_append t, size_cons, show ','.utf8Size = 1 from rfl]
        omega
      rw [hpos]
      exact hv

/-- What a text of the scanner is read as is a parsed node. -/
theorem parsed_of_valueText {levels : Nat} : ∀ {i : Nat} {n : JNode} {t : List Char},
    ValueText scannerDialect JNode.ofShape levels i n t → Parsed levels n := by
  have hshape : ∀ {levels i} {element? : Option (Nat → JNode → List Char → Prop)}
      {shape : JsonShape JNode} {t : List Char} (j j' : Nat),
      (∀ e, element? = some e → ∃ levels', levels = levels' + 1
        ∧ ∀ i x t, e i x t → Parsed levels' x) →
      ShapeText scannerDialect element? i shape t → Parsed levels (JNode.ofShape shape j j') := by
    intro levels i element? shape t j j' he h
    cases h with
    | null => exact .null ..
    | true => exact .bool ..
    | false => exact .bool ..
    | int number range => exact .int _ _ _ _ range
    | str => exact .str ..
    | emptyArr room =>
      obtain ⟨levels', rfl, -⟩ := he _ room
      exact .arr _ _ _ _ fun x hx => absurd hx List.not_mem_nil
    | arr room items =>
      obtain ⟨levels', rfl, hparsed⟩ := he _ room
      refine .arr _ _ _ _ fun x hx => ?_
      obtain ⟨front, u, back, -, hu⟩ := exists_itemText items hx
      exact hparsed _ _ _ hu
    | emptyObj room =>
      obtain ⟨levels', rfl, -⟩ := he _ room
      exact .obj _ _ _ _ List.nodup_nil fun f hf => absurd hf List.not_mem_nil
    | obj room members names =>
      obtain ⟨levels', rfl, hparsed⟩ := he _ room
      refine .obj _ _ _ _ names fun f hf => ?_
      obtain ⟨front, u, back, -, hu⟩ := exists_memberText members hf
      exact hparsed _ _ _ hu
  induction levels with
  | zero =>
    rintro i n t ⟨shape, h, rfl⟩
    exact hshape _ _ (fun e he => by cases he) h
  | succ levels ih =>
    rintro i n t ⟨shape, h, rfl⟩
    refine hshape _ _ (fun e he => ⟨levels, rfl, ?_⟩) h
    obtain rfl := Option.some.inj he
    exact fun _ _ _ => ih

theorem parsed_of_parseJson {b : Bytes} {n : JNode} (h : parseJson b = .ok n) :
    Parsed maxJsonNestingDepth n := by
  obtain ⟨text, -, w, t, w', -, hvalue, -⟩ := parseJson_eq_ok_iff.mp h
  exact parsed_of_valueText hvalue

/-! ## Canonical text is a text of the grammar -/

theorem hexDigitValue_hexDigit {n : Nat} (h : n < 16) : hexDigitValue (hexDigit n) = some n :=
  hexValue?_hexDigit h

theorem charText_encodeChar (c : Char) : CharText strictDialect.quad c (encodeChar c) := by
  unfold encodeChar
  split_ifs with h₁ h₂ h₃ h₄ h₅ h₆ h₇ h₈ h₉ h₁₀
  · exact .letter (by rw [h₁]; decide)
  · exact .letter (by rw [h₂]; decide)
  · exact .letter (by rw [h₃]; decide)
  · exact .letter (by rw [h₄]; decide)
  · exact .letter (by rw [h₅]; decide)
  · exact .letter (by rw [h₆]; decide)
  · exact .letter (by rw [h₇]; decide)
  · exact .unit ⟨'2', '0', '2', '8', 2, 0, 2, 8, rfl, rfl, rfl, rfl, rfl, h₈⟩
  · exact .unit ⟨'2', '0', '2', '9', 2, 0, 2, 9, rfl, rfl, rfl, rfl, rfl, h₉⟩
  · refine .unit ⟨'0', '0', _, _, 0, 0, c.toNat / 16, c.toNat % 16, rfl, rfl, rfl,
      hexDigitValue_hexDigit (by omega), hexDigitValue_hexDigit (by omega), by omega⟩
  · exact .plain h₁ h₂ (by omega)

theorem stringText_encodeString (s : String) :
    StringText strictDialect.quad s (encodeString s.toList) := by
  refine ⟨s.toList.map encodeChar, ?_, by rw [encodeString, List.flatMap_def]⟩
  rw [List.forall₂_map_right_iff, List.forall₂_same]
  exact fun c _ => charText_encodeChar c

section Texts

variable {α τ : Type} {read : α → τ} {text : α → List Char} {element : Nat → τ → List Char → Prop}

/-- Elements that have a reading wherever they stand have one each in an array, and what
holds of every reading holds of the readings in order. -/
theorem exists_itemsText {R : α → τ → Prop} {x : α} {xs : List α} {t : List Char}
    {ts : List (List Char)}
    (h : List.Forall₂ (fun y u => ∀ i, ∃ n, element i n u ∧ R y n) (x :: xs) (t :: ts)) (i : Nat) :
    ∃ ns, ItemsText element i ns (commaSeparated (t :: ts)) ∧ List.Forall₂ R (x :: xs) ns := by
  have hnil : Space [] := fun _ hc => absurd hc List.not_mem_nil
  induction xs generalizing x t ts i with
  | nil =>
    obtain ⟨hx, hrest⟩ := List.forall₂_cons.mp h
    cases hrest
    obtain ⟨n, hn, hd⟩ := hx i
    have hlast := ItemsText.last (i := i) hnil hn hnil
    exact ⟨[n], by simpa using hlast, .cons hd .nil⟩
  | cons y xs ih =>
    obtain ⟨hx, hrest⟩ := List.forall₂_cons.mp h
    cases hrest with
    | @cons _ u _ us hy hys =>
      obtain ⟨n, hn, hd⟩ := hx i
      obtain ⟨ns, hns, hds⟩ := ih (.cons hy hys) (i + size ([] ++ t ++ []) + 1)
      have hmore := ItemsText.more (i := i) hnil hn hnil hns
      exact ⟨n :: ns, by simpa using hmore, .cons hd hds⟩

theorem itemsText_commaSeparated {x : α} {xs : List α}
    (h : ∀ y ∈ x :: xs, ∀ i, element i (read y) (text y)) (i : Nat) :
    ItemsText element i ((x :: xs).map read) (commaSeparated ((x :: xs).map text)) := by
  have hread : List.Forall₂ (fun y u => ∀ i, ∃ n, element i n u ∧ read y = n) (x :: xs)
      ((x :: xs).map text) := by
    rw [List.forall₂_map_right_iff, List.forall₂_same]
    exact fun y hy i => ⟨read y, h y hy i, rfl⟩
  obtain ⟨ns, hns, hsame⟩ := exists_itemsText hread i
  rw [← List.forall₂_map_left_iff, List.forall₂_eq_eq_eq] at hsame
  exact hsame ▸ hns

/-- The canonical text of a member, from that of its value. -/
def namedText (text : α → List Char) (f : String × α) : List Char :=
  encodeString f.1.toList ++ ':' :: text f.2

theorem membersText_commaSeparated {f : String × α} {fs : List (String × α)}
    (h : ∀ g ∈ f :: fs, ∀ i, element i (read g.2) (text g.2)) (i : Nat) :
    MembersText strictDialect.quad element i ((f :: fs).map fun g => (g.1, read g.2))
      (commaSeparated ((f :: fs).map (namedText text))) := by
  have hnil : Space [] := fun _ hc => absurd hc List.not_mem_nil
  have hmember : ∀ g ∈ f :: fs, ∀ i, MemberText strictDialect.quad element i (g.1, read g.2)
      (namedText text g) := by
    intro g hg i
    exact ⟨[], encodeString g.1.toList, [], [], text g.2, [], hnil, stringText_encodeString g.1,
      hnil, hnil, h g hg _, hnil, by simp [namedText]⟩
  clear h
  induction fs generalizing f i with
  | nil =>
    rw [List.map_singleton, List.map_singleton, commaSeparated_singleton]
    exact .last (hmember f (List.mem_cons_self ..) i)
  | cons g fs ih =>
    have hrest := ih (i + size (namedText text f) + 1)
      fun q hq => hmember q (List.mem_cons_of_mem _ hq)
    exact .more (hmember f (List.mem_cons_self ..) i) hrest

end Texts

/-! ## Members in key order -/

/-- Members in the order the writer emits them. -/
def nodesInOrder (fields : List (String × JNode)) : List (String × JNode) :=
  fields.insertionSort fun a b => a.1 ≤ b.1

theorem nodesInOrder_perm (fields : List (String × JNode)) :
    (nodesInOrder fields).Perm fields :=
  List.perm_insertionSort _ _

theorem writeParsed_obj (fields : List (String × JNode)) :
    writeParsed (.obj fields)
      = '\x7b' :: commaSeparated ((nodesInOrder fields).map (namedText writeNode)) ++ ['\x7d'] := by
  have hsorted : (writeFields fields).insertionSort (fun a b => a.1 ≤ b.1)
      = (nodesInOrder fields).map fun f => (f.1, writeNode f.2) := by
    rw [writeFields_eq_map]
    exact (List.map_insertionSort (fun a b : String × JNode => a.1 ≤ b.1)
      (fun a b : String × List Char => a.1 ≤ b.1) (fun f => (f.1, writeNode f.2)) fields
      fun _ _ _ _ => Iff.rfl).symm
  rw [writeParsed, hsorted, List.map_map]
  rfl

/-- Names that differ find each member. -/
theorem lookup_eq_some_iff_mem {α : Type} {fields : List (String × α)}
    (h : (fields.map Prod.fst).Nodup) {k : String} {x : α} :
    fields.lookup k = some x ↔ (k, x) ∈ fields := by
  induction fields with
  | nil => simp
  | cons f fields ih =>
    obtain ⟨k', x'⟩ := f
    obtain ⟨hnew, hnodup⟩ := List.nodup_cons.mp h
    rw [List.lookup_cons, List.mem_cons]
    by_cases hk : k = k'
    · subst hk
      have hnot : (k, x) ∉ fields := fun hmem => hnew (List.mem_map.mpr ⟨_, hmem, rfl⟩)
      simp [hnot, eq_comm]
    · have hne : (k == k') = false := beq_eq_false_iff_ne.mpr hk
      simp [hne, ih hnodup, hk]

theorem lookup_perm {α : Type} {fields fields' : List (String × α)} (hperm : fields.Perm fields')
    (h : (fields.map Prod.fst).Nodup) (k : String) : fields.lookup k = fields'.lookup k := by
  have h' : (fields'.map Prod.fst).Nodup := (hperm.map Prod.fst).nodup_iff.mp h
  apply Option.ext
  intro x
  rw [lookup_eq_some_iff_mem h, lookup_eq_some_iff_mem h', hperm.mem_iff]

theorem value_obj (fields : List (String × JNode)) (i j : Nat) :
    (JNode.mk (.obj fields) i j).value
      = .obj fun k => (fields.map fun f => (f.1, f.2.value)).lookup k := by
  change JsonValue.obj (fun k => (fieldValues fields).lookup k) = _
  rw [fieldValues_eq_map]

theorem valueText_of_scalar {levels : Nat} {shape : JsonShape JsonValue} {t : List Char} {i : Nat}
    (h : ∀ element?, ShapeText strictDialect element? i shape t) :
    ValueText strictDialect valueOf levels i shape.value t := by
  cases levels with
  | zero => exact ⟨shape, h none, rfl⟩
  | succ levels => exact ⟨shape, h _, rfl⟩

/-- Canonical text reads, under the grammar of RFC 8259, as the value it was written
from. -/
theorem valueText_writeNode {levels : Nat} {n : JNode} (h : Parsed levels n) (i : Nat) :
    ValueText strictDialect valueOf levels i n.value (writeNode n) := by
  induction h generalizing i with
  | null => exact valueText_of_scalar fun _ => .null
  | bool levels b =>
    cases b with
    | true => exact valueText_of_scalar fun _ => .true
    | false => exact valueText_of_scalar fun _ => .false
  | int levels n j k range =>
    have hvalue : (JNode.mk (.num (String.ofList (encodeInt n))) j k).value = .int n :=
      congrArg JsonValue.int (tokenValue_encodeInt n)
    have hwrite : writeNode (.mk (.num (String.ofList (encodeInt n))) j k) = encodeInt n :=
      String.toList_ofList
    rw [hvalue, hwrite]
    exact valueText_of_scalar fun _ => .int (integerText_iff.mpr rfl) range
  | str levels s => exact valueText_of_scalar fun _ => .str (stringText_encodeString s)
  | arr levels xs j k items ih =>
    refine ⟨.arr (xs.map JNode.value), ?_, congrArg JsonValue.arr (itemValues_eq_map xs)⟩
    rw [writeNode, writeParsed, writeNodes_eq_map]
    cases xs with
    | nil => exact .emptyArr rfl fun _ hc => absurd hc List.not_mem_nil
    | cons x xs => exact .arr rfl (itemsText_commaSeparated ih (i + 1))
  | obj levels fields j k names values ih =>
    have hperm := nodesInOrder_perm fields
    refine ⟨.obj ((nodesInOrder fields).map fun f => (f.1, f.2.value)), ?_, ?_⟩
    · rw [writeNode, writeParsed_obj]
      have hnames : (((nodesInOrder fields).map fun f => (f.1, f.2.value)).map Prod.fst).Nodup := by
        rw [names_map]
        exact (hperm.map Prod.fst).nodup_iff.mpr names
      have hvalues : ∀ f ∈ nodesInOrder fields, ∀ i,
          ValueText strictDialect valueOf levels i f.2.value (writeNode f.2) :=
        fun f hf => ih f (hperm.mem_iff.mp hf)
      generalize nodesInOrder fields = sorted at hnames hvalues
      cases sorted with
      | nil => exact .emptyObj rfl fun _ hc => absurd hc List.not_mem_nil
      | cons f fs => exact .obj rfl (membersText_commaSeparated hvalues (i + 1)) hnames
    · have hlookup := lookup_perm (hperm.symm.map fun f => (f.1, f.2.value))
        (by rw [names_map]; exact names)
      rw [value_obj]
      exact congrArg JsonValue.obj (funext hlookup)

theorem Parsed.mono {levels more : Nat} {n : JNode} (h : Parsed levels n) (hle : levels ≤ more) :
    Parsed more n := by
  induction h generalizing more with
  | null levels i j => exact .null more i j
  | bool levels b i j => exact .bool more b i j
  | int levels n i j range => exact .int more n i j range
  | str levels s i j => exact .str more s i j
  | arr levels xs i j _ ih =>
    obtain ⟨more, rfl⟩ := Nat.exists_eq_add_of_lt hle
    exact .arr _ xs i j fun x hx => ih x hx (Nat.le_add_right levels more)
  | obj levels fields i j names _ ih =>
    obtain ⟨more, rfl⟩ := Nat.exists_eq_add_of_lt hle
    exact .obj _ fields i j names fun f hf => ih f hf (Nat.le_add_right levels more)

/-- The canonical text of a node within the limit parses to a node of the same value. -/
theorem exists_parseJson_of_parsed {n : JNode} (h : Parsed maxJsonNestingDepth n) :
    ∃ m, parseJson (canonicalNode n) = .ok m ∧ m.value = n.value := by
  have hspace : Space [] := fun _ hc => absurd hc List.not_mem_nil
  have hstrict : JsonText strictDialect (canonicalNode n) n.value :=
    ⟨_, rfl, [], _, [], hspace, valueText_writeNode h 0, hspace, (List.append_nil _).symm⟩
  exact jsonText_scanner_iff.mp hstrict.scanner

theorem parseJson_canonicalNode {b : Bytes} {n : JNode} (h : parseJson b = .ok n) :
    ∃ m, parseJson (canonicalNode n) = .ok m ∧ m.value = n.value :=
  exists_parseJson_of_parsed (parsed_of_parseJson h)

/-! ## Canonical text depends on the value alone -/

theorem mem_fieldTexts_of_lookup {fields fields' : List (String × JNode)}
    (names : (fields.map Prod.fst).Nodup) (names' : (fields'.map Prod.fst).Nodup)
    (hlookup : ∀ k, (fields.map fun f => (f.1, f.2.value)).lookup k
      = (fields'.map fun f => (f.1, f.2.value)).lookup k)
    (ih : ∀ f ∈ fields, ∀ g ∈ fields', f.2.value = g.2.value → writeNode f.2 = writeNode g.2)
    {p : String × List Char} (h : p ∈ fields.map fun f => (f.1, writeNode f.2)) :
    p ∈ fields'.map fun f => (f.1, writeNode f.2) := by
  obtain ⟨f, hf, rfl⟩ := List.mem_map.mp h
  have hnames : ((fields.map fun f => (f.1, f.2.value)).map Prod.fst).Nodup := by
    rw [names_map]
    exact names
  have hnames' : ((fields'.map fun f => (f.1, f.2.value)).map Prod.fst).Nodup := by
    rw [names_map]
    exact names'
  have hfound := (lookup_eq_some_iff_mem hnames).mpr (List.mem_map.mpr ⟨f, hf, rfl⟩)
  rw [hlookup] at hfound
  obtain ⟨g, hg, heq⟩ := List.mem_map.mp ((lookup_eq_some_iff_mem hnames').mp hfound)
  obtain ⟨hk, hv⟩ := Prod.mk.inj heq
  exact List.mem_map.mpr ⟨g, hg, by rw [hk, ih f hf g hg hv.symm]⟩

/-- Two lists of members with the same texts are written in the same order. -/
theorem writeParsed_obj_congr {fields fields' : List (String × JNode)}
    (names : (fields.map Prod.fst).Nodup) (names' : (fields'.map Prod.fst).Nodup)
    (h : ∀ p, (p ∈ fields.map fun f => (f.1, writeNode f.2))
      ↔ p ∈ fields'.map fun f => (f.1, writeNode f.2)) :
    writeParsed (.obj fields) = writeParsed (.obj fields') := by
  have hnodup : ∀ {fields : List (String × JNode)}, (fields.map Prod.fst).Nodup →
      (fields.map fun f => (f.1, writeNode f.2)).Nodup := by
    intro fields hnames
    apply List.Nodup.of_map Prod.fst
    rw [names_map]
    exact hnames
  have hperm : (writeFields fields).Perm (writeFields fields') := by
    rw [writeFields_eq_map, writeFields_eq_map]
    exact (List.perm_ext_iff_of_nodup (hnodup names) (hnodup names')).mpr h
  have hsorted : (writeFields fields).insertionSort (fun a b => a.1 ≤ b.1)
      = (writeFields fields').insertionSort fun a b => a.1 ≤ b.1 := by
    have hperm₁ := List.perm_insertionSort (fun a b : String × List Char => a.1 ≤ b.1)
      (writeFields fields)
    have hperm₂ := List.perm_insertionSort (fun a b : String × List Char => a.1 ≤ b.1)
      (writeFields fields')
    refine List.Perm.eq_of_pairwise ?_ (List.pairwise_insertionSort _ _)
      (List.pairwise_insertionSort _ _) (hperm₁.trans (hperm.trans hperm₂.symm))
    intro p q hp hq hle hge
    have hkey : p.1 = q.1 := String.le_antisymm hle hge
    have hp' := (hperm.mem_iff.mp (hperm₁.mem_iff.mp hp))
    have hq' := hperm₂.mem_iff.mp hq
    have hunique : ((writeFields fields').map Prod.fst).Nodup := by
      rw [writeFields_eq_map, names_map]
      exact names'
    exact List.inj_on_of_nodup_map hunique hp' hq' hkey
  simp only [writeParsed, hsorted]

/-- Canonical text is a function of the value. -/
theorem writeNode_congr {levels : Nat} {n : JNode} (h : Parsed levels n) :
    ∀ {levels' : Nat} {n' : JNode}, Parsed levels' n' → n.value = n'.value →
      writeNode n = writeNode n' := by
  induction h with
  | null =>
    intro levels' n' h' hvalue
    cases h' <;> first | rfl | cases hvalue
  | bool levels b =>
    intro levels' n' h' hvalue
    cases h' <;> first | (cases hvalue; rfl) | cases hvalue
  | int levels m i j range =>
    intro levels' n' h' hvalue
    cases h' with
    | int levels' m' i' j' range' =>
      have heq : m = m' := by
        have h := JsonValue.int.inj hvalue
        rwa [tokenValue_encodeInt, tokenValue_encodeInt] at h
      rw [heq]
      rfl
    | _ => cases hvalue
  | str levels s =>
    intro levels' n' h' hvalue
    cases h' <;> first | (cases hvalue; rfl) | cases hvalue
  | arr levels xs i j items ih =>
    intro levels' n' h' hvalue
    cases h' with
    | arr levels' ys i' j' items' =>
      have hvalues := JsonValue.arr.inj hvalue
      have htexts : xs.map writeNode = ys.map writeNode := by
        rw [itemValues_eq_map, itemValues_eq_map] at hvalues
        clear hvalue items
        induction xs generalizing ys with
        | nil =>
          cases ys with
          | nil => rfl
          | cons y ys => cases hvalues
        | cons x xs ihxs =>
          cases ys with
          | nil => cases hvalues
          | cons y ys =>
            obtain ⟨hx, hxs⟩ := List.cons.inj hvalues
            rw [List.map_cons, List.map_cons,
              ih x (List.mem_cons_self ..) (items' y (List.mem_cons_self ..)) hx,
              ihxs (fun z hz => ih z (List.mem_cons_of_mem _ hz)) ys
                (fun z hz => items' z (List.mem_cons_of_mem _ hz)) hxs]
      simp only [writeNode, writeParsed, writeNodes_eq_map, htexts]
    | _ => cases hvalue
  | obj levels fields i j names values ih =>
    intro levels' n' h' hvalue
    cases h' with
    | obj levels' fields' i' j' names' values' =>
      rw [value_obj, value_obj] at hvalue
      have hlookup := congrFun (JsonValue.obj.inj hvalue)
      have hsame : ∀ f ∈ fields, ∀ g ∈ fields', f.2.value = g.2.value →
          writeNode f.2 = writeNode g.2 := fun f hf g hg => ih f hf (values' g hg)
      rw [writeNode, writeNode]
      refine writeParsed_obj_congr names names' fun p => ⟨?_, ?_⟩
      · exact mem_fieldTexts_of_lookup names names' hlookup hsame
      · exact mem_fieldTexts_of_lookup names' names (fun k => (hlookup k).symm)
          fun g hg f hf hv => (hsame f hf g hg hv.symm).symm
    | _ => cases hvalue

/-! ## Spans -/

mutual

/-- A node whose text lies `k` bytes further on. -/
def JNode.moved (k : Nat) : JNode → JNode
  | .mk v start stop => .mk (JV.moved k v) (start + k) (stop + k)

def JV.moved (k : Nat) : JV → JV
  | .null => .null
  | .bool b => .bool b
  | .num text => .num text
  | .str s => .str s
  | .arr items => .arr (movedItems k items)
  | .obj fields => .obj (movedFields k fields)

def movedItems (k : Nat) : List JNode → List JNode
  | [] => []
  | x :: xs => JNode.moved k x :: movedItems k xs

def movedFields (k : Nat) : List (String × JNode) → List (String × JNode)
  | [] => []
  | (name, x) :: fields => (name, JNode.moved k x) :: movedFields k fields

end

theorem movedItems_eq_map (k : Nat) (xs : List JNode) : movedItems k xs = xs.map (JNode.moved k) := by
  induction xs with
  | nil => rfl
  | cons x xs ih => rw [movedItems, ih, List.map_cons]

theorem movedFields_eq_map (k : Nat) (fields : List (String × JNode)) :
    movedFields k fields = fields.map fun f => (f.1, f.2.moved k) := by
  induction fields with
  | nil => rfl
  | cons f fields ih =>
    obtain ⟨name, x⟩ := f
    rw [movedFields, ih, List.map_cons]

theorem JNode.moved_ofShape (k : Nat) (shape : JsonShape JNode) (i j : Nat) :
    (JNode.ofShape shape i j).moved k
      = JNode.ofShape (shape.map (JNode.moved k)) (i + k) (j + k) := by
  cases shape with
  | null => rfl
  | bool b => rfl
  | int n => rfl
  | str s => rfl
  | arr items =>
    change JNode.mk (.arr (movedItems k items)) _ _ = .mk (.arr (items.map (JNode.moved k))) _ _
    rw [movedItems_eq_map]
  | obj members =>
    change JNode.mk (.obj (movedFields k members)) _ _
      = .mk (.obj (members.map fun m => (m.1, m.2.moved k))) _ _
    rw [movedFields_eq_map]

/-- `n` is `root` or one of the nodes inside it. -/
inductive Subnode (n : JNode) : JNode → Prop
  | root : Subnode n n
  | item {xs : List JNode} {i j : Nat} {x : JNode} (mem : x ∈ xs) (inside : Subnode n x) :
      Subnode n (.mk (.arr xs) i j)
  | field {fields : List (String × JNode)} {i j : Nat} {f : String × JNode} (mem : f ∈ fields)
      (inside : Subnode n f.2) : Subnode n (.mk (.obj fields) i j)

/-- The nodes inside a parsed node are parsed nodes. -/
theorem Parsed.subnode {levels : Nat} {n root : JNode} (h : Parsed levels root)
    (hsub : Subnode n root) : Parsed levels n := by
  induction hsub generalizing levels with
  | root => exact h
  | item mem _ ih =>
    cases h with
    | arr levels _ _ _ items => exact (ih (items _ mem)).mono (Nat.le_succ levels)
  | field mem _ ih =>
    cases h with
    | obj levels _ _ _ _ values => exact (ih (values _ mem)).mono (Nat.le_succ levels)

theorem span_of_valueText {levels i : Nat} {n : JNode} {t : List Char}
    (h : ValueText scannerDialect JNode.ofShape levels i n t) :
    n.start = i ∧ n.stop = i + size t := by
  cases levels with
  | zero =>
    obtain ⟨shape, -, rfl⟩ := h
    exact ⟨rfl, rfl⟩
  | succ levels =>
    obtain ⟨shape, -, rfl⟩ := h
    exact ⟨rfl, rfl⟩

/-- `x` is an element of the container `v`. -/
def ElementOf (x : JNode) : JV → Prop
  | .arr xs => x ∈ xs
  | .obj fields => ∃ f ∈ fields, f.2 = x
  | _ => False

theorem exists_elementText {levels i : Nat} {v : JV} {start stop : Nat} {t : List Char}
    (h : ValueText scannerDialect JNode.ofShape levels i (.mk v start stop) t) {x : JNode}
    (hx : ElementOf x v) :
    ∃ levels', levels' ≤ levels ∧ ∃ front u back, t = front ++ u ++ back
      ∧ ValueText scannerDialect JNode.ofShape levels' (i + size front) x u := by
  have hshape : ∀ {element? : Option (Nat → JNode → List Char → Prop)} {shape : JsonShape JNode},
      ShapeText scannerDialect element? i shape t → v = JV.ofShape shape →
      ∃ element, element? = some element ∧ ∃ front u back, t = front ++ u ++ back
        ∧ element (i + size front) x u := by
    have hinside : ∀ {opening close : Char} {element : Nat → JNode → List Char → Prop}
        {t : List Char}, opening.utf8Size = 1 → (∃ front u back, t = front ++ u ++ back
          ∧ element (i + 1 + size front) x u) →
        ∃ front u back, opening :: t ++ [close] = front ++ u ++ back
          ∧ element (i + size front) x u := by
      rintro opening close element _ hsize ⟨front, u, back, rfl, hu⟩
      refine ⟨opening :: front, u, back ++ [close], by simp only [List.append_assoc,
        List.cons_append], ?_⟩
      rw [size_cons, hsize, ← Nat.add_assoc]
      exact hu
    intro element? shape htext hv
    subst hv
    cases htext with
    | null => exact hx.elim
    | true => exact hx.elim
    | false => exact hx.elim
    | int => exact hx.elim
    | str => exact hx.elim
    | emptyArr => exact absurd hx List.not_mem_nil
    | arr room items => exact ⟨_, room, hinside rfl (exists_itemText items hx)⟩
    | emptyObj =>
      obtain ⟨f, hf, -⟩ := hx
      exact absurd hf List.not_mem_nil
    | obj room members =>
      obtain ⟨f, hf, rfl⟩ := hx
      exact ⟨_, room, hinside rfl (exists_memberText members hf)⟩
  cases levels with
  | zero =>
    obtain ⟨shape, htext, hn⟩ := h
    obtain ⟨element, hroom, -⟩ := hshape htext (JNode.mk.inj hn).1
    cases hroom
  | succ levels =>
    obtain ⟨shape, htext, hn⟩ := h
    obtain ⟨element, hroom, hu⟩ := hshape htext (JNode.mk.inj hn).1
    obtain rfl := Option.some.inj hroom
    exact ⟨levels, Nat.le_succ levels, hu⟩

/-- The text of a node inside another is a part of its text. -/
theorem exists_subnodeText {n root : JNode} (hsub : Subnode n root) :
    ∀ {levels i : Nat} {t : List Char}, ValueText scannerDialect JNode.ofShape levels i root t →
      ∃ levels', levels' ≤ levels ∧ ∃ front u back, t = front ++ u ++ back
        ∧ ValueText scannerDialect JNode.ofShape levels' (i + size front) n u := by
  have hstep : ∀ {levels i : Nat} {x : JNode} {t : List Char},
      (∃ levels', levels' ≤ levels ∧ ∃ front u back, t = front ++ u ++ back
        ∧ ValueText scannerDialect JNode.ofShape levels' (i + size front) x u) →
      (∀ {levels i : Nat} {t : List Char}, ValueText scannerDialect JNode.ofShape levels i x t →
        ∃ levels', levels' ≤ levels ∧ ∃ front u back, t = front ++ u ++ back
          ∧ ValueText scannerDialect JNode.ofShape levels' (i + size front) n u) →
      ∃ levels', levels' ≤ levels ∧ ∃ front u back, t = front ++ u ++ back
        ∧ ValueText scannerDialect JNode.ofShape levels' (i + size front) n u := by
    rintro levels i x t ⟨levels', hle, front, u, back, rfl, hu⟩ ih
    obtain ⟨levels'', hle', front', u', back', rfl, hn⟩ := ih hu
    refine ⟨levels'', Nat.le_trans hle' hle, front ++ front', u', back' ++ back,
      by simp only [List.append_assoc], ?_⟩
    rw [size_append, ← Nat.add_assoc]
    exact hn
  induction hsub with
  | root =>
    intro levels i t h
    exact ⟨levels, Nat.le_refl _, [], t, [], by rw [List.nil_append, List.append_nil], h⟩
  | @item xs _ _ x mem _ ih =>
    intro levels i t h
    exact hstep (exists_elementText h mem) ih
  | @field fields _ _ f mem _ ih =>
    intro levels i t h
    exact hstep (exists_elementText h ⟨f, mem, rfl⟩) ih

/-- The bytes a node covers. -/
def spanned (b : Bytes) (n : JNode) : Bytes := (b.take n.stop).drop n.start

/-- A node covers the bytes of its text. -/
theorem spanned_of_valueText {levels : Nat} {n : JNode} {front u : List Char}
    (h : ValueText scannerDialect JNode.ofShape levels (size front) n u) (back : List Char) :
    spanned (utf8Chars (front ++ u ++ back)) n = utf8Chars u := by
  obtain ⟨hstart, hstop⟩ := span_of_valueText h
  have hboth : size front + size u = (utf8Chars front ++ utf8Chars u).length := by
    rw [List.length_append]
    rfl
  have hfront : size front = (utf8Chars front).length := rfl
  rw [spanned, hstart, hstop, utf8Chars_append, utf8Chars_append, hboth, List.take_left, hfront,
    List.drop_left]

/-- A node of an accepted text has a text of its own there. -/
theorem exists_text_of_subnode {b : Bytes} {root n : JNode} (h : parseJson b = .ok root)
    (hsub : Subnode n root) :
    ∃ levels, levels ≤ maxJsonNestingDepth ∧ ∃ front u back, b = utf8Chars (front ++ u ++ back)
      ∧ ValueText scannerDialect JNode.ofShape levels (size front) n u := by
  obtain ⟨text, rfl, w, t, w', hw, hroot, hw', rfl⟩ := parseJson_eq_ok_iff.mp h
  obtain ⟨levels, hle, front, u, back, rfl, hu⟩ := exists_subnodeText hsub hroot
  refine ⟨levels, hle, w ++ front, u, back ++ w', by simp only [List.append_assoc], ?_⟩
  rw [size_append]
  exact hu

/-- The bytes a node covers are a part of the text it was read from. -/
theorem exists_append_spanned {b : Bytes} {root n : JNode} (h : parseJson b = .ok root)
    (hsub : Subnode n root) :
    n.start ≤ n.stop ∧ n.stop ≤ b.length
      ∧ ∃ front back, b = front ++ spanned b n ++ back ∧ front.length = n.start := by
  obtain ⟨levels, -, front, u, back, rfl, hu⟩ := exists_text_of_subnode h hsub
  obtain ⟨hstart, hstop⟩ := span_of_valueText hu
  have hfront : (utf8Chars front).length = size front := rfl
  have htext : (utf8Chars u).length = size u := rfl
  refine ⟨by omega, ?_, utf8Chars front, utf8Chars back, ?_, by rw [hstart, hfront]⟩
  · simp only [utf8Chars_append, List.length_append, hfront, htext, hstop]
    omega
  · rw [spanned_of_valueText hu, utf8Chars_append, utf8Chars_append]

/-- The bytes a node of an accepted text covers parse to the node itself, with its spans
counted from its own first byte. -/
theorem parseJson_spanned {b : Bytes} {root n : JNode} (h : parseJson b = .ok root)
    (hsub : Subnode n root) :
    ∃ m, parseJson (spanned b n) = .ok m ∧ m.moved n.start = n := by
  obtain ⟨levels, hle, front, u, back, rfl, hu⟩ := exists_text_of_subnode h hsub
  obtain ⟨hstart, -⟩ := span_of_valueText hu
  obtain ⟨m, hm, hmoved⟩ := ValueText.of_map (i := 0) (JNode.moved_ofShape (size front))
    (by rw [Nat.zero_add]; exact hu)
  have hnil : Space [] := fun _ hc => absurd hc List.not_mem_nil
  refine ⟨m, ?_, by rw [hstart, hmoved]⟩
  rw [spanned_of_valueText hu, parseJson_eq_ok_iff]
  exact ⟨u, rfl, [], u, [], hnil, hm.mono (Dialect.Within.refl _) hle, hnil,
    (List.append_nil _).symm⟩

/-! ## The normal form -/

/-- Canonical JSON is a normal form: it is accepted, keeps the value and is its own
canonical form; two accepted texts have one canonical form exactly when they have one
value; and the bytes of every node parse to the node. -/
theorem canonicalJsonV2_normalForm :
    (∀ b n, parseJson b = .ok n → ∃ c m, canonicalJsonV2 b = .ok c ∧ parseJson c = .ok m
      ∧ m.value = n.value ∧ canonicalJsonV2 c = .ok c)
    ∧ (∀ b b' n n', parseJson b = .ok n → parseJson b' = .ok n' →
      (canonicalJsonV2 b = canonicalJsonV2 b' ↔ n.value = n'.value))
    ∧ ∀ b root n, parseJson b = .ok root → Subnode n root →
      ∃ m, parseJson (spanned b n) = .ok m ∧ m.moved n.start = n := by
  have hcanonical : ∀ {b n}, parseJson b = .ok n → canonicalJsonV2 b = .ok (canonicalNode n) := by
    intro b n h
    rw [canonicalJsonV2, h, ok_bind]
  have hcongr : ∀ {b b' n n'}, parseJson b = .ok n → parseJson b' = .ok n' →
      n.value = n'.value → canonicalNode n = canonicalNode n' := by
    intro b b' n n' h h' hvalue
    rw [canonicalNode, canonicalNode,
      writeNode_congr (parsed_of_parseJson h) (parsed_of_parseJson h') hvalue]
  refine ⟨fun b n h => ?_, fun b b' n n' h h' => ⟨fun heq => ?_, fun hvalue => ?_⟩,
    fun b root n => parseJson_spanned⟩
  · obtain ⟨m, hm, hvalue⟩ := parseJson_canonicalNode h
    refine ⟨canonicalNode n, m, hcanonical h, hm, hvalue, ?_⟩
    rw [hcanonical hm, hcongr hm h hvalue]
  · rw [hcanonical h, hcanonical h'] at heq
    obtain ⟨m, hm, hvalue⟩ := parseJson_canonicalNode h
    obtain ⟨m', hm', hvalue'⟩ := parseJson_canonicalNode h'
    rw [← Except.ok.inj heq, hm] at hm'
    rw [← hvalue, ← hvalue', Except.ok.inj hm']
  · rw [hcanonical h, hcanonical h', hcongr h h' hvalue]

end RatifyProtocol.V2
