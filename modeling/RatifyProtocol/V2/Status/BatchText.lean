import RatifyProtocol.V2.JsonSpan
import RatifyProtocol.V2.Status.Batch
set_option autoImplicit false

/-!
# Status: an encoded batch is decoded as it was written

The text of a batch is put together from the canonical texts of its objects, and the
grammar reads every object from exactly the bytes the encoder wrote for it.
-/

namespace RatifyProtocol.V2

open Foundation Foundation.JsonGrammar

/-! ## The length of the wire form -/

theorem saturatingAdd_min (a b : Nat) :
    saturatingAdd (min a usizeMax) b = min (a + b) usizeMax := by
  unfold saturatingAdd
  omega

/-- What one entry and a separator take, its code one digit long. -/
def statusEntryLength (object : V2StatusEvidenceObject) : Nat := object.wire.length + 33

/-- An object under one of the two codes. -/
def V2StatusEvidenceObject.Coded (object : V2StatusEvidenceObject) : Prop :=
  object.objectType = LIST ∨ object.objectType = PUSH

theorem length_utf8_objectType {object : V2StatusEvidenceObject} (h : object.Coded) :
    (utf8 (toString object.objectType)).length = 1 := by
  rcases h with h | h
  · rw [h]
    decide
  · rw [h]
    decide

theorem addStatusEntryLengths_succ {objects : List V2StatusEvidenceObject}
    (h : ∀ object ∈ objects, object.Coded) (i total : Nat) :
    addStatusEntryLengths (i + 1) (min total usizeMax) objects
      = min (total + (objects.map statusEntryLength).sum) usizeMax := by
  induction objects generalizing i total with
  | nil => rfl
  | cons object objects ih =>
    have hhead : (utf8 "\x7b\"object\":").length = 10 := by decide
    have hmid : (utf8 ",\"object_type_code\":").length = 20 := by decide
    have hcode := length_utf8_objectType (h object List.mem_cons_self)
    rw [addStatusEntryLengths, if_pos (Nat.succ_pos i), hhead, hmid, hcode]
    simp only [saturatingAdd_min]
    rw [ih (fun o ho => h o (List.mem_cons_of_mem _ ho)) (i + 1), List.map_cons, List.sum_cons,
      statusEntryLength]
    congr 1
    omega

/-- The computed length is the length of the text, up to the largest `usize`. -/
theorem v2StatusEvidenceBatchEncodedLength_eq {batch : V2StatusEvidenceBatch}
    (h : ∀ object ∈ batch.objects, object.Coded) :
    v2StatusEvidenceBatchEncodedLength batch
      = min ((batch.objects.map statusEntryLength).sum + 1 + (1 - batch.objects.length))
        usizeMax := by
  obtain ⟨objects⟩ := batch
  cases objects with
  | nil => decide
  | cons object objects =>
    have hhead : (utf8 "\x7b\"object\":").length = 10 := by decide
    have hmid : (utf8 ",\"object_type_code\":").length = 20 := by decide
    have hcode := length_utf8_objectType (h object List.mem_cons_self)
    have htwo : 2 = min 2 usizeMax := by decide
    rw [v2StatusEvidenceBatchEncodedLength, addStatusEntryLengths, if_neg (Nat.lt_irrefl 0), hhead,
      hmid, hcode, htwo]
    simp only [saturatingAdd_min]
    rw [addStatusEntryLengths_succ fun o ho => h o (List.mem_cons_of_mem _ ho)]
    simp only [List.map_cons, List.sum_cons, List.length_cons, statusEntryLength]
    congr 1
    omega

/-! ## The text of one entry -/

/-- An object as it is written: its code and its canonical text. -/
structure StatusEntryText where
  code : Nat
  text : List Char

namespace StatusEntryText

/-- The members of the entry, in key order. -/
def members (e : StatusEntryText) : List Char :=
  encodeString "object".toList ++ ':' :: e.text
    ++ ',' :: (encodeString "object_type_code".toList ++ ':' :: encodeInt e.code)

/-- The text of the entry. -/
def entry (e : StatusEntryText) : List Char := '\x7b' :: e.members ++ ['\x7d']

/-- The text is canonical text of an object under one of the two codes. -/
structure Written (e : StatusEntryText) : Prop where
  code : e.code = LIST ∨ e.code = PUSH
  text : ∃ fields, WireValue maxJsonNestingDepth (.obj fields) ∧ Fits 3 (.obj fields)
    ∧ write (.obj fields) = .ok e.text

end StatusEntryText

theorem fits_pushCj (p : RevocationPushV2) : Fits 3 (pushCj p true) := by
  refine .obj 2 _ (by simp [pushBody]) ?_
  simp only [pushBody, ↓reduceIte, List.cons_append, List.nil_append, List.forall_mem_cons]
  exact ⟨.str _ _, .int _ _, fits_revokedCj _, .int _ _, .int _ _, (fits_sig _).succ, by simp⟩

/-- The canonical bytes of an object are written text. -/
theorem exists_written {object : V2StatusEvidenceObject} {b : Bytes}
    (h : object.canonical = .ok b) :
    ∃ e : StatusEntryText, e.code = object.objectType ∧ b = utf8Chars e.text ∧ e.Written := by
  simp only [V2StatusEvidenceObject.canonical, classify_eq_ok_iff] at h
  split_ifs at h with hlist hpush
  · obtain ⟨l, -, hl⟩ := bind_eq_ok_iff.mp h
    obtain ⟨hwf, -, hcanonical, -⟩ := encodeRevocationListV2_eq_ok_iff.mp hl
    obtain ⟨t, ht, htext⟩ := bind_eq_ok_iff.mp hcanonical
    exact ⟨⟨object.objectType, t⟩, rfl, (Except.ok.inj htext).symm, .inl hlist,
      _, wireValue_listCj hwf true, fits_listCj l, ht⟩
  · obtain ⟨p, -, hp⟩ := bind_eq_ok_iff.mp h
    obtain ⟨hwf, -, hcanonical, -⟩ := encodeRevocationPushV2_eq_ok_iff.mp hp
    obtain ⟨t, ht, htext⟩ := bind_eq_ok_iff.mp hcanonical
    exact ⟨⟨object.objectType, t⟩, rfl, (Except.ok.inj htext).symm, .inr hpush,
      _, wireValue_pushCj hwf true, fits_pushCj p, ht⟩
  · exact absurd h plain_ne_ok

/-- What the encoder appends for one object. -/
theorem utf8Chars_entry {e : StatusEntryText} (h : e.Written) :
    utf8Chars e.entry = utf8 "\x7b\"object\":" ++ utf8Chars e.text
      ++ utf8 ",\"object_type_code\":" ++ utf8 (toString e.code) ++ utf8 "\x7d" := by
  have hhead : utf8 "\x7b\"object\":"
      = utf8Chars ('\x7b' :: (encodeString "object".toList ++ [':'])) := by decide
  have hmid : utf8 ",\"object_type_code\":"
      = utf8Chars (',' :: (encodeString "object_type_code".toList ++ [':'])) := by decide
  have hcode : utf8 (toString e.code) = utf8Chars (encodeInt e.code) := by
    rcases h.code with hcode | hcode
    · rw [hcode]
      decide
    · rw [hcode]
      decide
  have htail : utf8 "\x7d" = utf8Chars ['\x7d'] := by decide
  rw [hhead, hmid, hcode, htail]
  simp only [StatusEntryText.entry, StatusEntryText.members, ← utf8Chars_append]
  congr 1
  simp only [List.cons_append, List.append_assoc, List.nil_append]

/-! ## The text of a batch -/

theorem commaSeparated_cons (t : List Char) (ts : List (List Char)) :
    commaSeparated (t :: ts) = t ++ ts.flatMap fun u => ',' :: u := by
  induction ts generalizing t with
  | nil => rw [commaSeparated_singleton, List.flatMap_nil, List.append_nil]
  | cons u us ih => rw [commaSeparated_cons_cons, ih, List.flatMap_cons, List.cons_append]

/-- `e` is what the encoder writes for `object`. -/
structure WrittenFor (object : V2StatusEvidenceObject) (e : StatusEntryText) : Prop where
  code : e.code = object.objectType
  canonical : object.canonical = .ok (utf8Chars e.text)
  written : e.Written

/-- One round of the encoder. -/
theorem exists_writtenFor {i : Nat} {buf out : Bytes} {object : V2StatusEvidenceObject}
    {objects : List V2StatusEvidenceObject}
    (h : encodeStatusEntries i buf (object :: objects) = .ok out) :
    ∃ e, WrittenFor object e ∧ encodeStatusEntries (i + 1)
      ((if i > 0 then buf ++ utf8 "," else buf) ++ utf8Chars e.entry) objects = .ok out := by
  rw [encodeStatusEntries] at h
  obtain ⟨canonical, hcanonical, h⟩ := bind_eq_ok_iff.mp h
  obtain ⟨e, hcode, rfl, hwritten⟩ := exists_written hcanonical
  refine ⟨e, ⟨hcode, hcanonical, hwritten⟩, ?_⟩
  rw [utf8Chars_entry hwritten, hcode]
  simpa only [List.append_assoc] using h

theorem encodeStatusEntries_succ {objects : List V2StatusEvidenceObject} {i : Nat}
    {buf out : Bytes} (h : encodeStatusEntries (i + 1) buf objects = .ok out) :
    ∃ es, List.Forall₂ WrittenFor objects es
      ∧ out = buf ++ utf8Chars ((es.map StatusEntryText.entry).flatMap fun u => ',' :: u) := by
  induction objects generalizing i buf with
  | nil => exact ⟨[], .nil, by rw [← Except.ok.inj h]; exact (List.append_nil buf).symm⟩
  | cons object objects ih =>
    obtain ⟨e, he, hrest⟩ := exists_writtenFor h
    obtain ⟨es, hes, rfl⟩ := ih hrest
    refine ⟨e :: es, .cons he hes, ?_⟩
    have hcomma : utf8 "," = utf8Chars [','] := by decide
    rw [if_pos (Nat.succ_pos i), hcomma]
    simp only [List.map_cons, List.flatMap_cons, ← utf8Chars_append, List.append_assoc,
      List.nil_append, List.cons_append]

/-- The encoder writes the entries with a comma between neighbours. -/
theorem exists_entries_of_encode {batch : V2StatusEvidenceBatch} {data : Bytes}
    (h : encodeV2StatusEvidenceBatch batch = .ok data) :
    batch.objects.length ≤ maxStatusEvidenceBatchObjectsV2
      ∧ data.length ≤ maxStatusEvidenceBatchBytesV2
      ∧ ∃ es, List.Forall₂ WrittenFor batch.objects es
        ∧ data = utf8Chars ('[' :: commaSeparated (es.map StatusEntryText.entry) ++ [']']) := by
  unfold encodeV2StatusEvidenceBatch at h
  split_ifs at h with hcount
  · exact absurd h err_ne_ok
  · obtain ⟨buf, hbuf, h⟩ := bind_eq_ok_iff.mp h
    dsimp only at h
    split_ifs at h with hsize
    · exact absurd h err_ne_ok
    · obtain rfl := Except.ok.inj h
      have hopen : utf8 "[" = utf8Chars ['['] := by decide
      have hclose : utf8 "]" = utf8Chars [']'] := by decide
      refine ⟨Nat.le_of_not_lt hcount, Nat.le_of_not_lt hsize, ?_⟩
      rw [hclose]
      rw [hopen] at hbuf
      cases hobjects : batch.objects with
      | nil =>
        rw [hobjects] at hbuf
        refine ⟨[], .nil, ?_⟩
        rw [← Except.ok.inj hbuf]
        rfl
      | cons object objects =>
        rw [hobjects] at hbuf
        obtain ⟨e, he, hrest⟩ := exists_writtenFor hbuf
        obtain ⟨es, hes, rfl⟩ := encodeStatusEntries_succ hrest
        refine ⟨e :: es, .cons he hes, ?_⟩
        rw [if_neg (Nat.lt_irrefl 0), List.map_cons, commaSeparated_cons]
        simp only [← utf8Chars_append, List.append_assoc, List.nil_append, List.cons_append]

/-! ## Reading the entries -/

/-- `p` pairs what an entry was written from with the node the text `u` at `i` reads as. -/
structure EntryRead (i : Nat) (p : JNode × StatusEntryText) (u : List Char) : Prop where
  text : u = p.2.entry
  value : ValueText scannerDialect JNode.ofShape 15 i p.1 u
  members : ∃ n c levels, p.1.v = .obj [("object", n), ("object_type_code", c)]
    ∧ ValueText scannerDialect JNode.ofShape levels (i + 10) n p.2.text
    ∧ (∃ inner, n.v = .obj inner) ∧ statusObjectTypeCode c = .ok p.2.code

theorem statusObjectTypeCode_encodeInt {code : Nat} (h : code = LIST ∨ code = PUSH) (i j : Nat) :
    statusObjectTypeCode (.mk (.num (String.ofList (encodeInt code))) i j) = .ok code := by
  rcases h with rfl | rfl
  · rfl
  · rfl

/-- The text of an entry reads as an entry wherever it stands. -/
theorem exists_entryRead {e : StatusEntryText} (h : e.Written) (i : Nat) :
    ∃ p, EntryRead i p e.entry ∧ p.2 = e := by
  obtain ⟨fields, hwire, hfits, hwrite⟩ := h.text
  have hspells := spells_of_write hwire hwrite
  obtain ⟨n, hn, hden⟩ := placed_of_spells (hfits.mono (by decide : 3 ≤ 14)) hspells (i + 10)
  have hcode : ∀ j, ∃ c, ValueText scannerDialect JNode.ofShape 14 j c (encodeInt e.code)
      ∧ statusObjectTypeCode c = .ok e.code := by
    intro j
    have hrange : -maxSafe ≤ (e.code : Int) ∧ (e.code : Int) ≤ maxSafe := by
      rcases h.code with hcode | hcode
      · rw [hcode]
        decide
      · rw [hcode]
        decide
    exact ⟨_, ⟨.int e.code, .int (integerText_iff.mpr rfl) hrange, rfl⟩,
      statusObjectTypeCode_encodeInt h.code _ _⟩
  have hinner : ∃ inner, n.v = .obj inner := by
    cases hden with
    | obj _ ms => exact ⟨ms, rfl⟩
  have hobject : MemberText scannerDialect.quad (ValueText scannerDialect JNode.ofShape 14) (i + 1)
      ("object", n) (encodeString "object".toList ++ ':' :: e.text) := by
    refine ⟨[], encodeString "object".toList, [], [], e.text, [], space_nil,
      scannedString_encodeString "object", space_nil, space_nil, ?_, space_nil, by simp⟩
    have hpos : i + 1 + size ([] ++ encodeString "object".toList ++ []) + 1 + size [] = i + 10 := by
      have hname : size ([] ++ encodeString "object".toList ++ []) = 8 := by decide
      rw [hname, size_nil]
    rw [hpos]
    exact hn
  obtain ⟨c, hc, hread⟩ := hcode (i + 1 + size (encodeString "object".toList ++ ':' :: e.text) + 1
    + size ([] ++ encodeString "object_type_code".toList ++ []) + 1 + size [])
  have hlast : MemberText scannerDialect.quad (ValueText scannerDialect JNode.ofShape 14)
      (i + 1 + size (encodeString "object".toList ++ ':' :: e.text) + 1) ("object_type_code", c)
      (encodeString "object_type_code".toList ++ ':' :: encodeInt e.code) :=
    ⟨[], encodeString "object_type_code".toList, [], [], encodeInt e.code, [], space_nil,
      scannedString_encodeString "object_type_code", space_nil, space_nil, hc, space_nil, by simp⟩
  have hmembers := MembersText.more hobject (.last hlast)
  have hnames : ([("object", n), ("object_type_code", c)].map Prod.fst).Nodup := by simp
  exact ⟨(_, e), ⟨rfl, ⟨.obj _, .obj rfl hmembers hnames, rfl⟩, n, c, 14, rfl, hn, hinner, hread⟩,
    rfl⟩

/-- The decoded form of what was written. -/
def StatusEntryText.decoded (e : StatusEntryText) : V2StatusEvidenceObject :=
  { objectType := e.code, wire := utf8Chars e.text }

/-- What the decoder makes of the entry read from `u`. -/
theorem decodeStatusEntry_of_read {front u : List Char} {p : JNode × StatusEntryText}
    (h : EntryRead (size front) p u) (back : List Char) :
    ∃ o, statusEntryView p.1 = .ok o
      ∧ decodeStatusEntry (utf8Chars (front ++ u ++ back)) o
        = .ok p.2.decoded := by
  obtain ⟨n, c, levels, hv, hn, ⟨inner, hinner⟩, hcode⟩ := h.members
  refine ⟨[("object", n), ("object_type_code", c)], ?_, ?_⟩
  · simp only [statusEntryView, obj, hv]
  have htext : front ++ u ++ back
      = (front ++ ('\x7b' :: (encodeString "object".toList ++ [':']))) ++ p.2.text
        ++ (',' :: (encodeString "object_type_code".toList ++ ':' :: encodeInt p.2.code)
          ++ '\x7d' :: back) := by
    rw [h.text, StatusEntryText.entry, StatusEntryText.members]
    simp only [List.append_assoc, List.cons_append, List.nil_append]
  have hfront : size (front ++ ('\x7b' :: (encodeString "object".toList ++ [':'])))
      = size front + 10 := by
    have hname : size ('\x7b' :: (encodeString "object".toList ++ [':'])) = 10 := by decide
    rw [size_append, hname]
  rw [← hfront] at hn
  have hspanned := spanned_of_valueText hn (',' :: (encodeString "object_type_code".toList
    ++ ':' :: encodeInt p.2.code) ++ '\x7d' :: back)
  rw [← htext] at hspanned
  obtain ⟨hstart, hstop⟩ := span_of_valueText hn
  have hinside : n.start ≤ n.stop ∧ n.stop ≤ (utf8Chars (front ++ u ++ back)).length := by
    have hall : (utf8Chars (front ++ u ++ back)).length = size (front ++ u ++ back) := rfl
    rw [hall, htext, hstart, hstop]
    simp only [size_append]
    omega
  have hget : Obj.get [("object", n), ("object_type_code", c)] "object_type_code" = some c := rfl
  have hget' : Obj.get [("object", n), ("object_type_code", c)] "object" = some n := rfl
  have hlength : refuseIf ([("object", n), ("object_type_code", c)].length != 2)
      "wire v2: status evidence entry must have exactly object and object_type_code" = .ok () := rfl
  simp only [decodeStatusEntry, hget, hget', hlength, ok_bind, hcode, hinner, if_pos hinside,
    hspanned, StatusEntryText.decoded]

theorem exists_entriesRead {e : StatusEntryText} {es : List StatusEntryText}
    (h : ∀ x ∈ e :: es, x.Written) (i : Nat) :
    ∃ ps, ItemsText EntryRead i ps (commaSeparated ((e :: es).map StatusEntryText.entry))
      ∧ ps.map Prod.snd = e :: es := by
  have hread : List.Forall₂ (fun x u => ∀ i, ∃ p, EntryRead i p u ∧ p.2 = x) (e :: es)
      ((e :: es).map StatusEntryText.entry) := by
    rw [List.forall₂_map_right_iff, List.forall₂_same]
    exact fun x hx i => exists_entryRead (h x hx) i
  obtain ⟨ps, hps, hsame⟩ := exists_itemsText hread i
  refine ⟨ps, hps, ?_⟩
  have hmap := List.forall₂_map_left_iff.mpr hsame.flip
  rwa [List.forall₂_eq_eq_eq] at hmap

/-- The text of written entries is read as entries the decoder keeps as they were
written. -/
theorem exists_views {es : List StatusEntryText} (h : ∀ e ∈ es, e.Written) :
    ∃ root entries views,
      parseJson (utf8Chars ('[' :: commaSeparated (es.map StatusEntryText.entry) ++ [']'])) = .ok root
        ∧ root.v = .arr entries ∧ entries.mapM statusEntryView = .ok views
        ∧ views.mapM (decodeStatusEntry
          (utf8Chars ('[' :: commaSeparated (es.map StatusEntryText.entry) ++ [']'])))
          = .ok (es.map StatusEntryText.decoded) := by
  cases es with
  | nil =>
    refine ⟨_, [], [], parseJson_eq_ok_iff.mpr ⟨_, rfl, [], _, [], space_nil,
      ⟨.arr [], .emptyArr rfl space_nil, rfl⟩, space_nil, (List.append_nil _).symm⟩, rfl, rfl, rfl⟩
  | cons e es =>
    obtain ⟨ps, hps, hsnd⟩ := exists_entriesRead h 1
    have hvalue : ∀ i p u, EntryRead i p u →
        ValueText scannerDialect JNode.ofShape 15 (i + 0) p.1 u := fun i p u hp => hp.value
    have hitems := hps.map hvalue
    have hentry : ∀ p ∈ ps, ∃ o, statusEntryView p.1 = .ok o ∧ decodeStatusEntry
        (utf8Chars ('[' :: commaSeparated ((e :: es).map StatusEntryText.entry) ++ [']'])) o
          = .ok p.2.decoded := by
      intro p hp
      obtain ⟨front, u, back, htext, hu⟩ := exists_itemText hps hp
      have hpos : 1 + size front = size ('[' :: front) := by
        rw [size_cons]
        rfl
      rw [hpos] at hu
      rw [htext]
      obtain ⟨o, hview, hdecode⟩ := decodeStatusEntry_of_read hu (back ++ [']'])
      refine ⟨o, hview, ?_⟩
      simpa only [List.cons_append, List.append_assoc] using hdecode
    choose! view hview hdecode using hentry
    refine ⟨_, ps.map Prod.fst, ps.map view, parseJson_eq_ok_iff.mpr ⟨_, rfl, [], _, [], space_nil,
      ⟨.arr _, .arr rfl hitems, rfl⟩, space_nil, (List.append_nil _).symm⟩, rfl, ?_, ?_⟩
    · rw [mapM_eq_ok_iff, List.forall₂_map_left_iff, List.forall₂_map_right_iff, List.forall₂_same]
      exact hview
    · have hdecoded : (e :: es).map StatusEntryText.decoded = ps.map fun p => p.2.decoded := by
        rw [← hsnd, List.map_map]
        rfl
      rw [hdecoded, mapM_eq_ok_iff, List.forall₂_map_left_iff, List.forall₂_map_right_iff,
        List.forall₂_same]
      exact hdecode

end RatifyProtocol.V2
