import RatifyProtocol.V2.Status.BatchText
set_option autoImplicit false

/-!
# Status: the wire form of a batch loses nothing

Decoding keeps every object as a part of the received text, and no entry covers fewer
bytes than the wire form allows for it.  So what the decoder admits by the size of the
text, the verifier admits by the computed length.
-/

namespace RatifyProtocol.V2

open Foundation Foundation.JsonGrammar

/-! ## What the decoder keeps -/

/-- The object of an entry is kept as the bytes it was read from. -/
structure KeptFrom (data : Bytes) (entry : JNode) (object : V2StatusEvidenceObject) : Prop where
  coded : object.Coded
  slice : ∃ o node m front back inner, entry.v = .obj o ∧ Obj.get o "object" = some node
    ∧ node.v = .obj inner ∧ data = front ++ object.wire ++ back ∧ front.length = node.start
    ∧ parseJson object.wire = .ok m ∧ m.moved front.length = node

theorem statusEntryView_eq_ok {entry : JNode} {o : Obj} (h : statusEntryView entry = .ok o) :
    entry.v = .obj o := by
  unfold statusEntryView obj at h
  split at h
  · rename_i o' ho
    obtain rfl := Except.ok.inj h
    split at ho
    · rename_i fields hv
      rw [hv, Except.ok.inj ho]
    · exact absurd ho plain_ne_ok
  · exact absurd h plain_ne_ok

theorem coded_of_statusObjectTypeCode {code : JNode} {objectType : Nat}
    (h : statusObjectTypeCode code = .ok objectType) :
    objectType = LIST ∨ objectType = PUSH := by
  unfold statusObjectTypeCode at h
  split at h
  · split_ifs at h
    · exact .inl (Except.ok.inj h).symm
    · exact .inr (Except.ok.inj h).symm
    · exact absurd h plain_ne_ok
  · exact absurd h plain_ne_ok

/-- An accepted entry has its two members and no other. -/
theorem decodeStatusEntry_eq_ok {data : Bytes} {o : Obj} {object : V2StatusEvidenceObject}
    (h : decodeStatusEntry data o = .ok object) :
    ∃ code node inner, Obj.get o "object_type_code" = some code ∧ Obj.get o "object" = some node
      ∧ o.length = 2 ∧ object.Coded ∧ node.v = .obj inner ∧ object.wire = spanned data node := by
  unfold decodeStatusEntry at h
  split at h
  · rename_i code node hcode hnode
    obtain ⟨hlength, h⟩ := refuseIf_bind_eq_ok_iff.mp h
    obtain ⟨objectType, htype, h⟩ := bind_eq_ok_iff.mp h
    split at h
    · rename_i inner hinner
      split_ifs at h
      · obtain rfl := Except.ok.inj h
        exact ⟨code, node, inner, hcode, hnode, by simpa using hlength,
          coded_of_statusObjectTypeCode htype, hinner, rfl⟩
      · exact absurd h plain_ne_ok
    · exact absurd h plain_ne_ok
  · exact absurd h plain_ne_ok

/-- The checks a decoded batch has passed. -/
theorem decodeV2StatusEvidenceBatch_eq_ok {data : Bytes} {batch : V2StatusEvidenceBatch}
    (h : decodeV2StatusEvidenceBatch data = .ok batch) :
    data.length ≤ maxStatusEvidenceBatchBytesV2
      ∧ ∃ root entries views, parseJson data = .ok root ∧ root.v = .arr entries
        ∧ entries.mapM statusEntryView = .ok views
        ∧ views.length ≤ maxStatusEvidenceBatchObjectsV2
        ∧ views.mapM (decodeStatusEntry data) = .ok batch.objects := by
  simp only [decodeV2StatusEvidenceBatch, classify_eq_ok_iff, checkV2WireSize,
    refuseIf_bind_eq_ok_iff, decide_eq_false_iff_not, not_lt] at h
  obtain ⟨hsize, h⟩ := h
  obtain ⟨root, hroot, h⟩ := bind_eq_ok_iff.mp h
  split at h
  · rename_i entries hentries
    obtain ⟨views, hviews, h⟩ := bind_eq_ok_iff.mp h
    obtain ⟨hcount, h⟩ := refuseIf_bind_eq_ok_iff.mp h
    obtain ⟨objects, hobjects, h⟩ := bind_eq_ok_iff.mp h
    obtain rfl := Except.ok.inj h
    exact ⟨hsize, root, entries, views, hroot, hentries, hviews, by simpa using hcount, hobjects⟩
  · exact absurd h plain_ne_ok

theorem mem_of_obj_get {o : Obj} {k : String} {n : JNode} (h : Obj.get o k = some n) :
    (k, n) ∈ o := by
  obtain ⟨f, hf, rfl⟩ := Option.map_eq_some_iff.mp h
  have hname : f.1 = k := by simpa using List.find?_some hf
  rw [← hname]
  exact List.mem_of_find?_eq_some hf

/-- The node of an entry in an accepted batch. -/
structure EntryOf (data : Bytes) (root entry : JNode) (object : V2StatusEvidenceObject) : Prop where
  inside : Subnode entry root
  decoded : ∃ o, entry.v = .obj o ∧ decodeStatusEntry data o = .ok object

section Entry

variable {data : Bytes} {root entry : JNode} {object : V2StatusEvidenceObject}

theorem EntryOf.kept (h : EntryOf data root entry object) (hroot : parseJson data = .ok root) :
    KeptFrom data entry object := by
  obtain ⟨o, ho, hdecoded⟩ := h.decoded
  obtain ⟨code, node, inner, -, hnode, -, hcoded, hinner, hwire⟩ := decodeStatusEntry_eq_ok hdecoded
  have hsub : Subnode node root :=
    (subnode_of_mem_obj ho (mem_of_obj_get hnode)).trans h.inside
  obtain ⟨-, -, front, back, hdata, hfront⟩ := exists_append_spanned hroot hsub
  obtain ⟨m, hm, hmoved⟩ := parseJson_spanned hroot hsub
  refine ⟨hcoded, o, node, m, front, back, inner, ho, hnode, hinner, ?_, hfront, ?_, ?_⟩
  · rw [hwire]
    exact hdata
  · rw [hwire]
    exact hm
  · rw [hfront]
    exact hmoved

/-- Two members under two names are all there are. -/
theorem sum_of_two_members {o : Obj} {k k' : String} {n n' : JNode} (hlength : o.length = 2)
    (hne : k ≠ k') (hn : Obj.get o k = some n) (hn' : Obj.get o k' = some n')
    (f : String × JNode → Nat) : (o.map f).sum = f (k, n) + f (k', n') := by
  obtain ⟨a, b, rfl⟩ := List.length_eq_two.mp hlength
  have hk := List.mem_pair.mp (mem_of_obj_get hn)
  have hk' := List.mem_pair.mp (mem_of_obj_get hn')
  simp only [List.map_cons, List.map_nil, List.sum_cons, List.sum_nil, Nat.add_zero]
  rcases hk with rfl | rfl
  · rcases hk' with heq | rfl
    · exact absurd (congrArg Prod.fst heq).symm hne
    · rfl
  · rcases hk' with rfl | heq
    · exact Nat.add_comm _ _
    · exact absurd (congrArg Prod.fst heq).symm hne

/-- No entry covers fewer bytes than the wire form allows for it. -/
theorem EntryOf.length_le (h : EntryOf data root entry object) (hroot : parseJson data = .ok root) :
    statusEntryLength object ≤ entry.width + 1 := by
  obtain ⟨o, ho, hdecoded⟩ := h.decoded
  obtain ⟨code, node, inner, hcode, hnode, hlength, -, -, hwire⟩ :=
    decodeStatusEntry_eq_ok hdecoded
  have hinside := insideWidth_le_width hroot h.inside
  have hsum := sum_of_two_members hlength (by decide) hnode hcode fun f => memberWidth f + 1
  have hnodeWidth : object.wire.length = node.width := by
    rw [hwire]
    exact length_spanned hroot ((subnode_of_mem_obj ho (mem_of_obj_get hnode)).trans h.inside)
  have hcodeWidth : 0 < code.width :=
    width_pos hroot ((subnode_of_mem_obj ho (mem_of_obj_get hcode)).trans h.inside)
  have hname : "object".toList.length = 6 := by decide
  have hname' : "object_type_code".toList.length = 16 := by decide
  rw [ho, insideWidth, hsum] at hinside
  simp only [memberWidth, hname, hname'] at hinside
  rw [statusEntryLength, hnodeWidth]
  omega

end Entry

/-- The entries of an accepted batch, in order, with the objects they were kept as. -/
theorem exists_entries_of_decode {data : Bytes} {batch : V2StatusEvidenceBatch}
    (h : decodeV2StatusEvidenceBatch data = .ok batch) :
    ∃ root entries, parseJson data = .ok root ∧ root.v = .arr entries
      ∧ List.Forall₂ (EntryOf data root) entries batch.objects := by
  obtain ⟨-, root, entries, views, hroot, hentries, hviews, -, hobjects⟩ :=
    decodeV2StatusEvidenceBatch_eq_ok h
  refine ⟨root, entries, hroot, hentries, ?_⟩
  have hinside : ∀ entry ∈ entries, Subnode entry root :=
    fun entry hentry => subnode_of_mem_arr hentries hentry
  rw [mapM_eq_ok_iff] at hviews hobjects
  clear hroot hentries
  generalize batch.objects = objects at hobjects
  induction hviews generalizing objects with
  | nil =>
    cases hobjects
    exact .nil
  | @cons entry o entries views hview _ ih =>
    cases hobjects with
    | cons hobject hrest =>
      have hhead : EntryOf data root entry _ :=
        ⟨hinside entry List.mem_cons_self, o, statusEntryView_eq_ok hview, hobject⟩
      exact .cons hhead (ih (fun e he => hinside e (List.mem_cons_of_mem _ he)) _ hrest)

theorem sum_statusEntryLength_le {data : Bytes} {root : JNode} {entries : List JNode}
    {objects : List V2StatusEvidenceObject} (hroot : parseJson data = .ok root)
    (h : List.Forall₂ (EntryOf data root) entries objects) :
    (objects.map statusEntryLength).sum ≤ (entries.map fun entry => entry.width + 1).sum := by
  induction h with
  | nil => exact Nat.le_refl _
  | cons hentry _ ih =>
    have hhead := hentry.length_le hroot
    simp only [List.map_cons, List.sum_cons]
    omega

/-- The computed length of a decoded batch is at most that of the text. -/
theorem encodedLength_le_of_decode {data : Bytes} {batch : V2StatusEvidenceBatch}
    (h : decodeV2StatusEvidenceBatch data = .ok batch) :
    v2StatusEvidenceBatchEncodedLength batch ≤ data.length := by
  obtain ⟨root, entries, hroot, hentries, hall⟩ := exists_entries_of_decode h
  have hcoded : ∀ object ∈ batch.objects, object.Coded := by
    intro object hobject
    obtain ⟨entry, -, hentry⟩ := forall₂_left hall.flip object hobject
    exact (hentry.kept hroot).coded
  have hsum := sum_statusEntryLength_le hroot hall
  have hinside := insideWidth_le_width hroot .root
  have hwidth := width_le_length hroot .root
  have hcount := hall.length_eq
  simp only [hentries, insideWidth, hcount] at hinside
  rw [v2StatusEvidenceBatchEncodedLength_eq hcoded]
  omega

/-! ## The law -/

/-- What the encoder accepts decodes to the canonical objects in order, and its length is
the computed one. -/
theorem decode_encode_statusBatch {batch : V2StatusEvidenceBatch} {data : Bytes}
    (h : encodeV2StatusEvidenceBatch batch = .ok data) :
    ∃ decoded, decodeV2StatusEvidenceBatch data = .ok decoded
      ∧ List.Forall₂ (fun object kept => kept.objectType = object.objectType
        ∧ object.canonical = .ok kept.wire) batch.objects decoded.objects
      ∧ data.length = v2StatusEvidenceBatchEncodedLength decoded := by
  obtain ⟨hcount, hsize, es, hes, rfl⟩ := exists_entries_of_encode h
  have hwritten : ∀ e ∈ es, e.Written := by
    intro e he
    obtain ⟨object, -, hobject⟩ := forall₂_left hes.flip e he
    exact hobject.written
  obtain ⟨root, entries, views, hroot, hentries, hviews, hdecoded⟩ := exists_views hwritten
  have hlength : views.length ≤ maxStatusEvidenceBatchObjectsV2 := by
    have hkept := (mapM_eq_ok_iff.mp hdecoded).length_eq
    rw [hkept, List.length_map, ← hes.length_eq]
    exact hcount
  refine ⟨⟨es.map StatusEntryText.decoded⟩, ?_, ?_, ?_⟩
  · simp only [decodeV2StatusEvidenceBatch, classify_eq_ok_iff, checkV2WireSize,
      refuseIf_bind_eq_ok_iff, decide_eq_false_iff_not, not_lt, hroot, ok_bind, hentries, hviews,
      hdecoded, and_true]
    exact ⟨hsize, hlength⟩
  · rw [List.forall₂_map_right_iff]
    exact hes.imp fun object e hwritten => ⟨hwritten.code, hwritten.canonical⟩
  · have hcoded : ∀ object ∈ es.map StatusEntryText.decoded, object.Coded := by
      intro object hobject
      obtain ⟨e, he, rfl⟩ := List.mem_map.mp hobject
      exact (hwritten e he).code
    have hsum : ((es.map StatusEntryText.entry).map fun t => (utf8Chars t).length + 1).sum
        = ((es.map StatusEntryText.decoded).map statusEntryLength).sum := by
      rw [List.map_map, List.map_map]
      congr 1
      apply List.map_congr_left
      intro e he
      have hentry := congrArg List.length (utf8Chars_entry (hwritten e he))
      have hhead : (utf8 "\x7b\"object\":").length = 10 := by decide
      have hmid : (utf8 ",\"object_type_code\":").length = 20 := by decide
      have htail : (utf8 "\x7d").length = 1 := by decide
      have hcode := length_utf8_objectType (hcoded _ (List.mem_map_of_mem he))
      simp only [List.length_append, hhead, hmid, htail] at hentry
      simp only [Function.comp_apply, statusEntryLength, hentry, StatusEntryText.decoded] at hcode ⊢
      omega
    have hcomma := length_utf8Chars_commaSeparated (es.map StatusEntryText.entry)
    have hopen : (String.utf8EncodeChar '[').length = 1 := rfl
    have hclose : (String.utf8EncodeChar ']').length = 1 := rfl
    have hlimit : maxStatusEvidenceBatchBytesV2 ≤ usizeMax := by decide
    rw [v2StatusEvidenceBatchEncodedLength_eq hcoded]
    simp only [List.cons_append, utf8Chars_cons, utf8Chars_append, utf8Chars_nil, List.append_nil,
      List.length_append, hopen, hclose, List.length_map] at hsize hcomma ⊢
    omega

/-- Decoding an encoded batch gives the canonical objects, in order and under their codes,
in exactly the computed length.  Decoding any text keeps each object as the part of the
text it was read from; the computed length is no more than that of the text, and the
verifier goes on to the objects themselves. -/
theorem v2StatusEvidenceBatch_wireForm :
    (∀ batch data, encodeV2StatusEvidenceBatch batch = .ok data →
      ∃ decoded, decodeV2StatusEvidenceBatch data = .ok decoded
        ∧ List.Forall₂ (fun object kept => kept.objectType = object.objectType
          ∧ object.canonical = .ok kept.wire) batch.objects decoded.objects
        ∧ data.length = v2StatusEvidenceBatchEncodedLength decoded)
    ∧ ∀ data batch, decodeV2StatusEvidenceBatch data = .ok batch →
      (∃ root entries, parseJson data = .ok root ∧ root.v = .arr entries
        ∧ List.Forall₂ (KeptFrom data) entries batch.objects)
      ∧ v2StatusEvidenceBatchEncodedLength batch ≤ data.length
      ∧ ∀ P issuerId key, verifyV2StatusEvidenceBatch P issuerId key batch
        = verifyStatusEvidenceObjects P issuerId key batch.objects := by
  refine ⟨fun batch data => decode_encode_statusBatch, fun data batch h => ?_⟩
  obtain ⟨root, entries, hroot, hentries, hall⟩ := exists_entries_of_decode h
  obtain ⟨hsize, -, -, views, -, -, -, hcount, hobjects⟩ := decodeV2StatusEvidenceBatch_eq_ok h
  have hlength := encodedLength_le_of_decode h
  refine ⟨⟨root, entries, hroot, hentries, hall.imp fun entry object he => he.kept hroot⟩,
    hlength, fun P issuerId key => ?_⟩
  have hkept := (mapM_eq_ok_iff.mp hobjects).length_eq
  rw [verifyV2StatusEvidenceBatch, if_neg (by omega), if_neg (by omega)]

end RatifyProtocol.V2
