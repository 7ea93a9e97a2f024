import Mathlib.Algebra.GroupWithZero.Nat
import Mathlib.Algebra.Order.BigOperators.Group.List
import RatifyProtocol.V2.WireCodec
set_option autoImplicit false

/-!
# V2: the size of canonical text

`textLength` is the number of characters of a canonical text, computed from the
value alone.  From it follows which lists and pushes stay under the wire limits
whatever they contain, and which do not.
-/

namespace RatifyProtocol.V2

open Foundation

/-! ## The length of a text -/

mutual

/-- The number of characters of the canonical text of a value. -/
def textLength : CJ → Nat
  | .null => 4
  | .bool true => 4
  | .bool false => 5
  | .int n => (encodeInt n).length
  | .str s => (encodeString s.toList).length
  | .bytes b => (b.length + 2) / 3 * 4 + 2
  | .arr xs => itemsLength xs + 1 + (1 - xs.length)
  | .obj fields => membersLength fields + 1 + (1 - fields.length)

/-- Items with one separator or bracket each. -/
def itemsLength : List CJ → Nat
  | [] => 0
  | x :: xs => textLength x + 1 + itemsLength xs

/-- Members with their keys and one separator or brace each. -/
def membersLength : List (String × CJ) → Nat
  | [] => 0
  | (k, x) :: fields =>
    (encodeString k.toList).length + 1 + textLength x + 1 + membersLength fields

end

theorem itemsLength_eq_sum (xs : List CJ) :
    itemsLength xs = (xs.map fun x => textLength x + 1).sum := by
  induction xs with
  | nil => rfl
  | cons x xs ih => rw [itemsLength, ih, List.map_cons, List.sum_cons]

theorem membersLength_eq_sum (fields : List (String × CJ)) :
    membersLength fields
      = (fields.map fun f => (encodeString f.1.toList).length + 1 + textLength f.2 + 1).sum := by
  induction fields with
  | nil => rfl
  | cons f fields ih =>
    obtain ⟨k, x⟩ := f
    rw [membersLength, ih, List.map_cons, List.sum_cons]

theorem itemsLength_append (xs ys : List CJ) :
    itemsLength (xs ++ ys) = itemsLength xs + itemsLength ys := by
  simp only [itemsLength_eq_sum, List.map_append, List.sum_append]

theorem textLength_strs_singleton (s : String) :
    textLength (CJ.strs [s]) = (encodeString s.toList).length + 2 := by
  simp only [CJ.strs, List.map_cons, List.map_nil, textLength, itemsLength, List.length_cons,
    List.length_nil]

theorem membersLength_le {fields : List (String × CJ)} {n : Nat}
    (h : ∀ f ∈ fields, (encodeString f.1.toList).length ≤ n) :
    membersLength fields
      ≤ fields.length * (n + 1) + itemsLength (fields.map Prod.snd) := by
  induction fields with
  | nil => simp [membersLength, itemsLength]
  | cons f fields ih =>
    obtain ⟨hf, hrest⟩ := List.forall_mem_cons.mp h
    obtain ⟨k, x⟩ := f
    have hfields := ih hrest
    simp only at hf
    simp only [membersLength, itemsLength, List.length_cons, List.map_cons, Nat.add_mul]
    omega

theorem length_commaSeparated (ts : List (List Char)) :
    (commaSeparated ts).length + 1 = (ts.map fun t => t.length + 1).sum + (1 - ts.length) := by
  induction ts with
  | nil => rfl
  | cons t ts ih =>
    cases ts with
    | nil => simp [commaSeparated]
    | cons u us =>
      have hstep : commaSeparated (t :: u :: us) = t ++ ',' :: commaSeparated (u :: us) := by
        simp [commaSeparated]
      rw [hstep, List.length_append, List.length_cons, ih]
      simp only [List.map_cons, List.sum_cons, List.length_cons]
      omega

theorem length_encodeString_base64 (b : Bytes) :
    (encodeString (Base64.encodeChars b)).length = (b.length + 2) / 3 * 4 + 2 := by
  have hplain : (Base64.encodeChars b).flatMap encodeChar = Base64.encodeChars b := by
    have hone : ∀ cs : List Char, (∀ c ∈ cs, encodeChar c = [c]) → cs.flatMap encodeChar = cs := by
      intro cs hcs
      induction cs with
      | nil => rfl
      | cons c cs ih =>
        rw [List.flatMap_cons, hcs c (by simp), ih fun d hd => hcs d (by simp [hd])]
        rfl
    refine hone _ fun c hc => ?_
    rcases Base64.mem_encodeChars hc with rfl | ⟨n, hn, rfl⟩
    · rfl
    · have key : ∀ m : Fin 64, encodeChar (Base64.digit m) = [Base64.digit m] := by decide
      exact key ⟨n, hn⟩
  rw [encodeString, hplain]
  simp [Base64.length_encodeChars]

/-- The texts of the items, each with the length its value gives. -/
theorem length_items {xs : List CJ} {ts : List (List Char)}
    (h : List.Forall₂ (fun x t => t.length = textLength x) xs ts) :
    ('[' :: commaSeparated ts ++ [']']).length = textLength (.arr xs) := by
  have hsum : (ts.map fun t => t.length + 1).sum = itemsLength xs ∧ ts.length = xs.length := by
    induction h with
    | nil => exact ⟨rfl, rfl⟩
    | cons hx _ ih => exact ⟨by rw [List.map_cons, List.sum_cons, hx, ih.1, itemsLength],
        by rw [List.length_cons, List.length_cons, ih.2]⟩
  have hcomma := length_commaSeparated ts
  rw [hsum.1, hsum.2] at hcomma
  simp only [List.cons_append, List.length_cons, List.length_append, List.length_nil, textLength]
  omega

theorem length_members {fields : List (String × CJ)} {ts : List (List Char)}
    (h : List.Forall₂ (fun f t => t.length = textLength f.2) (inKeyOrder fields) ts) :
    ('\x7b' :: commaSeparated (List.zipWith memberText (inKeyOrder fields) ts)
      ++ ['\x7d']).length = textLength (.obj fields) := by
  have hperm := inKeyOrder_perm fields
  generalize inKeyOrder fields = sorted at h hperm
  have hsum : ((List.zipWith memberText sorted ts).map fun t => t.length + 1).sum
      = membersLength sorted ∧ (List.zipWith memberText sorted ts).length = sorted.length := by
    clear hperm
    induction h with
    | nil => exact ⟨rfl, rfl⟩
    | @cons f t sorted ts hf _ ih =>
      obtain ⟨k, x⟩ := f
      refine ⟨?_, by rw [List.zipWith_cons_cons, List.length_cons, List.length_cons, ih.2]⟩
      rw [List.zipWith_cons_cons, List.map_cons, List.sum_cons, ih.1, membersLength]
      simp only [memberText, List.length_append, List.length_cons, hf]
      omega
  have htotal : membersLength sorted = membersLength fields := by
    rw [membersLength_eq_sum, membersLength_eq_sum]
    exact (hperm.map _).sum_nat
  have hcomma := length_commaSeparated (List.zipWith memberText sorted ts)
  rw [hsum.1, hsum.2, htotal, hperm.length_eq] at hcomma
  simp only [List.cons_append, List.length_cons, List.length_append, List.length_nil, textLength]
  omega

mutual

/-- The canonical text of a value has the length the value gives. -/
theorem length_write : ∀ (v : CJ) (t : List Char), write v = .ok t → t.length = textLength v
  | .null, t, h => by
    obtain rfl := Except.ok.inj (by simpa only [write] using h)
    rfl
  | .bool true, t, h => by
    obtain rfl := Except.ok.inj (by simpa only [write] using h)
    rfl
  | .bool false, t, h => by
    obtain rfl := Except.ok.inj (by simpa only [write] using h)
    rfl
  | .int n, t, h => by
    simp only [write] at h
    split at h
    · rw [← Except.ok.inj h, textLength]
    · simp at h
  | .str s, t, h => by
    obtain rfl := Except.ok.inj (by simpa only [write] using h)
    rw [textLength]
  | .bytes b, t, h => by
    obtain rfl := Except.ok.inj (by simpa only [write] using h)
    rw [textLength, length_encodeString_base64]
  | .arr xs, t, h => by
    simp only [write, writeItems_eq_mapM, bind_eq_ok_iff, mapM_eq_ok_iff, Except.ok.injEq] at h
    obtain ⟨ts, hts, rfl⟩ := h
    refine length_items (List.forall₂_iff_get.mpr ⟨hts.length_eq, fun i hi hi' => ?_⟩)
    exact length_writeItems xs _ (List.get_mem xs ⟨i, hi⟩) _ (hts.get hi hi')
  | .obj fields, t, h => by
    obtain ⟨ts, hts, rfl⟩ := write_obj_eq_ok_iff.mp h
    refine length_members (List.forall₂_iff_get.mpr ⟨hts.length_eq, fun i hi hi' => ?_⟩)
    exact length_writeMembers fields _
      ((inKeyOrder_perm fields).mem_iff.mp (List.get_mem _ ⟨i, hi⟩)) _ (hts.get hi hi')

theorem length_writeItems : ∀ (xs : List CJ), ∀ x ∈ xs, ∀ t, write x = .ok t →
    t.length = textLength x
  | [], x, hx, t, h => by simp at hx
  | y :: ys, x, hx, t, h => by
    rcases List.mem_cons.mp hx with heq | hx
    · rw [heq] at h ⊢
      exact length_write y t h
    · exact length_writeItems ys x hx t h

theorem length_writeMembers : ∀ (fields : List (String × CJ)), ∀ f ∈ fields, ∀ t,
    write f.2 = .ok t → t.length = textLength f.2
  | [], f, hf, t, h => by simp at hf
  | (k, y) :: ys, f, hf, t, h => by
    rcases List.mem_cons.mp hf with heq | hf
    · rw [heq] at h ⊢
      exact length_write y t h
    · exact length_writeMembers ys f hf t h

end

theorem length_utf8Chars_le (cs : List Char) : (utf8Chars cs).length ≤ 4 * cs.length := by
  induction cs with
  | nil => rfl
  | cons c cs ih =>
    have hc := c.utf8Size_le_four
    rw [utf8Chars_cons, List.length_append, String.length_utf8EncodeChar, List.length_cons]
    omega

/-- Canonical bytes are one to four times as many as the characters. -/
theorem length_canonical {v : CJ} {b : Bytes} (h : canonical v = .ok b) :
    textLength v ≤ b.length ∧ b.length ≤ 4 * textLength v := by
  simp only [canonical, bind_eq_ok_iff, Except.ok.injEq] at h
  obtain ⟨t, ht, rfl⟩ := h
  rw [← length_write v t ht]
  exact ⟨length_le_length_utf8Chars t, length_utf8Chars_le t⟩

/-! ## Objects, member by member -/

/-- The number of bytes of one member: its key, a colon and its value. -/
def memberBytes (f : String × CJ) : Nat :=
  match write f.2 with
  | .ok t => (utf8Chars (memberText f t)).length
  | .error _ => 0

theorem length_utf8Chars_commaSeparated (ts : List (List Char)) :
    (utf8Chars (commaSeparated ts)).length + 1
      = (ts.map fun t => (utf8Chars t).length + 1).sum + (1 - ts.length) := by
  induction ts with
  | nil => rfl
  | cons t ts ih =>
    cases ts with
    | nil => simp [commaSeparated]
    | cons u us =>
      have hstep : commaSeparated (t :: u :: us) = t ++ ',' :: commaSeparated (u :: us) := by
        simp [commaSeparated]
      have hcomma : (String.utf8EncodeChar ',').length = 1 := rfl
      rw [hstep, utf8Chars_append, utf8Chars_cons, List.length_append, List.length_append, hcomma]
      simp only [List.map_cons, List.sum_cons, List.length_cons] at ih ⊢
      omega

/-- The bytes of an object are those of its members with a separator or brace
each. -/
theorem length_canonical_obj {fields : List (String × CJ)} {b : Bytes}
    (h : canonical (.obj fields) = .ok b) :
    b.length = (fields.map fun f => memberBytes f + 1).sum + 1 + (1 - fields.length) := by
  simp only [canonical, bind_eq_ok_iff, Except.ok.injEq] at h
  obtain ⟨t, ht, rfl⟩ := h
  obtain ⟨ts, hts, rfl⟩ := write_obj_eq_ok_iff.mp ht
  have hperm := inKeyOrder_perm fields
  generalize inKeyOrder fields = sorted at hts hperm
  have hsum : ((List.zipWith memberText sorted ts).map fun t => (utf8Chars t).length + 1).sum
      = (sorted.map fun f => memberBytes f + 1).sum
      ∧ (List.zipWith memberText sorted ts).length = sorted.length := by
    clear hperm ht
    induction hts with
    | nil => exact ⟨rfl, rfl⟩
    | @cons f t sorted ts hf _ ih =>
      have hone : memberBytes f = (utf8Chars (memberText f t)).length := by
        rw [memberBytes, hf]
      refine ⟨?_, by rw [List.zipWith_cons_cons, List.length_cons, List.length_cons, ih.2]⟩
      rw [List.zipWith_cons_cons, List.map_cons, List.sum_cons, ih.1, List.map_cons,
        List.sum_cons, hone]
  have hcomma := length_utf8Chars_commaSeparated (List.zipWith memberText sorted ts)
  have htotal : (sorted.map fun f => memberBytes f + 1).sum
      = (fields.map fun f => memberBytes f + 1).sum := (hperm.map _).sum_nat
  rw [hsum.1, hsum.2, htotal, hperm.length_eq] at hcomma
  have hopen : (String.utf8EncodeChar '\x7b').length = 1 := rfl
  have hclose : (String.utf8EncodeChar '\x7d').length = 1 := rfl
  simp only [utf8Chars_append, utf8Chars_cons, utf8Chars_nil, List.append_nil,
    List.length_append, hopen, hclose]
  omega

theorem canonical_obj_ne_nil {fields : List (String × CJ)} {b : Bytes}
    (h : canonical (.obj fields) = .ok b) : b ≠ [] := by
  intro hnil
  have hlength := length_canonical_obj h
  rw [hnil, List.length_nil] at hlength
  omega

/-! ## The parts of a status object -/

theorem length_encodeChar_le (c : Char) : (encodeChar c).length ≤ 6 := by
  have key : ∀ (p : Prop) [Decidable p] (a b : List Char), a.length ≤ 6 → b.length ≤ 6 →
      (if p then a else b).length ≤ 6 := by
    intro p _ a b ha hb
    by_cases hp : p
    · rwa [if_pos hp]
    · rwa [if_neg hp]
  unfold encodeChar
  repeat' apply key
  all_goals simp

theorem length_encodeString_le (cs : List Char) :
    cs.length ≤ (encodeString cs).length ∧ (encodeString cs).length ≤ 6 * cs.length + 2 := by
  have hlow := length_le_flatMap_encodeChar cs
  have hhigh : (cs.flatMap encodeChar).length ≤ 6 * cs.length := by
    clear hlow
    induction cs with
    | nil => rfl
    | cons c cs ih =>
      have hc := length_encodeChar_le c
      rw [List.flatMap_cons, List.length_append, List.length_cons]
      omega
  simp only [encodeString, List.cons_append, List.length_cons, List.length_append,
    List.length_nil]
  omega

theorem length_encodeInt_le {n : Int} (h : 0 ≤ n ∧ n ≤ maxSafe) : (encodeInt n).length ≤ 16 := by
  rw [encodeInt_eq, if_neg (not_lt.mpr h.1), List.nil_append,
    Nat.length_toDigits_le_iff (by omega) (by omega)]
  simp only [maxSafe] at h
  omega

/-- What a reference list takes for its identifiers. -/
theorem textLength_revokedCj_eq (refs : List RevokedCertV2) : textLength (revokedCj refs)
    = (refs.map fun r => (encodeString r.certId.toList).length + 13).sum + 1
      + (1 - refs.length) := by
  have hitems : itemsLength (refs.map fun r => .obj [("cert_id", .str r.certId)])
      = (refs.map fun r => (encodeString r.certId.toList).length + 13).sum := by
    rw [itemsLength_eq_sum, List.map_map]
    congr 1
    refine List.map_congr_left fun r _ => ?_
    have hkey : (encodeString "cert_id".toList).length = 9 := rfl
    simp only [Function.comp_apply, textLength, membersLength, hkey, List.length_cons,
      List.length_nil]
    omega
  rw [revokedCj, textLength, hitems, List.length_map]

/-- The reference list takes at least its identifiers, and at most six characters
for each of theirs. -/
theorem textLength_revokedCj (refs : List RevokedCertV2) :
    (refs.map fun r => r.certId.toList.length).sum ≤ textLength (revokedCj refs) ∧
      textLength (revokedCj refs) ≤ (refs.map fun r => 6 * r.certId.toList.length + 15).sum + 2 := by
  rw [textLength_revokedCj_eq]
  constructor
  · have hle := List.sum_le_sum (l := refs) fun r _ =>
      (length_encodeString_le r.certId.toList).1.trans (Nat.le_add_right _ 13)
    omega
  · have hle := List.sum_le_sum (l := refs) (f := fun r => (encodeString r.certId.toList).length + 13)
      (g := fun r => 6 * r.certId.toList.length + 15) fun r _ => by
        have := (length_encodeString_le r.certId.toList).2
        omega
    omega

/-! ## Which objects encode -/

/-- Characters a reference list of bounded identifiers takes. -/
theorem textLength_revokedCj_le {refs : List RevokedCertV2} (h : RefsWellFormed refs) {n : Nat}
    (hn : refs.length ≤ n) : textLength (revokedCj refs) ≤ 3087 * n + 2 := by
  have hone : ∀ x ∈ refs.map fun r => 6 * r.certId.toList.length + 15, x ≤ 3087 := by
    intro x hx
    obtain ⟨r, hr, rfl⟩ := List.mem_map.mp hx
    have hbound := h.bounded r.certId (List.mem_map.mpr ⟨r, hr, rfl⟩)
    have hchars := length_le_length_utf8Chars r.certId.toList
    rw [utf8, maxIdentifierLengthBytes] at hbound
    omega
  have hsum := List.sum_le_card_nsmul _ _ hone
  rw [List.length_map] at hsum
  change _ ≤ refs.length * 3087 at hsum
  have := (textLength_revokedCj refs).2
  have := Nat.mul_le_mul_right 3087 hn
  omega

theorem length_encodeString_utf8_le {s : String} {n : Nat} (h : (utf8 s).length ≤ n) :
    (encodeString s.toList).length ≤ 6 * n + 2 := by
  have hchars := length_le_length_utf8Chars s.toList
  have htext := (length_encodeString_le s.toList).2
  rw [utf8] at h
  omega

theorem length_id_le {id : String} (h : validV2Id id = true) :
    (encodeString id.toList).length ≤ 386 := by
  simp only [validV2Id, Bool.and_eq_true, beq_iff_eq] at h
  exact length_encodeString_utf8_le h.1.le

theorem textLength_sig {sig : HybridSignature} (h : SignatureLengths sig) :
    textLength (CJ.sig sig) = 4529 := by
  have h₁ : (encodeString "ed25519".toList).length = 9 := rfl
  have h₂ : (encodeString "ml_dsa_65".toList).length = 11 := rfl
  simp only [CJ.sig, textLength, membersLength, h₁, h₂, h.1, h.2, List.length_cons,
    List.length_nil]

/-- A well-formed list of up to 256 references has a wire encoding. -/
theorem exists_encode_list {l : RevocationListV2} (hwf : ListWellFormed l)
    (hsig : SignatureLengths l.signature) (hfew : l.revoked.length ≤ 256) :
    ∃ e, encodeRevocationListV2 l = .ok e := by
  obtain ⟨e, he⟩ := (wireValue_listCj hwf true).exists_canonical
  refine ⟨e, encodeRevocationListV2_eq_ok_iff.mpr ⟨hwf, hsig, he, ?_⟩⟩
  have h₁ := length_id_le hwf.issuer
  have h₂ := length_encodeInt_le (n := l.nextUpdate)
    ⟨hwf.nextUpdate.1, (safe_timestamp hwf.nextUpdate).2⟩
  have h₃ := textLength_revokedCj_le hwf.refs hfew
  have h₄ := length_encodeInt_le ⟨hwf.sequence_pos.le, hwf.sequence_le⟩
  have h₅ := length_encodeInt_le (n := l.updatedAt)
    ⟨hwf.updatedAt.1, (safe_timestamp hwf.updatedAt).2⟩
  have h₆ := length_encodeInt_le (n := l.version) ⟨by rw [hwf.version]; decide, (safe_version hwf.version).2⟩
  have h₇ := textLength_sig hsig
  have hkeys : (encodeString "issuer_id".toList).length = 11 ∧
      (encodeString "next_update".toList).length = 13 ∧
      (encodeString "revoked".toList).length = 9 ∧
      (encodeString "sequence".toList).length = 10 ∧
      (encodeString "updated_at".toList).length = 12 ∧
      (encodeString "version".toList).length = 9 ∧
      (encodeString "signature".toList).length = 11 := ⟨rfl, rfl, rfl, rfl, rfl, rfl, rfl⟩
  have hlen : textLength (listCj l true) ≤ 800000 := by
    simp only [listCj, listBody, ↓reduceIte, List.cons_append, List.nil_append, textLength,
      membersLength, hkeys, h₇, List.length_cons, List.length_nil]
    omega
  have := (length_canonical he).2
  simp only [maxRevocationListBytesV2]
  omega

/-- A list whose identifiers alone fill the wire limit has no encoding. -/
theorem not_encode_list_of_long {l : RevocationListV2}
    (hlong : maxRevocationListBytesV2 < (l.revoked.map fun r => r.certId.toList.length).sum)
    (e : Bytes) : encodeRevocationListV2 l ≠ .ok e := by
  intro he
  obtain ⟨-, -, hcan, hlen⟩ := encodeRevocationListV2_eq_ok_iff.mp he
  have h₁ := (textLength_revokedCj l.revoked).1
  have h₂ := (length_canonical hcan).1
  have h₃ : textLength (revokedCj l.revoked) ≤ textLength (listCj l true) := by
    simp only [listCj, listBody, ↓reduceIte, List.cons_append, List.nil_append, textLength,
      membersLength]
    omega
  omega

end RatifyProtocol.V2
