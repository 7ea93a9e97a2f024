import RatifyProtocol.V2.Delegation.BodyValues
set_option autoImplicit false

/-!
# V2: the registry reads values

A registry check looks at the members of a constraint by name, and at audience
parameters as they are decoded, so nodes that hold one body pass the same checks.
-/

namespace RatifyProtocol.V2

open Foundation

/-! ## Fields -/

theorem v2StringField_of_v {x : JNode} {s : String} (h : x.v = .str s) :
    v2StringField x = .ok s := by
  rw [v2StringField, h]

theorem v_of_v2StringField {x : JNode} {s : String} (h : v2StringField x = .ok s) :
    x.v = .str s := by
  unfold v2StringField at h
  split at h
  · rename_i s' hv
    rw [hv, Except.ok.inj h]
  · cases h

theorem v2IntegerField_congr {x y : JNode} (h : x.v = y.v) : v2IntegerField x = v2IntegerField y := by
  rw [v2IntegerField, v2IntegerField, h]

/-- An integer field of a parsed node is spelled canonically. -/
theorem v_of_v2IntegerField {levels : Nat} {x : JNode} (hx : Parsed levels x) {n : Int}
    (h : v2IntegerField x = .ok n) :
    x.v = .num (String.ofList (encodeInt n)) ∧ -maxSafe ≤ n ∧ n ≤ maxSafe := by
  cases hx with
  | int levels k i j range =>
    simp only [v2IntegerField, JNode.v, String.toList_ofList, refuseIf_bind_eq_ok_iff,
      parseI64_encodeInt range, if_pos range, Except.ok.injEq] at h
    obtain ⟨-, -, -, rfl⟩ := h
    exact ⟨rfl, range⟩
  | _ => cases h

/-! ## Audience parameters -/

/-- The shape of a parsed node and of the parameters read from it. -/
inductive ReadAs : JNode → ParamsValue → Prop
  | null (i j : Nat) : ReadAs (.mk .null i j) .null
  | bool (b : Bool) (i j : Nat) : ReadAs (.mk (.bool b) i j) (.bool b)
  | int (n : Int) (i j : Nat) (range : -maxSafe ≤ n ∧ n ≤ maxSafe) :
      ReadAs (.mk (.num (String.ofList (encodeInt n))) i j) (.int n)
  | str (s : String) (i j : Nat) : ReadAs (.mk (.str s) i j) (.str s)
  | array {levels : Nat} (xs : List JNode) (items : List ParamsValue) (i j : Nat)
      (parsed : ∀ x ∈ xs, Parsed levels x) (read : itemsToParams xs = .ok items) :
      ReadAs (.mk (.arr xs) i j) (.array items)
  | object {levels : Nat} (fields : List (String × JNode)) (map : List (String × ParamsValue))
      (i j : Nat) (names : (fields.map Prod.fst).Nodup) (parsed : ∀ f ∈ fields, Parsed levels f.2)
      (read : membersToParams [] fields = .ok map) :
      ReadAs (.mk (.obj fields) i j) (.object map)

variable {levels levels' : Nat} {x x' : JNode} {p : ParamsValue}

theorem readAs_of_nodeToParams (hx : Parsed levels x) (h : nodeToParams x = .ok p) :
    ReadAs x p := by
  cases hx with
  | null levels i j =>
    cases h
    exact .null i j
  | bool levels b i j =>
    cases h
    exact .bool b i j
  | int levels n i j range =>
    simp only [nodeToParams, parsedToParams, String.toList_ofList, parseI64_encodeInt range] at h
    cases h
    exact .int n i j range
  | str levels s i j =>
    cases h
    exact .str s i j
  | arr levels xs i j parsed =>
    simp only [nodeToParams, parsedToParams, bind_eq_ok_iff, Except.ok.injEq] at h
    obtain ⟨items, hitems, rfl⟩ := h
    exact .array xs items i j parsed hitems
  | obj levels fields i j names parsed =>
    simp only [nodeToParams, parsedToParams, bind_eq_ok_iff, Except.ok.injEq] at h
    obtain ⟨map, hmap, rfl⟩ := h
    exact .object fields map i j names parsed hmap

/-- A string of an audience array; `null` reads as the empty string. -/
def paramString : ParamsValue → Option String
  | .str s => some s
  | .null => some ""
  | _ => none

def paramStrings : ParamsValue → Option (List String)
  | .array items => items.mapM paramString
  | _ => none

theorem stringElement_of_read (hx : Parsed levels x) (h : nodeToParams x = .ok p) :
    stringElement x = paramString p := by
  cases readAs_of_nodeToParams hx h <;> rfl

theorem stringArray_of_read (hx : Parsed levels x) (h : nodeToParams x = .ok p) :
    stringArray (some x) = paramStrings p := by
  cases readAs_of_nodeToParams hx h with
  | array xs items i j parsed hitems =>
    simp only [stringArray, JNode.v, paramStrings]
    clear hx h
    induction xs generalizing items with
    | nil =>
      cases hitems
      rfl
    | cons x xs ih =>
      simp only [itemsToParams, bind_eq_ok_iff, Except.ok.injEq] at hitems
      obtain ⟨q, hq, qs, hqs, rfl⟩ := hitems
      rw [List.mapM_cons, List.mapM_cons,
        stringElement_of_read (parsed x List.mem_cons_self) hq,
        ih qs (fun y hy => parsed y (List.mem_cons_of_mem x hy)) hqs]
  | _ => rfl

/-- Nodes read as one value are the same to an integer field. -/
theorem v2IntegerField_of_read (hx : Parsed levels x) (hx' : Parsed levels' x')
    (h : nodeToParams x = .ok p) (h' : nodeToParams x' = .ok p) :
    v2IntegerField x = v2IntegerField x' := by
  cases readAs_of_nodeToParams hx h <;> cases readAs_of_nodeToParams hx' h' <;> rfl

theorem isNull_of_read (hx : Parsed levels x) (hx' : Parsed levels' x')
    (h : nodeToParams x = .ok p) (h' : nodeToParams x' = .ok p) : x.isNull = x'.isNull := by
  cases readAs_of_nodeToParams hx h <;> cases readAs_of_nodeToParams hx' h' <;> rfl

/-- Two members under one name, both absent or read as one value. -/
inductive SameRead : Option JNode → Option JNode → Prop
  | absent : SameRead none none
  | read {levels levels' : Nat} {x x' : JNode} {p : ParamsValue} (parsed : Parsed levels x)
      (parsed' : Parsed levels' x') (left : nodeToParams x = .ok p)
      (right : nodeToParams x' = .ok p) : SameRead (some x) (some x')

/-- Objects read as one map have the same members under each name. -/
theorem sameRead_of_membersToParams {fields fields' : List (String × JNode)}
    {map : List (String × ParamsValue)} (names : (fields.map Prod.fst).Nodup)
    (names' : (fields'.map Prod.fst).Nodup) (parsed : ∀ f ∈ fields, Parsed levels f.2)
    (parsed' : ∀ f ∈ fields', Parsed levels' f.2) (read : membersToParams [] fields = .ok map)
    (read' : membersToParams [] fields' = .ok map) (k : String) :
    SameRead (Obj.get fields k) (Obj.get fields' k) := by
  obtain ⟨hmembers, hothers⟩ := find_membersToParams names read
  obtain ⟨hmembers', hothers'⟩ := find_membersToParams names' read'
  have hpresent : ∀ {fields : List (String × JNode)} {y : JNode},
      (fields.map Prod.fst).Nodup → Obj.get fields k = some y → (k, y) ∈ fields :=
    fun hnodup hy => (get_eq_some_iff_mem hnodup).mp hy
  cases hx : Obj.get fields k with
  | none =>
    have hnone : OrderedMap.find k map = none := hothers k (get_eq_none_iff.mp hx)
    cases hx' : Obj.get fields' k with
    | none => exact .absent
    | some x' =>
      obtain ⟨p, -, hfound⟩ := hmembers' _ (hpresent names' hx')
      rw [hnone] at hfound
      cases hfound
  | some x =>
    obtain ⟨p, hp, hfound⟩ := hmembers _ (hpresent names hx)
    cases hx' : Obj.get fields' k with
    | none =>
      have hnone : OrderedMap.find k map = none := hothers' k (get_eq_none_iff.mp hx')
      rw [hnone] at hfound
      cases hfound
    | some x' =>
      obtain ⟨p', hp', hfound'⟩ := hmembers' _ (hpresent names' hx')
      obtain rfl := Option.some.inj (hfound.symm.trans hfound')
      exact .read (parsed _ (hpresent names hx)) (parsed' _ (hpresent names' hx')) hp hp'

theorem SameRead.stringArray_eq {a a' : Option JNode} (h : SameRead a a') :
    stringArray a = stringArray a' := by
  cases h with
  | absent => rfl
  | read parsed parsed' left right =>
    rw [stringArray_of_read parsed left, stringArray_of_read parsed' right]

/-- Audience parameters read as one map pass the same checks. -/
theorem validateV2ReceiverAudience_of_read {map : List (String × ParamsValue)}
    (hx : Parsed levels x) (hx' : Parsed levels' x') (h : nodeToParams x = .ok (.object map))
    (h' : nodeToParams x' = .ok (.object map)) (hok : validateV2ReceiverAudience x = .ok ()) :
    validateV2ReceiverAudience x' = .ok () := by
  cases readAs_of_nodeToParams hx h with
  | object fields _ i j names parsed read =>
    cases readAs_of_nodeToParams hx' h' with
    | object fields' _ i' j' names' parsed' read' =>
      have hsame := sameRead_of_membersToParams names names' parsed parsed' read read'
      have hids := (hsame "exact_receiver_ids").stringArray_eq
      have hdomains := (hsame "trust_domain_ids").stringArray_eq
      have hage := hsame "max_membership_age_seconds"
      simp only [validateV2ReceiverAudience, JNode.v] at hok ⊢
      split at hok
      · cases hok
      rename_i hknown
      have hknown' : (fields'.find? fun f => !audienceParameters.contains f.1) = none := by
        rw [List.find?_eq_none] at hknown ⊢
        intro f hf
        have hname := hsame f.1
        rw [(get_eq_some_iff_mem names').mpr hf] at hname
        generalize hget : Obj.get fields f.1 = a at hname
        cases hname with
        | read =>
          rename_i y _ _ _ _ _
          exact hknown (f.1, y) ((get_eq_some_iff_mem names).mp hget)
      rw [hknown']
      dsimp only
      rw [← hids, ← hdomains]
      generalize Obj.get fields "max_membership_age_seconds" = a at hok hage
      generalize Obj.get fields' "max_membership_age_seconds" = a' at hage ⊢
      cases hage with
      | absent => exact hok
      | read parsed parsed' left right =>
        simp only [Option.all_some, Option.isSome_some] at hok ⊢
        rw [← isNull_of_read parsed parsed' left right,
          ← v2IntegerField_of_read parsed parsed' left right]
        exact hok

/-! ## Constraints -/

variable {o o' : Obj} {c : ConstraintV2}

/-- Nodes that hold one body pass the same registry checks. -/
theorem validateMembersOf_of_holdsBody (h : HoldsBody o (constraintBody c))
    (h' : HoldsBody o' (constraintBody c)) (hok : validateMembersOf c.kind o = .ok ()) :
    validateMembersOf c.kind o' = .ok () := by
  rcases constraintBody_cases c with ⟨hk, hbody⟩ | ⟨hk, hbody⟩ | ⟨hk, hbody⟩ | ⟨hk, hpath, hbody⟩
    | ⟨hk, hpath, hbody⟩ | ⟨hk, hparams, hbody⟩ | ⟨hk, m, hparams, hbody⟩
  · obtain ⟨a, ha, hav⟩ := h.str (k := "start") (s := c.start) (by simp [hbody])
    obtain ⟨b, hb, hbv⟩ := h.str (k := "end") (s := c.end_) (by simp [hbody])
    obtain ⟨z, hz, hzv⟩ := h.str (k := "tz") (s := c.tz) (by simp [hbody])
    obtain ⟨a', ha', hav'⟩ := h'.str (k := "start") (s := c.start) (by simp [hbody])
    obtain ⟨b', hb', hbv'⟩ := h'.str (k := "end") (s := c.end_) (by simp [hbody])
    obtain ⟨z', hz', hzv'⟩ := h'.str (k := "tz") (s := c.tz) (by simp [hbody])
    simp only [validateMembersOf, hk, ↓reduceIte, validateTimeWindow, validateHhmmField,
      requiredNode, ha, hb, hz, ha', hb', hz', ok_bind, v2StringField_of_v hav,
      v2StringField_of_v hbv, v2StringField_of_v hzv, v2StringField_of_v hav',
      v2StringField_of_v hbv', v2StringField_of_v hzv', bind_eq_ok_unit_iff] at hok ⊢
    exact ⟨h.exactMembers_ok h' hok.1, hok.2⟩
  · have hne : constraintMaxAmount ≠ constraintTimeWindow := by decide
    obtain ⟨a, ha, hav⟩ := h.str (k := "currency") (s := c.currency) (by simp [hbody])
    obtain ⟨b, hb, hbv⟩ := h.int (k := "max_amount_micros") (n := c.maxAmountMicros)
      (by simp [hbody])
    obtain ⟨a', ha', hav'⟩ := h'.str (k := "currency") (s := c.currency) (by simp [hbody])
    obtain ⟨b', hb', hbv'⟩ := h'.int (k := "max_amount_micros") (n := c.maxAmountMicros)
      (by simp [hbody])
    simp only [validateMembersOf, hk, hne, ↓reduceIte, validateMaxAmount, requiredNode, ha, hb,
      ha', hb', ok_bind, v2StringField_of_v hav, v2StringField_of_v hav',
      v2IntegerField_congr (hbv.trans hbv'.symm), bind_eq_ok_unit_iff] at hok ⊢
    exact ⟨h.exactMembers_ok h' hok.1, hok.2⟩
  · have hne₁ : constraintMaxRate ≠ constraintTimeWindow := by decide
    have hne₂ : constraintMaxRate ≠ constraintMaxAmount := by decide
    obtain ⟨a, ha, hav⟩ := h.int (k := "count") (n := c.count) (by simp [hbody])
    obtain ⟨b, hb, hbv⟩ := h.int (k := "window_s") (n := c.windowS) (by simp [hbody])
    obtain ⟨a', ha', hav'⟩ := h'.int (k := "count") (n := c.count) (by simp [hbody])
    obtain ⟨b', hb', hbv'⟩ := h'.int (k := "window_s") (n := c.windowS) (by simp [hbody])
    simp only [validateMembersOf, hk, hne₁, hne₂, ↓reduceIte, validateMaxRate, requiredNode, ha, hb,
      ha', hb', ok_bind, v2IntegerField_congr (hav.trans hav'.symm),
      v2IntegerField_congr (hbv.trans hbv'.symm), bind_eq_ok_unit_iff] at hok ⊢
    exact ⟨h.exactMembers_ok h' hok.1, hok.2⟩
  · have hne₁ : constraintResourcePath ≠ constraintTimeWindow := by decide
    have hne₂ : constraintResourcePath ≠ constraintMaxAmount := by decide
    have hne₃ : constraintResourcePath ≠ constraintMaxRate := by decide
    obtain ⟨a, ha, hav⟩ := h.str (k := "resource_id") (s := c.resourceId) (by simp [hbody])
    obtain ⟨a', ha', hav'⟩ := h'.str (k := "resource_id") (s := c.resourceId) (by simp [hbody])
    have hnone : o.get "path_prefix" = none := h.absent (by simp [hbody])
    have hnone' : o'.get "path_prefix" = none := h'.absent (by simp [hbody])
    simp only [validateMembersOf, hk, hne₁, hne₂, hne₃, ↓reduceIte, validateResourcePath,
      requiredNode, ha, ha', hnone, hnone', ok_bind, v2StringField_of_v hav,
      v2StringField_of_v hav', bind_eq_ok_unit_iff] at hok ⊢
    exact ⟨h.exactMembers_ok h' hok.1, hok.2⟩
  · have hne₁ : constraintResourcePath ≠ constraintTimeWindow := by decide
    have hne₂ : constraintResourcePath ≠ constraintMaxAmount := by decide
    have hne₃ : constraintResourcePath ≠ constraintMaxRate := by decide
    obtain ⟨a, ha, hav⟩ := h.str (k := "resource_id") (s := c.resourceId) (by simp [hbody])
    obtain ⟨b, hb, hbv⟩ := h.str (k := "path_prefix") (s := c.pathPrefix) (by simp [hbody])
    obtain ⟨a', ha', hav'⟩ := h'.str (k := "resource_id") (s := c.resourceId) (by simp [hbody])
    obtain ⟨b', hb', hbv'⟩ := h'.str (k := "path_prefix") (s := c.pathPrefix) (by simp [hbody])
    simp only [validateMembersOf, hk, hne₁, hne₂, hne₃, ↓reduceIte, validateResourcePath,
      requiredNode, ha, ha', hb, hb', ok_bind, v2StringField_of_v hav, v2StringField_of_v hav',
      v2StringField_of_v hbv, v2StringField_of_v hbv', bind_eq_ok_unit_iff] at hok ⊢
    exact ⟨h.exactMembers_ok h' hok.1, hok.2⟩
  · obtain ⟨hk₁, hk₂, hk₃, hk₄⟩ := not_structured hk
    have hnone : o.get "params" = none := h.absent (by simp [hbody])
    have hnone' : o'.get "params" = none := h'.absent (by simp [hbody])
    simp only [validateMembersOf, hk₁, hk₂, hk₃, hk₄, ↓reduceIte] at hok ⊢
    split_ifs at hok ⊢ with hk₅
    · simp only [validateReceiverAudience, requiredNode, hnone, bind_eq_ok_unit_iff] at hok
      cases hok.2
    · simp only [validateUnregistered, hnone, hnone', bind_eq_ok_unit_iff] at hok ⊢
      exact ⟨hok.1, h.exactMembers_ok h' hok.2.1, trivial⟩
  · obtain ⟨hk₁, hk₂, hk₃, hk₄⟩ := not_structured hk
    have hmem : ("params", paramsMapCj m) ∈ constraintBody c := by simp [hbody]
    obtain ⟨a, ha, hav⟩ := h.member _ hmem
    obtain ⟨a', ha', hav'⟩ := h'.member _ hmem
    obtain ⟨levels, parsed, read⟩ := hav.of_params
    obtain ⟨levels', parsed', read'⟩ := hav'.of_params
    simp only [validateMembersOf, hk₁, hk₂, hk₃, hk₄, ↓reduceIte] at hok ⊢
    split_ifs at hok ⊢ with hk₅
    · simp only [validateReceiverAudience, requiredNode, ha, ha', ok_bind,
        bind_eq_ok_unit_iff] at hok ⊢
      exact ⟨h.exactMembers_ok h' hok.1,
        validateV2ReceiverAudience_of_read parsed parsed' read read' hok.2⟩
    · simp only [validateUnregistered, ha, ha', paramsObject_of_nodeToParams read,
        paramsObject_of_nodeToParams read', bind_eq_ok_unit_iff, ok_bind] at hok ⊢
      exact ⟨hok.1, h.exactMembers_ok h' hok.2.1, hok.2.2⟩

/-- A member of a body is a string or an integer, or holds the parameters. -/
theorem value_of_mem_constraintBody {e : String × CJ} (he : e ∈ constraintBody c) :
    (∃ s, e.2 = .str s) ∨ (∃ n, e.2 = .int n) ∨ e.1 = "params" ∧ ∃ m, e.2 = paramsMapCj m := by
  rcases constraintBody_cases c with ⟨-, hbody⟩ | ⟨-, hbody⟩ | ⟨-, hbody⟩ | ⟨-, -, hbody⟩
    | ⟨-, -, hbody⟩ | ⟨-, -, hbody⟩ | ⟨-, m, -, hbody⟩ <;> rw [hbody] at he <;>
    simp only [List.mem_cons, List.not_mem_nil, or_false] at he
  · obtain rfl | rfl | rfl | rfl := he <;> exact .inl ⟨_, rfl⟩
  · obtain rfl | rfl | rfl := he
    · exact .inl ⟨_, rfl⟩
    · exact .inl ⟨_, rfl⟩
    · exact .inr (.inl ⟨_, rfl⟩)
  · obtain rfl | rfl | rfl := he
    · exact .inl ⟨_, rfl⟩
    · exact .inr (.inl ⟨_, rfl⟩)
    · exact .inr (.inl ⟨_, rfl⟩)
  · obtain rfl | rfl := he <;> exact .inl ⟨_, rfl⟩
  · obtain rfl | rfl | rfl := he <;> exact .inl ⟨_, rfl⟩
  · obtain rfl := he
    exact .inl ⟨_, rfl⟩
  · obtain rfl | rfl := he
    · exact .inl ⟨_, rfl⟩
    · exact .inr (.inr ⟨rfl, m, rfl⟩)

/-- A node that holds a body has no `null` outside its parameters. -/
theorem checkV2NullMembers_of_holdsBody (h : HoldsBody o (constraintBody c)) :
    checkV2NullMembers o = .ok () := by
  have hvalue : ∀ f ∈ o, f.1 = "params" ∨ checkV2NullNode f.2 = .ok () := by
    intro f hf
    obtain ⟨e, he, hname⟩ := List.mem_map.mp (h.names f hf)
    have hv := h.value he hf hname
    obtain ⟨k, v, i, j⟩ := f
    obtain ⟨s, hs⟩ | ⟨n, hn⟩ | ⟨hparams, -⟩ := value_of_mem_constraintBody he
    · rw [hs] at hv
      obtain rfl : v = .str s := hv.of_str
      exact .inr rfl
    · rw [hn] at hv
      obtain rfl : v = .num _ := hv.of_int.1
      exact .inr rfl
    · exact .inl (hname.symm.trans hparams)
  clear h
  induction o with
  | nil => rfl
  | cons f o ih =>
    obtain ⟨k, x⟩ := f
    have hrest := ih fun g hg => hvalue g (List.mem_cons_of_mem _ hg)
    rw [checkV2NullMembers]
    split
    · exact hrest
    · rename_i hk
      rw [(hvalue (k, x) List.mem_cons_self).resolve_left hk]
      exact hrest

/-- A node that holds the body of a constraint passes the registry when another
that holds it does. -/
theorem validateV2ConstraintFields_of_holdsBody (h : HoldsBody o (constraintBody c))
    (h' : HoldsBody o' (constraintBody c)) (hkind : c.kind ≠ "")
    (hok : validateMembersOf c.kind o = .ok ()) (i j : Nat) :
    validateV2ConstraintFields (.mk (.obj o') i j) = .ok () := by
  have hnulls : checkV2NullNode (.mk (.obj o') i j) = .ok () :=
    checkV2NullMembers_of_holdsBody h'
  have hread : constraintKind o' = .ok c.kind := by
    obtain ⟨x, hx, hv⟩ := h'.str (k := "type") (s := c.kind) (by simp [constraintBody])
    simp only [constraintKind, hx, Option.map_some, hv, if_neg hkind]
  rw [validateV2ConstraintFields, hnulls, ok_bind]
  dsimp only [JNode.v]
  rw [hread, ok_bind]
  exact validateMembersOf_of_holdsBody h h' hok

end RatifyProtocol.V2
