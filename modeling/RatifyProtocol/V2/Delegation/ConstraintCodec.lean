import RatifyProtocol.V2.Delegation.Constraint
import RatifyProtocol.V2.Delegation.ParamsCodec
set_option autoImplicit false

/-!
# V2: constraints survive the wire

Registry validation reads a value and not where it stands, so a constraint that
encodes validates wherever its value is parsed, and decodes to its members of
the schema.  A decoded constraint has no other members.
-/

namespace RatifyProtocol.V2

open Foundation

/-! ## Validation ignores spans -/

theorem v2StringField_bare (n : JNode) : v2StringField n.bare = v2StringField n := by
  obtain ⟨v, i, j⟩ := n
  cases v <;> rfl

theorem v2IntegerField_bare (n : JNode) : v2IntegerField n.bare = v2IntegerField n := by
  obtain ⟨v, i, j⟩ := n
  cases v <;> rfl

theorem stringElement_bare (n : JNode) : stringElement n.bare = stringElement n := by
  obtain ⟨v, i, j⟩ := n
  cases v <;> rfl

theorem stringArray_bare (node : Option JNode) :
    stringArray (node.map JNode.bare) = stringArray node := by
  cases node with
  | none => rfl
  | some n =>
    obtain ⟨v, i, j⟩ := n
    cases v with
    | arr items =>
      have hcomp : stringElement ∘ JNode.bare = stringElement := funext stringElement_bare
      simp only [Option.map_some, stringArray, JNode.bare, JNode.v, JV.bare, bareItems_eq_map,
        List.mapM_map, hcomp]
    | null | bool | num | str | obj => rfl

mutual

theorem checkV2NullNode_bare : ∀ n : JNode, checkV2NullNode n.bare = checkV2NullNode n
  | .mk v _ _ => checkV2Nulls_bare v

theorem checkV2Nulls_bare : ∀ v : JV, checkV2Nulls v.bare = checkV2Nulls v
  | .null => rfl
  | .bool _ => rfl
  | .num _ => rfl
  | .str _ => rfl
  | .arr items => checkV2NullItems_bare items
  | .obj fields => checkV2NullMembers_bare fields

theorem checkV2NullItems_bare : ∀ items : List JNode,
    checkV2NullItems (bareItems items) = checkV2NullItems items
  | [] => rfl
  | x :: items => by
    rw [bareItems, checkV2NullItems, checkV2NullItems, checkV2NullNode_bare x,
      checkV2NullItems_bare items]

theorem checkV2NullMembers_bare : ∀ fields : List (String × JNode),
    checkV2NullMembers (bareFields fields) = checkV2NullMembers fields
  | [] => rfl
  | (k, x) :: fields => by
    rw [bareFields, checkV2NullMembers, checkV2NullMembers, checkV2NullNode_bare x,
      checkV2NullMembers_bare fields]

end

theorem exactMembers_bare (kind : String) (fields : Obj) (required optional : List String) :
    exactMembers kind (bareFields fields) required optional
      = exactMembers kind fields required optional := by
  have hunknown := find?_bareFields
    (fun name => name != "type" && !required.contains name && !optional.contains name) fields
  have hmissing : (fun name => (Obj.get (bareFields fields) name).isNone)
      = fun name => (Obj.get fields name).isNone := by
    funext name
    rw [get_bareFields, Option.isNone_map]
  simp only [exactMembers, hunknown, hmissing]
  cases fields.find? fun f =>
    f.1 != "type" && !required.contains f.1 && !optional.contains f.1 <;> rfl

/-- A required member is the bare form of the one in the source. -/
theorem requiredNode_bare {α : Type} (fields : Obj) (name : String) (f : JNode → V2Result α)
    (hf : ∀ n, f n.bare = f n) :
    (requiredNode (bareFields fields) name >>= f) = (requiredNode fields name >>= f) := by
  simp only [requiredNode, get_bareFields]
  cases Obj.get fields name with
  | none => rfl
  | some n => exact hf n

theorem validateHhmmField_bare (fields : Obj) (name : String) :
    validateHhmmField (bareFields fields) name = validateHhmmField fields name := by
  unfold validateHhmmField
  exact requiredNode_bare fields name _ fun n => by simp only [v2StringField_bare]

theorem validateTimeWindow_bare (kind : String) (fields : Obj) :
    validateTimeWindow kind (bareFields fields) = validateTimeWindow kind fields := by
  simp only [validateTimeWindow, exactMembers_bare, validateHhmmField_bare]
  rw [requiredNode_bare fields "tz" _ fun n => by simp only [v2StringField_bare]]

theorem validateMaxAmount_bare (kind : String) (fields : Obj) :
    validateMaxAmount kind (bareFields fields) = validateMaxAmount kind fields := by
  simp only [validateMaxAmount, exactMembers_bare]
  rw [requiredNode_bare fields "max_amount_micros" _ fun n => by simp only [v2IntegerField_bare],
    requiredNode_bare fields "currency" _ fun n => by simp only [v2StringField_bare]]

theorem validateMaxRate_bare (kind : String) (fields : Obj) :
    validateMaxRate kind (bareFields fields) = validateMaxRate kind fields := by
  simp only [validateMaxRate, exactMembers_bare]
  rw [requiredNode_bare fields "window_s" _ fun n => by simp only [v2IntegerField_bare],
    requiredNode_bare fields "count" _ fun n => by simp only [v2IntegerField_bare]]

theorem validateResourcePath_bare (kind : String) (fields : Obj) :
    validateResourcePath kind (bareFields fields) = validateResourcePath kind fields := by
  simp only [validateResourcePath, exactMembers_bare, get_bareFields]
  rw [requiredNode_bare fields "resource_id" _ fun n => by simp only [v2StringField_bare]]
  cases Obj.get fields "path_prefix" with
  | none => rfl
  | some raw => simp only [Option.map_some, v2StringField_bare]

theorem validateV2ReceiverAudience_bare (n : JNode) :
    validateV2ReceiverAudience n.bare = validateV2ReceiverAudience n := by
  obtain ⟨v, i, j⟩ := n
  cases v with
  | obj params =>
    simp only [validateV2ReceiverAudience, JNode.bare, JNode.v, JV.bare, get_bareFields,
      stringArray_bare, find?_bareFields fun name => !audienceParameters.contains name]
    cases params.find? fun f => !audienceParameters.contains f.1 with
    | some f => rfl
    | none =>
      cases Obj.get params "max_membership_age_seconds" with
      | none => rfl
      | some a =>
        simp only [Option.map_none, Option.map_some, Option.all_some, JNode.isNull_bare,
          v2IntegerField_bare, Option.isSome_some]
  | null | bool | num | str | arr => rfl

theorem validateReceiverAudience_bare (kind : String) (fields : Obj) :
    validateReceiverAudience kind (bareFields fields) = validateReceiverAudience kind fields := by
  simp only [validateReceiverAudience, exactMembers_bare]
  rw [requiredNode_bare fields "params" _ validateV2ReceiverAudience_bare]

theorem validateUnregistered_bare (kind : String) (fields : Obj) :
    validateUnregistered kind (bareFields fields) = validateUnregistered kind fields := by
  simp only [validateUnregistered, exactMembers_bare, get_bareFields]
  cases Obj.get fields "params" with
  | none => rfl
  | some raw => simp only [Option.map_some, paramsObject_bare]

theorem constraintKind_bare (fields : Obj) :
    constraintKind (bareFields fields) = constraintKind fields := by
  simp only [constraintKind, get_bareFields, Option.map_map]
  cases Obj.get fields "type" with
  | none => rfl
  | some n =>
    obtain ⟨v, i, j⟩ := n
    cases v <;> rfl

theorem validateMembersOf_bare (kind : String) (fields : Obj) :
    validateMembersOf kind (bareFields fields) = validateMembersOf kind fields := by
  simp only [validateMembersOf, validateTimeWindow_bare, validateMaxAmount_bare,
    validateMaxRate_bare, validateResourcePath_bare, validateReceiverAudience_bare,
    validateUnregistered_bare]

theorem validateV2ConstraintFields_bare (n : JNode) :
    validateV2ConstraintFields n.bare = validateV2ConstraintFields n := by
  simp only [validateV2ConstraintFields, checkV2NullNode_bare]
  obtain ⟨v, i, j⟩ := n
  cases v with
  | obj fields =>
    simp only [JNode.bare, JNode.v, JV.bare, constraintKind_bare, validateMembersOf_bare]
  | null | bool | num | str | arr => rfl

/-! ## Encoded constraints -/

namespace ConstraintV2

/-- The constraint with only the members of the schema of its type. -/
def schema (c : ConstraintV2) : ConstraintV2 :=
  let out := ofKind c.kind
  if c.kind = constraintTimeWindow then { out with start := c.start, end_ := c.end_, tz := c.tz }
  else if c.kind = constraintMaxAmount then
    { out with currency := c.currency, maxAmountMicros := c.maxAmountMicros }
  else if c.kind = constraintMaxRate then { out with count := c.count, windowS := c.windowS }
  else if c.kind = constraintResourcePath then
    { out with resourceId := c.resourceId, pathPrefix := c.pathPrefix }
  else { out with params := c.params }

theorem schema_kind (c : ConstraintV2) : c.schema.kind = c.kind := by
  unfold schema
  simp only
  split_ifs <;> rfl

theorem body_schema (c : ConstraintV2) : constraintBody c.schema = constraintBody c := by
  obtain ⟨kind, start, end_, tz, currency, micros, count, windowS, resourceId, path, params⟩ := c
  by_cases h₁ : kind = constraintTimeWindow
  · subst h₁
    simp only [schema, ofKind, constraintBody, ↓reduceIte]
  by_cases h₂ : kind = constraintMaxAmount
  · subst h₂
    simp only [schema, ofKind, constraintBody, h₁, ↓reduceIte]
  by_cases h₃ : kind = constraintMaxRate
  · subst h₃
    simp only [schema, ofKind, constraintBody, h₁, h₂, ↓reduceIte]
  by_cases h₄ : kind = constraintResourcePath
  · subst h₄
    simp only [schema, ofKind, constraintBody, h₁, h₂, h₃, ↓reduceIte]
  · simp only [schema, ofKind, constraintBody, h₁, h₂, h₃, h₄, ↓reduceIte]

theorem params_schema (c : ConstraintV2) :
    c.schema.params = if isRegisteredStructured c.kind then none else c.params := by
  unfold schema isRegisteredStructured
  simp only
  split_ifs with h₁ h₂ h₃ h₄ h₅ h₅ h₅ h₅ h₅ <;> simp_all [ofKind]

/-- Dropping members outside the schema leaves the encoding. -/
theorem toCj_schema {c : ConstraintV2} {v : CJ} (h : c.toCj = .ok v) : c.schema.toCj = .ok v := by
  have hparams : (c.schema.params.isSome && isRegisteredStructured c.schema.kind) = false := by
    rw [params_schema, schema_kind]
    cases isRegisteredStructured c.kind <;> simp
  unfold toCj at h ⊢
  obtain ⟨-, h⟩ := refuseIf_bind_eq_ok_iff.mp h
  rw [refuseIf_bind_eq_ok_iff, body_schema]
  exact ⟨hparams, h⟩

/-- The parameters nest at most `levels` deep. -/
def Nests (levels : Nat) (c : ConstraintV2) : Prop :=
  ∀ m, c.params = some m → (ParamsValue.object m.entries).Nests levels

variable {c : ConstraintV2} {v : CJ}

theorem toCj_eq_ok (h : c.toCj = .ok v) :
    v = .obj (constraintBody c) ∧ (c.params.isSome → isRegisteredStructured c.kind = false) ∧
      ∃ b n, canonical v = .ok b ∧ parseJson b = .ok n ∧ validateV2ConstraintFields n = .ok () := by
  unfold toCj at h
  obtain ⟨hparams, h⟩ := refuseIf_bind_eq_ok_iff.mp h
  obtain ⟨b, hb, h⟩ := bind_eq_ok_iff.mp h
  obtain ⟨n, hn, h⟩ := bind_eq_ok_iff.mp h
  obtain ⟨_, hvalid, h⟩ := bind_eq_ok_iff.mp h
  obtain rfl := Except.ok.inj h
  refine ⟨rfl, fun hsome => ?_, b, n, hb, hn, hvalid⟩
  simpa [hsome] using hparams

end ConstraintV2

/-! ### The members of a body -/

/-- The members of a constraint body by type. -/
theorem constraintBody_cases (c : ConstraintV2) :
    (c.kind = constraintTimeWindow ∧ constraintBody c =
      [("type", .str c.kind), ("start", .str c.start), ("end", .str c.end_), ("tz", .str c.tz)])
    ∨ (c.kind = constraintMaxAmount ∧ constraintBody c =
      [("type", .str c.kind), ("currency", .str c.currency),
        ("max_amount_micros", .int c.maxAmountMicros)])
    ∨ (c.kind = constraintMaxRate ∧ constraintBody c =
      [("type", .str c.kind), ("count", .int c.count), ("window_s", .int c.windowS)])
    ∨ (c.kind = constraintResourcePath ∧ c.pathPrefix = "" ∧ constraintBody c =
      [("type", .str c.kind), ("resource_id", .str c.resourceId)])
    ∨ (c.kind = constraintResourcePath ∧ c.pathPrefix ≠ "" ∧ constraintBody c =
      [("type", .str c.kind), ("resource_id", .str c.resourceId),
        ("path_prefix", .str c.pathPrefix)])
    ∨ (isRegisteredStructured c.kind = false ∧ c.params = none ∧ constraintBody c =
      [("type", .str c.kind)])
    ∨ (isRegisteredStructured c.kind = false ∧ ∃ m, c.params = some m ∧ constraintBody c =
      [("type", .str c.kind), ("params", paramsMapCj m)]) := by
  unfold constraintBody
  by_cases h₁ : c.kind = constraintTimeWindow
  · rw [if_pos h₁]
    exact .inl ⟨h₁, rfl⟩
  by_cases h₂ : c.kind = constraintMaxAmount
  · rw [if_neg h₁, if_pos h₂]
    exact .inr (.inl ⟨h₂, rfl⟩)
  by_cases h₃ : c.kind = constraintMaxRate
  · rw [if_neg h₁, if_neg h₂, if_pos h₃]
    exact .inr (.inr (.inl ⟨h₃, rfl⟩))
  by_cases h₄ : c.kind = constraintResourcePath
  · rw [if_neg h₁, if_neg h₂, if_neg h₃, if_pos h₄]
    by_cases hpath : c.pathPrefix = ""
    · rw [if_pos hpath]
      exact .inr (.inr (.inr (.inl ⟨h₄, hpath, rfl⟩)))
    · rw [if_neg hpath]
      exact .inr (.inr (.inr (.inr (.inl ⟨h₄, hpath, rfl⟩))))
  · have hkind : isRegisteredStructured c.kind = false := by
      simp [isRegisteredStructured, h₁, h₂, h₃, h₄]
    rw [if_neg h₁, if_neg h₂, if_neg h₃, if_neg h₄]
    cases hparams : c.params with
    | none => exact .inr (.inr (.inr (.inr (.inr (.inl ⟨hkind, rfl, rfl⟩)))))
    | some m => exact .inr (.inr (.inr (.inr (.inr (.inr ⟨hkind, m, rfl, rfl⟩)))))

/-- A body whose parameters nest within the limit is a wire body. -/
theorem wireBody_constraint {levels : Nat} {c : ConstraintV2} {v : CJ} (h : c.toCj = .ok v)
    (hnests : c.Nests levels) : WireBody (levels + 1) v := by
  obtain ⟨rfl, -, b, n, hb, -, -⟩ := ConstraintV2.toCj_eq_ok h
  have hwrite := exists_write_of_obj (exists_write_of_canonical hb)
  have hplain : ∀ fields : List (String × CJ), constraintBody c = fields →
      (fields.map Prod.fst).Nodup → (∀ f ∈ fields, f.1 ∉ wireByteFields) →
      (∀ f ∈ fields, f.1 ≠ "params" → (∃ s, f.2 = .str s) ∨ ∃ n, f.2 = .int n) →
      (∀ f ∈ fields, f.1 = "params" → ∃ m, c.params = some m ∧ f.2 = paramsMapCj m) →
      WireBody (levels + 1) (.obj fields) := by
    rintro fields rfl hkeys hnames hvalues hparams
    refine .obj levels _ hkeys (fun f hf hname => absurd hname (hnames f hf)) ?_ ?_ ?_
    · intro f hf hname
      obtain ⟨m, hm, hv⟩ := hparams f hf hname
      refine ⟨?_, hwrite f hf⟩
      rw [hv]
      exact (hnests m hm).fits m.ordered
    · intro f hf hname hnull
      rcases hvalues f hf hname with ⟨s, hs⟩ | ⟨n, hn⟩
      · rw [hs] at hnull
        cases hnull
      · rw [hn] at hnull
        cases hnull
    · intro f hf hname _
      rcases hvalues f hf hname with ⟨s, hs⟩ | ⟨n, hn⟩
      · rw [hs]
        exact .str _ _
      · rw [hn]
        exact .int _ _ (safe_of_write (hn ▸ hwrite f hf))
  rcases constraintBody_cases c with ⟨-, hbody⟩ | ⟨-, hbody⟩ | ⟨-, hbody⟩ | ⟨-, -, hbody⟩
    | ⟨-, -, hbody⟩ | ⟨-, -, hbody⟩ | ⟨-, m, hm, hbody⟩ <;> rw [hbody] <;>
    refine hplain _ hbody (by simp) (by simp [wireByteFields]) ?_ ?_
  all_goals simp
  exact ⟨m, hm, rfl⟩

/-! ## Decoding -/

/-- An encoded constraint validates wherever its value is parsed. -/
theorem validate_of_denotes {c : ConstraintV2} {v : CJ} (h : c.toCj = .ok v)
    (hfits : Fits maxJsonNestingDepth v) {n : JNode} (hn : Denotes v n) :
    validateV2ConstraintFields n = .ok () := by
  obtain ⟨rfl, -, b, root, hb, hroot, hvalid⟩ := ConstraintV2.toCj_eq_ok h
  obtain ⟨root', hroot', hd⟩ := parseJson_canonical hfits hb
  obtain rfl : root = root' := Except.ok.inj (hroot.symm.trans hroot')
  rw [← validateV2ConstraintFields_bare, bare_of_denotes hfits hn hd,
    validateV2ConstraintFields_bare]
  exact hvalid

theorem nodup_constraintBody (c : ConstraintV2) : ((constraintBody c).map Prod.fst).Nodup := by
  rcases constraintBody_cases c with ⟨-, hbody⟩ | ⟨-, hbody⟩ | ⟨-, hbody⟩ | ⟨-, -, hbody⟩
    | ⟨-, -, hbody⟩ | ⟨-, -, hbody⟩ | ⟨-, m, -, hbody⟩ <;> simp [hbody]

theorem not_structured {kind : String} (h : isRegisteredStructured kind = false) :
    kind ≠ constraintTimeWindow ∧ kind ≠ constraintMaxAmount ∧ kind ≠ constraintMaxRate
      ∧ kind ≠ constraintResourcePath := by
  simpa [isRegisteredStructured, and_assoc] using h

/-- A constraint's value decodes to its members of the schema. -/
theorem fromNode_of_denotes {c : ConstraintV2} {v : CJ} (h : c.toCj = .ok v)
    (hfits : Fits maxJsonNestingDepth v) {n : JNode} (hn : Denotes v n) :
    ConstraintV2.fromNode n = .ok c.schema := by
  have hvalid := validate_of_denotes h hfits hn
  obtain ⟨rfl, -, b, root, hb, -, -⟩ := ConstraintV2.toCj_eq_ok h
  have hwrite := exists_write_of_obj (exists_write_of_canonical hb)
  obtain ⟨o, ho, hview⟩ := objView_of_denotes hn (nodup_constraintBody c)
  have hkind : o.str "type" = .ok c.kind := hview.str_ok (by simp [constraintBody])
  unfold ConstraintV2.fromNode
  rw [hvalid, ok_bind, ho, ok_bind, hkind, ok_bind]
  have hint : ∀ {k : String} {i : Int}, (k, .int i) ∈ constraintBody c → o.i64 k = .ok i :=
    fun hmem => hview.i64_ok hmem (safe_of_write (hwrite _ hmem))
  rcases constraintBody_cases c with ⟨hk, hbody⟩ | ⟨hk, hbody⟩ | ⟨hk, hbody⟩ | ⟨hk, hpath, hbody⟩
    | ⟨hk, hpath, hbody⟩ | ⟨hk, hparams, hbody⟩ | ⟨hk, m, hparams, hbody⟩
  · have hstart : o.str "start" = .ok c.start := hview.str_ok (by simp [hbody])
    have hend : o.str "end" = .ok c.end_ := hview.str_ok (by simp [hbody])
    have htz : o.str "tz" = .ok c.tz := hview.str_ok (by simp [hbody])
    simp only [hk, ↓reduceIte, hstart, hend, htz, ok_bind, ConstraintV2.schema]
  · have hne : constraintMaxAmount ≠ constraintTimeWindow := by decide
    have hcurrency : o.str "currency" = .ok c.currency := hview.str_ok (by simp [hbody])
    have hmicros : o.i64 "max_amount_micros" = .ok c.maxAmountMicros := hint (by simp [hbody])
    simp only [hk, hne, ↓reduceIte, hcurrency, hmicros, ok_bind, ConstraintV2.schema]
  · have hne₁ : constraintMaxRate ≠ constraintTimeWindow := by decide
    have hne₂ : constraintMaxRate ≠ constraintMaxAmount := by decide
    have hcount : o.i64 "count" = .ok c.count := hint (by simp [hbody])
    have hwindow : o.i64 "window_s" = .ok c.windowS := hint (by simp [hbody])
    simp only [hk, hne₁, hne₂, ↓reduceIte, hcount, hwindow, ok_bind, ConstraintV2.schema]
  · have hne₁ : constraintResourcePath ≠ constraintTimeWindow := by decide
    have hne₂ : constraintResourcePath ≠ constraintMaxAmount := by decide
    have hne₃ : constraintResourcePath ≠ constraintMaxRate := by decide
    have hid : o.str "resource_id" = .ok c.resourceId := hview.str_ok (by simp [hbody])
    have hprefix : o.str "path_prefix" = .ok c.pathPrefix :=
      hview.str_optional (fun hne => absurd hpath hne) (fun _ => by simp [hbody])
    simp only [hk, hne₁, hne₂, hne₃, ↓reduceIte, hid, hprefix, ok_bind, ConstraintV2.schema]
  · have hne₁ : constraintResourcePath ≠ constraintTimeWindow := by decide
    have hne₂ : constraintResourcePath ≠ constraintMaxAmount := by decide
    have hne₃ : constraintResourcePath ≠ constraintMaxRate := by decide
    have hid : o.str "resource_id" = .ok c.resourceId := hview.str_ok (by simp [hbody])
    have hprefix : o.str "path_prefix" = .ok c.pathPrefix := hview.str_ok (by simp [hbody])
    simp only [hk, hne₁, hne₂, hne₃, ↓reduceIte, hid, hprefix, ok_bind, ConstraintV2.schema]
  · obtain ⟨h₁, h₂, h₃, h₄⟩ := not_structured hk
    have habsent : o.get "params" = none := hview.get_absent (by simp [hbody])
    simp only [h₁, h₂, h₃, h₄, ↓reduceIte, habsent, ConstraintV2.schema, hparams]
    rfl
  · obtain ⟨h₁, h₂, h₃, h₄⟩ := not_structured hk
    have hmem : ("params", paramsMapCj m) ∈ constraintBody c := by simp [hbody]
    obtain ⟨raw, hraw, hd⟩ := hview.get _ _ hmem
    have hread : paramsObject raw = .ok (some m) :=
      paramsObject_of_nodeToParams (nodeToParams_of_denotes m.ordered (hwrite _ hmem) hd)
    simp only [h₁, h₂, h₃, h₄, ↓reduceIte, hraw, hread, ok_bind, ConstraintV2.schema, hparams]

/-- A decoded constraint holds only members of the schema of its type. -/
theorem schema_of_fromNode {n : JNode} {c : ConstraintV2} (h : ConstraintV2.fromNode n = .ok c) :
    c.schema = c := by
  unfold ConstraintV2.fromNode at h
  obtain ⟨_, -, h⟩ := bind_eq_ok_iff.mp h
  obtain ⟨o, -, h⟩ := bind_eq_ok_iff.mp h
  obtain ⟨kind, -, h⟩ := bind_eq_ok_iff.mp h
  simp only at h
  split_ifs at h with h₁ h₂ h₃ h₄
  · simp only [bind_eq_ok_iff, Except.ok.injEq] at h
    obtain ⟨start, -, end_, -, tz, -, rfl⟩ := h
    simp only [ConstraintV2.schema, ConstraintV2.ofKind, h₁, ↓reduceIte]
  · simp only [bind_eq_ok_iff, Except.ok.injEq] at h
    obtain ⟨currency, -, micros, -, rfl⟩ := h
    subst h₂
    simp only [ConstraintV2.schema, ConstraintV2.ofKind, h₁, ↓reduceIte]
  · simp only [bind_eq_ok_iff, Except.ok.injEq] at h
    obtain ⟨count, -, window, -, rfl⟩ := h
    subst h₃
    simp only [ConstraintV2.schema, ConstraintV2.ofKind, h₁, h₂, ↓reduceIte]
  · simp only [bind_eq_ok_iff, Except.ok.injEq] at h
    obtain ⟨id, -, path, -, rfl⟩ := h
    subst h₄
    simp only [ConstraintV2.schema, ConstraintV2.ofKind, h₁, h₂, h₃, ↓reduceIte]
  · split at h
    · simp only [bind_eq_ok_iff, Except.ok.injEq] at h
      obtain ⟨params, -, rfl⟩ := h
      simp only [ConstraintV2.schema, ConstraintV2.ofKind, h₁, h₂, h₃, h₄, ↓reduceIte]
    · obtain rfl := Except.ok.inj h
      simp only [ConstraintV2.schema, ConstraintV2.ofKind, h₁, h₂, h₃, h₄, ↓reduceIte]

theorem mem_of_present {o : Obj} {k : String} {n : JNode} (h : o.present k = some n) :
    ∃ f ∈ o, f.2 = n :=
  mem_of_get (Option.filter_eq_some_iff.mp h).1

/-- The members of a parsed object nest one level less. -/
theorem parsed_members {levels : Nat} {n : JNode} (h : Parsed (levels + 1) n) {o : Obj}
    (ho : obj n = .ok o) : ∀ f ∈ o, Parsed levels f.2 := by
  cases h with
  | obj _ fields i j _ hvalues =>
    cases ho
    exact hvalues
  | _ => cases ho

/-- The elements of a parsed array nest one level less. -/
theorem parsed_items {levels : Nat} {n : JNode} (h : Parsed (levels + 1) n) {xs : List JNode}
    (hv : n.v = .arr xs) : ∀ x ∈ xs, Parsed levels x := by
  cases h with
  | arr _ ys i j hitems =>
    cases hv
    exact hitems
  | _ => cases hv

/-- The parameters of a decoded constraint nest below the constraint. -/
theorem nests_of_fromNode {levels : Nat} {n : JNode} (hn : Parsed (levels + 1) n)
    {c : ConstraintV2} (h : ConstraintV2.fromNode n = .ok c) : c.Nests levels := by
  intro m hm
  unfold ConstraintV2.fromNode at h
  obtain ⟨_, -, h⟩ := bind_eq_ok_iff.mp h
  obtain ⟨o, ho, h⟩ := bind_eq_ok_iff.mp h
  obtain ⟨kind, -, h⟩ := bind_eq_ok_iff.mp h
  simp only at h
  split_ifs at h with h₁ h₂ h₃ h₄
  · simp only [bind_eq_ok_iff, Except.ok.injEq] at h
    obtain ⟨start, -, end_, -, tz, -, rfl⟩ := h
    cases hm
  · simp only [bind_eq_ok_iff, Except.ok.injEq] at h
    obtain ⟨currency, -, micros, -, rfl⟩ := h
    cases hm
  · simp only [bind_eq_ok_iff, Except.ok.injEq] at h
    obtain ⟨count, -, window, -, rfl⟩ := h
    cases hm
  · simp only [bind_eq_ok_iff, Except.ok.injEq] at h
    obtain ⟨id, -, path, -, rfl⟩ := h
    cases hm
  · split at h
    · rename_i raw hraw
      simp only [bind_eq_ok_iff, Except.ok.injEq] at h
      obtain ⟨params, hparams, rfl⟩ := h
      obtain ⟨f, hf, rfl⟩ := mem_of_get hraw
      obtain rfl : params = some m := hm
      exact nests_of_nodeToParams (parsed_members hn ho f hf) (nodeToParams_of_paramsObject hparams)
    · obtain rfl := Except.ok.inj h
      cases hm

end RatifyProtocol.V2
