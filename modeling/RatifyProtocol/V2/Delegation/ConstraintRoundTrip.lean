import RatifyProtocol.V2.Delegation.Local
import RatifyProtocol.V2.Delegation.RegistryChecks
import RatifyProtocol.V2.TimeWindow
set_option autoImplicit false

/-!
# V2: what is signed is what is evaluated

A constraint is signed as its canonical bytes and evaluated as the value decoded
from a node.  Decoding keeps every member of the node and encoding writes every
member of the value, so the two never tell a different constraint.
-/

namespace RatifyProtocol.V2

open Foundation

/-! ## A decoded constraint holds its node -/

theorem bodyValue_str {x : JNode} {s : String} (h : x.v = .str s) : BodyValue (.str s) x := by
  obtain ⟨v, i, j⟩ := x
  obtain rfl : v = .str s := h
  exact .str s i j

theorem bodyValue_int {levels : Nat} {x : JNode} (hx : Parsed levels x) {n : Int}
    (h : v2IntegerField x = .ok n) : BodyValue (.int n) x := by
  obtain ⟨hv, range⟩ := v_of_v2IntegerField hx h
  obtain ⟨v, i, j⟩ := x
  obtain rfl : v = .num _ := hv
  exact .int n i j range

theorem constraintKind_eq_ok {o : Obj} {kind : String} (h : constraintKind o = .ok kind) :
    kind ≠ "" ∧ ∃ x, o.get "type" = some x ∧ x.v = .str kind := by
  unfold constraintKind at h
  split at h
  · rename_i s hs
    obtain ⟨x, hx, hv⟩ := Option.map_eq_some_iff.mp hs
    split at h
    · cases h
    · rename_i hne
      obtain rfl := Except.ok.inj h
      exact ⟨hne, x, hx, hv⟩
  · cases h

theorem get_of_requiredNode {o : Obj} {k : String} {x : JNode} (h : requiredNode o k = .ok x) :
    o.get k = some x := by
  unfold requiredNode at h
  split at h
  · rename_i y hy
    rw [hy, Except.ok.inj h]
  · cases h

theorem exists_of_reads {α : Type} {r : V2Result α} {good : α → Bool} (h : reads r good = true) :
    ∃ a, r = .ok a ∧ good a = true := by
  cases r with
  | error e => cases h
  | ok a => exact ⟨a, rfl, h⟩

theorem names_of_exactMembers {kind : String} {o : Obj} {required optional : List String}
    (h : exactMembers kind o required optional = .ok ()) :
    ∀ f ∈ o, f.1 = "type" ∨ f.1 ∈ required ∨ f.1 ∈ optional := by
  unfold exactMembers at h
  split at h
  · cases h
  rename_i hallowed
  intro f hf
  have hname := List.find?_eq_none.mp hallowed f hf
  simp only [Bool.and_eq_true, bne_iff_ne, Bool.not_eq_true', ne_eq, not_and,
    Bool.not_eq_false] at hname
  by_cases htype : f.1 = "type"
  · exact .inl htype
  by_cases hrequired : f.1 ∈ required
  · exact .inr (.inl hrequired)
  · have hnot : required.contains f.1 = false := by simpa using hrequired
    exact .inr (.inr (by simpa using hname ⟨htype, hnot⟩))

theorem exists_of_validateHhmmField {o : Obj} {k : String} (h : validateHhmmField o k = .ok ()) :
    ∃ x s, o.get k = some x ∧ x.v = .str s := by
  unfold validateHhmmField at h
  obtain ⟨x, hx, h⟩ := bind_eq_ok_iff.mp h
  dsimp only at h
  split at h
  · rename_i s hs
    exact ⟨x, s, get_of_requiredNode hx, v_of_v2StringField hs⟩
  · cases h

/-- An object is read as a map. -/
theorem exists_of_paramsObject_obj {fields : Obj} {i j : Nat} {params : Option ParamsMap}
    (h : paramsObject (.mk (.obj fields) i j) = .ok params) : ∃ m, params = some m := by
  cases hread : nodeToParams (.mk (.obj fields) i j) with
  | error e =>
    rw [paramsObject_of_error hread] at h
    cases h
  | ok p =>
    have hmap := hread
    simp only [nodeToParams, parsedToParams, bind_eq_ok_iff, Except.ok.injEq] at hmap
    obtain ⟨map, -, rfl⟩ := hmap
    rw [paramsObject_of_nodeToParams (m := ⟨map, ordered_of_nodeToParams _ _ hread⟩) hread] at h
    exact ⟨_, (Except.ok.inj h).symm⟩

/-- A string member that passes its check. -/
theorem exists_of_string {n : JNode} {good : String → Bool}
    (h : (!reads (v2StringField n) good) = false) : ∃ s, n.v = .str s ∧ good s = true := by
  obtain ⟨s, hs, hgood⟩ := exists_of_reads (Bool.not_eq_eq_eq_not.mp h)
  exact ⟨s, v_of_v2StringField hs, hgood⟩

/-- An integer member that passes its check. -/
theorem exists_of_integer {n : JNode} {good : Int → Bool}
    (h : (!reads (v2IntegerField n) good) = false) : ∃ i, v2IntegerField n = .ok i := by
  obtain ⟨i, hi, -⟩ := exists_of_reads (Bool.not_eq_eq_eq_not.mp h)
  exact ⟨i, hi⟩

section Registry

variable {levels : Nat} {o : Obj} {kind : String} (nodup : (o.map Prod.fst).Nodup)
  (parsed : ∀ f ∈ o, Parsed levels f.2) {t : JNode} (ht : o.get "type" = some t)
  (htype : t.v = .str kind)

include nodup ht htype

theorem holdsBody_timeWindow (h : validateTimeWindow kind o = .ok ()) :
    ∃ start end_ tz, o.str "start" = .ok start ∧ o.str "end" = .ok end_ ∧ o.str "tz" = .ok tz ∧
      HoldsBody o [("type", .str kind), ("start", .str start), ("end", .str end_),
        ("tz", .str tz)] := by
  simp only [validateTimeWindow, bind_eq_ok_iff, refuseIf_eq_ok_iff] at h
  obtain ⟨_, hnames, _, hstart, _, hend, n, hn, htz⟩ := h
  obtain ⟨a, start, ha, hav⟩ := exists_of_validateHhmmField hstart
  obtain ⟨b, end_, hb, hbv⟩ := exists_of_validateHhmmField hend
  obtain ⟨tz, hnv, -⟩ := exists_of_string htz
  have hn := get_of_requiredNode hn
  refine ⟨start, end_, tz, str_of_get ha hav, str_of_get hb hbv, str_of_get hn hnv, nodup,
    fun f hf => ?_, fun e he => ?_⟩
  · have hname := names_of_exactMembers hnames f hf
    simpa using hname
  · simp only [List.mem_cons, List.not_mem_nil, or_false] at he
    obtain rfl | rfl | rfl | rfl := he
    · exact ⟨t, ht, bodyValue_str htype⟩
    · exact ⟨a, ha, bodyValue_str hav⟩
    · exact ⟨b, hb, bodyValue_str hbv⟩
    · exact ⟨n, hn, bodyValue_str hnv⟩

theorem holdsBody_resourcePath (h : validateResourcePath kind o = .ok ()) :
    ∃ resourceId pathPrefix, o.str "resource_id" = .ok resourceId ∧
      o.str "path_prefix" = .ok pathPrefix ∧
      HoldsBody o (("type", .str kind) :: ("resource_id", .str resourceId) ::
        if pathPrefix = "" then [] else [("path_prefix", .str pathPrefix)]) := by
  simp only [validateResourcePath, bind_eq_ok_iff, refuseIf_eq_ok_iff] at h
  obtain ⟨_, hnames, n, hn, _, hid, hpath⟩ := h
  obtain ⟨resourceId, hnv, -⟩ := exists_of_string hid
  have hn := get_of_requiredNode hn
  cases hget : o.get "path_prefix" with
  | none =>
    refine ⟨resourceId, "", str_of_get hn hnv, str_of_absent hget, nodup, fun f hf => ?_,
      fun e he => ?_⟩
    · have hname := names_of_exactMembers hnames f hf
      have hne : f.1 ≠ "path_prefix" := by
        intro heq
        rw [get_eq_none_iff] at hget
        exact hget (heq ▸ List.mem_map_of_mem (f := Prod.fst) hf)
      simpa [hne] using hname
    · simp only [↓reduceIte, List.mem_cons, List.not_mem_nil, or_false] at he
      obtain rfl | rfl := he
      · exact ⟨t, ht, bodyValue_str htype⟩
      · exact ⟨n, hn, bodyValue_str hnv⟩
  | some raw =>
    rw [hget] at hpath
    obtain ⟨pathPrefix, hraw, hne⟩ := exists_of_string (refuseIf_eq_ok_iff.mp hpath)
    rw [bne_iff_ne] at hne
    refine ⟨resourceId, pathPrefix, str_of_get hn hnv, str_of_get hget hraw, nodup, fun f hf => ?_,
      fun e he => ?_⟩
    · have hname := names_of_exactMembers hnames f hf
      simpa [hne] using hname
    · simp only [if_neg hne, List.mem_cons, List.not_mem_nil, or_false] at he
      obtain rfl | rfl | rfl := he
      · exact ⟨t, ht, bodyValue_str htype⟩
      · exact ⟨n, hn, bodyValue_str hnv⟩
      · exact ⟨raw, hget, bodyValue_str hraw⟩

include parsed

theorem holdsBody_maxAmount (h : validateMaxAmount kind o = .ok ()) :
    ∃ currency micros, o.str "currency" = .ok currency ∧ o.i64 "max_amount_micros" = .ok micros ∧
      HoldsBody o [("type", .str kind), ("currency", .str currency),
        ("max_amount_micros", .int micros)] := by
  simp only [validateMaxAmount, bind_eq_ok_iff, refuseIf_eq_ok_iff] at h
  obtain ⟨_, hnames, n, hn, _, hcurrency, k, hk, hmicros⟩ := h
  obtain ⟨currency, hnv, -⟩ := exists_of_string hcurrency
  obtain ⟨micros, hki⟩ := exists_of_integer hmicros
  have hn := get_of_requiredNode hn
  have hk := get_of_requiredNode hk
  have hkp := parsed _ ((get_eq_some_iff_mem nodup).mp hk)
  obtain ⟨hkv, range⟩ := v_of_v2IntegerField hkp hki
  refine ⟨currency, micros, str_of_get hn hnv, i64_of_get hk hkv range, nodup, fun f hf => ?_,
    fun e he => ?_⟩
  · have hname := names_of_exactMembers hnames f hf
    simpa using hname
  · simp only [List.mem_cons, List.not_mem_nil, or_false] at he
    obtain rfl | rfl | rfl := he
    · exact ⟨t, ht, bodyValue_str htype⟩
    · exact ⟨n, hn, bodyValue_str hnv⟩
    · exact ⟨k, hk, bodyValue_int hkp hki⟩

theorem holdsBody_maxRate (h : validateMaxRate kind o = .ok ()) :
    ∃ count window, o.i64 "count" = .ok count ∧ o.i64 "window_s" = .ok window ∧
      HoldsBody o [("type", .str kind), ("count", .int count), ("window_s", .int window)] := by
  simp only [validateMaxRate, bind_eq_ok_iff, refuseIf_eq_ok_iff] at h
  obtain ⟨_, hnames, n, hn, _, hcount, k, hk, hwindow⟩ := h
  obtain ⟨count, hni⟩ := exists_of_integer hcount
  obtain ⟨window, hki⟩ := exists_of_integer hwindow
  have hn := get_of_requiredNode hn
  have hk := get_of_requiredNode hk
  have hnp := parsed _ ((get_eq_some_iff_mem nodup).mp hn)
  have hkp := parsed _ ((get_eq_some_iff_mem nodup).mp hk)
  obtain ⟨hnv, nrange⟩ := v_of_v2IntegerField hnp hni
  obtain ⟨hkv, krange⟩ := v_of_v2IntegerField hkp hki
  refine ⟨count, window, i64_of_get hn hnv nrange, i64_of_get hk hkv krange, nodup, fun f hf => ?_,
    fun e he => ?_⟩
  · have hname := names_of_exactMembers hnames f hf
    simpa using hname
  · simp only [List.mem_cons, List.not_mem_nil, or_false] at he
    obtain rfl | rfl | rfl := he
    · exact ⟨t, ht, bodyValue_str htype⟩
    · exact ⟨n, hn, bodyValue_int hnp hni⟩
    · exact ⟨k, hk, bodyValue_int hkp hki⟩

omit parsed in
/-- A type without members of its own, when it has no parameters. -/
theorem holdsBody_bare {required optional : List String}
    (hnames : exactMembers kind o required optional = .ok ())
    (hparams : ∀ name ∈ required ++ optional, name = "params") (hget : o.get "params" = none) :
    HoldsBody o [("type", .str kind)] := by
  refine ⟨nodup, fun f hf => ?_, fun e he => ?_⟩
  · have hne : f.1 ≠ "params" := by
      intro heq
      rw [get_eq_none_iff] at hget
      exact hget (heq ▸ List.mem_map_of_mem (f := Prod.fst) hf)
    obtain hname | hname := names_of_exactMembers hnames f hf
    · simp [hname]
    · exact absurd (hparams f.1 (List.mem_append.mpr hname)) hne
  · obtain rfl := List.mem_singleton.mp he
    exact ⟨t, ht, bodyValue_str htype⟩

/-- A type without members of its own, with its parameters. -/
theorem holdsBody_params {required optional : List String} {raw : JNode} {m : ParamsMap}
    (hnames : exactMembers kind o required optional = .ok ())
    (hparams : ∀ name ∈ required ++ optional, name = "params") (hget : o.get "params" = some raw)
    (hread : paramsObject raw = .ok (some m)) :
    HoldsBody o [("type", .str kind), ("params", paramsMapCj m)] := by
  refine ⟨nodup, fun f hf => ?_, fun e he => ?_⟩
  · obtain hname | hname := names_of_exactMembers hnames f hf
    · simp [hname]
    · simp [hparams f.1 (List.mem_append.mpr hname)]
  · simp only [List.mem_cons, List.not_mem_nil, or_false] at he
    obtain rfl | rfl := he
    · exact ⟨t, ht, bodyValue_str htype⟩
    · exact ⟨raw, hget, .params rfl (parsed _ ((get_eq_some_iff_mem nodup).mp hget))
        (nodeToParams_of_paramsObject hread)⟩

end Registry

variable {levels : Nat} {n : JNode} {c : ConstraintV2}

/-- A decoded constraint passed the registry, and its node holds its body. -/
theorem holdsBody_of_fromNode (hn : Parsed levels n) (h : ConstraintV2.fromNode n = .ok c) :
    ∃ o i j, n = .mk (.obj o) i j ∧ HoldsBody o (constraintBody c) ∧ c.kind ≠ "" ∧
      validateMembersOf c.kind o = .ok () := by
  unfold ConstraintV2.fromNode validateV2ConstraintFields at h
  obtain ⟨_, hvalid, h⟩ := bind_eq_ok_iff.mp h
  obtain ⟨_, -, hvalid⟩ := bind_eq_ok_iff.mp hvalid
  obtain ⟨o, ho, h⟩ := bind_eq_ok_iff.mp h
  cases hn with
  | obj levels o' i j names parsed =>
    obtain rfl : o' = o := Except.ok.inj ho
    obtain ⟨kind, hkind, hmembers⟩ := bind_eq_ok_iff.mp hvalid
    obtain ⟨hne, t, ht, htype⟩ := constraintKind_eq_ok hkind
    rw [str_of_get ht htype, ok_bind] at h
    simp only at h
    have hkeep := hmembers
    unfold validateMembersOf at hmembers
    split_ifs at h hmembers with h₁ h₂ h₃ h₄ h₅
    · obtain ⟨start, end_, tz, hstart, hend, htz, hbody⟩ :=
        holdsBody_timeWindow names ht htype hmembers
      simp only [hstart, hend, htz, ok_bind, Except.ok.injEq] at h
      obtain rfl := h
      refine ⟨o', i, j, rfl, ?_, hne, hkeep⟩
      simpa only [constraintBody, ConstraintV2.ofKind, h₁, ↓reduceIte] using hbody
    · obtain ⟨currency, micros, hcurrency, hmicros, hbody⟩ :=
        holdsBody_maxAmount names parsed ht htype hmembers
      simp only [hcurrency, hmicros, ok_bind, Except.ok.injEq] at h
      obtain rfl := h
      refine ⟨o', i, j, rfl, ?_, hne, hkeep⟩
      subst h₂
      simpa only [constraintBody, ConstraintV2.ofKind, h₁, ↓reduceIte] using hbody
    · obtain ⟨count, window, hcount, hwindow, hbody⟩ :=
        holdsBody_maxRate names parsed ht htype hmembers
      simp only [hcount, hwindow, ok_bind, Except.ok.injEq] at h
      obtain rfl := h
      refine ⟨o', i, j, rfl, ?_, hne, hkeep⟩
      subst h₃
      simpa only [constraintBody, ConstraintV2.ofKind, h₁, h₂, ↓reduceIte] using hbody
    · obtain ⟨resourceId, pathPrefix, hid, hpath, hbody⟩ :=
        holdsBody_resourcePath names ht htype hmembers
      simp only [hid, hpath, ok_bind, Except.ok.injEq] at h
      obtain rfl := h
      refine ⟨o', i, j, rfl, ?_, hne, hkeep⟩
      subst h₄
      simpa only [constraintBody, ConstraintV2.ofKind, h₁, h₂, h₃, ↓reduceIte] using hbody
    · simp only [validateReceiverAudience, bind_eq_ok_iff] at hmembers
      obtain ⟨_, hnames, raw, hraw, hok⟩ := hmembers
      have hget := get_of_requiredNode hraw
      simp only [hget, bind_eq_ok_iff, Except.ok.injEq] at h
      obtain ⟨params, hparams, rfl⟩ := h
      obtain ⟨m, rfl⟩ : ∃ m, params = some m := by
        obtain ⟨v, i, j⟩ := raw
        unfold validateV2ReceiverAudience at hok
        split at hok
        · rename_i fields hv
          obtain rfl : v = .obj fields := hv
          exact exists_of_paramsObject_obj hparams
        · cases hok
      refine ⟨o', i, j, rfl, ?_, hne, hkeep⟩
      have hbody := holdsBody_params names parsed ht htype hnames (by simp) hget hparams
      simpa only [constraintBody, ConstraintV2.ofKind, h₁, h₂, h₃, h₄, ↓reduceIte] using hbody
    · simp only [validateUnregistered, bind_eq_ok_iff] at hmembers
      obtain ⟨_, -, _, hnames, hok⟩ := hmembers
      cases hget : Obj.get o' "params" with
      | none =>
        simp only [hget, Except.ok.injEq] at h
        obtain rfl := h
        refine ⟨o', i, j, rfl, ?_, hne, hkeep⟩
        have hbody := holdsBody_bare names ht htype hnames (by simp) hget
        simpa only [constraintBody, ConstraintV2.ofKind, h₁, h₂, h₃, h₄, ↓reduceIte] using hbody
      | some raw =>
        simp only [hget, bind_eq_ok_iff, Except.ok.injEq] at h hok
        obtain ⟨params, hparams, rfl⟩ := h
        obtain ⟨params', hparams', hok⟩ := hok
        obtain rfl := Except.ok.inj (hparams.symm.trans hparams')
        cases params with
        | none => cases hok
        | some m =>
          refine ⟨o', i, j, rfl, ?_, hne, hkeep⟩
          have hbody := holdsBody_params names parsed ht htype hnames (by simp) hget hparams
          simpa only [constraintBody, ConstraintV2.ofKind, h₁, h₂, h₃, h₄, ↓reduceIte] using hbody
  | _ => cases ho

/-! ## Encoding what was decoded -/

/-- A parsed node that denotes a body holds it. -/
theorem holdsBody_of_denotes (hwrite : ∃ t, write (.obj (constraintBody c)) = .ok t)
    (hp : Parsed levels n) (hn : Denotes (.obj (constraintBody c)) n) :
    ∃ o i j, n = .mk (.obj o) i j ∧ HoldsBody o (constraintBody c) := by
  obtain ⟨o, ho, hview⟩ := objView_of_denotes hn (nodup_constraintBody c)
  cases hp with
  | obj levels o' i j names parsed =>
    obtain rfl : o' = o := Except.ok.inj ho
    refine ⟨o', i, j, rfl, names, hview.keys, fun e he => ?_⟩
    obtain ⟨x, hx, hd⟩ := hview.get e.1 e.2 he
    have hxp := parsed _ ((get_eq_some_iff_mem names).mp hx)
    have hw := exists_write_of_obj hwrite e he
    refine ⟨x, hx, ?_⟩
    obtain ⟨s, hs⟩ | ⟨k, hk⟩ | ⟨-, m, hm⟩ := value_of_mem_constraintBody he
    · rw [hs] at hd ⊢
      cases hd with
      | str _ i j => exact .str s i j
    · rw [hk] at hd hw ⊢
      cases hd with
      | int _ i j => exact .int k i j (safe_of_write hw)
    · rw [hm] at hd hw ⊢
      exact .params rfl hxp (nodeToParams_of_denotes m.ordered hw hd)
  | _ => cases ho

theorem exists_fits_constraintBody (c : ConstraintV2) :
    ∃ levels, Fits levels (.obj (constraintBody c)) := by
  have hvalue : ∀ e ∈ constraintBody c, ∃ levels, Fits levels e.2 := by
    intro e he
    obtain ⟨s, hs⟩ | ⟨k, hk⟩ | ⟨-, m, hm⟩ := value_of_mem_constraintBody he
    · exact ⟨0, hs ▸ .str 0 s⟩
    · exact ⟨0, hk ▸ .int 0 k⟩
    · obtain ⟨levels, hfits⟩ := exists_fits_paramsCj m.ordered
      exact ⟨levels, hm ▸ hfits⟩
  obtain ⟨levels, hfits⟩ := exists_common_level hvalue
  exact ⟨levels + 1, .obj levels _ (nodup_constraintBody c) hfits⟩

/-- What a node decodes to encodes as the canonical form of the node. -/
theorem toCj_of_fromNode (hn : Parsed maxJsonNestingDepth n) (h : ConstraintV2.fromNode n = .ok c) :
    ∃ v, c.toCj = .ok v ∧ canonical v = .ok (canonicalNode n) := by
  have hschema := schema_of_fromNode h
  obtain ⟨o, i, j, rfl, hbody, hkind, hok⟩ := holdsBody_of_fromNode hn h
  have hwrite := hbody.write_obj (nodup_constraintBody c)
  have hcanonical : canonical (.obj (constraintBody c))
      = .ok (canonicalNode (.mk (.obj o) i j)) := by
    rw [canonical, hwrite, ok_bind]
    rfl
  -- The canonical text is parsed again, to a node that holds the same body.
  obtain ⟨root, hroot, -⟩ := exists_parseJson_of_parsed hn
  obtain ⟨levels, hfits⟩ := exists_fits_constraintBody c
  obtain ⟨hd, -⟩ := denotes_of_parseJson hfits hcanonical hroot
  obtain ⟨o', i', j', rfl, hbody'⟩ :=
    holdsBody_of_denotes ⟨_, hwrite⟩ (parsed_of_parseJson hroot) hd
  have hvalid := validateV2ConstraintFields_of_holdsBody hbody hbody' hkind hok i' j'
  have hparams : (c.params.isSome && isRegisteredStructured c.kind) = false := by
    rw [← hschema, ConstraintV2.params_schema, ConstraintV2.schema_kind]
    cases isRegisteredStructured c.kind <;> simp
  refine ⟨.obj (constraintBody c), ?_, hcanonical⟩
  rw [ConstraintV2.toCj, hparams, hcanonical]
  simp only [ok_bind, hroot, hvalid]
  rfl

/-! ## Decoding what was encoded -/

/-- The canonical form of a constraint decodes to its members of the schema. -/
theorem fromNode_of_canonicalJson {b : Bytes} (h : c.canonicalJson = .ok b) :
    ∃ n, parseJson b = .ok n ∧ ConstraintV2.fromNode n = .ok c.schema := by
  obtain ⟨v, hv, hb⟩ := bind_eq_ok_iff.mp h
  obtain ⟨rfl, -, b', root, hb', hroot, -⟩ := ConstraintV2.toCj_eq_ok hv
  obtain rfl := Except.ok.inj (hb.symm.trans hb')
  obtain ⟨levels, hfits⟩ := exists_fits_constraintBody c
  obtain ⟨hd, hfits⟩ := denotes_of_parseJson hfits hb hroot
  exact ⟨root, hroot, fromNode_of_denotes hv hfits hd⟩

/-- Constraints with one canonical form have the same members of the schema. -/
theorem schema_eq_of_canonicalJson {c' : ConstraintV2} {b : Bytes} (h : c.canonicalJson = .ok b)
    (h' : c'.canonicalJson = .ok b) : c.schema = c'.schema := by
  obtain ⟨n, hn, hread⟩ := fromNode_of_canonicalJson h
  obtain ⟨n', hn', hread'⟩ := fromNode_of_canonicalJson h'
  obtain rfl := Except.ok.inj (hn.symm.trans hn')
  exact Except.ok.inj (hread.symm.trans hread')

/-! ## Evaluation -/

/-- Evaluation reads members of the schema only. -/
theorem evaluateConstraintV2_schema (archive : ZoneArchive) (c : ConstraintV2)
    (ctx : ConstraintContextV2) (tzdbVersion : String) (now : Int) :
    evaluateConstraintV2 archive c.schema ctx tzdbVersion now
      = evaluateConstraintV2 archive c ctx tzdbVersion now := by
  obtain ⟨kind, start, end_, tz, currency, micros, count, windowS, resourceId, path, params⟩ := c
  have hpath : constraintResourcePath ≠ constraintTimeWindow ∧
      constraintResourcePath ≠ constraintMaxAmount ∧
      constraintResourcePath ≠ constraintMaxRate := by decide
  have hwindow : constraintTimeWindow ≠ constraintResourcePath := by decide
  have hamount : constraintMaxAmount ≠ constraintTimeWindow ∧
      constraintMaxAmount ≠ constraintResourcePath := by decide
  by_cases h₁ : kind = constraintResourcePath
  · subst h₁
    simp only [evaluateConstraintV2, evaluateResourcePath, ConstraintV2.schema,
      ConstraintV2.ofKind, hpath, ↓reduceIte]
  by_cases h₂ : kind = constraintTimeWindow
  · subst h₂
    simp only [evaluateConstraintV2, evaluateTimeWindow, ConstraintV2.schema,
      ConstraintV2.ofKind, hwindow, ↓reduceIte]
  by_cases h₃ : kind = constraintMaxAmount
  · subst h₃
    simp only [evaluateConstraintV2, evaluateMaxAmount, ConstraintV2.schema,
      ConstraintV2.ofKind, hamount, ↓reduceIte]
  · simp only [evaluateConstraintV2, ConstraintV2.schema_kind, h₁, h₂, h₃, ↓reduceIte]

/-- The local stage reads, and passes on, members of the schema only. -/
theorem localVerdict_schema (s : LocalInputs) (i j : Nat) (issuerId certId : String)
    {c : ConstraintV2} {b : Bytes} (h : c.canonicalJson = .ok b) :
    localVerdict s i j issuerId certId c.schema = localVerdict s i j issuerId certId c := by
  have hjson : c.schema.canonicalJson = c.canonicalJson := by
    obtain ⟨v, hv, -⟩ := bind_eq_ok_iff.mp h
    rw [ConstraintV2.canonicalJson, ConstraintV2.canonicalJson, ConstraintV2.toCj_schema hv, hv]
  unfold localVerdict
  rw [ConstraintV2.schema_kind, hjson, evaluateConstraintV2_schema]
  split
  · rfl
  split
  · rename_i hentry hregistered
    have hparams : extensionParamsJsonV2 c.schema = extensionParamsJsonV2 c := by
      rw [isRegisteredConstraintTypeV2, Bool.or_eq_false_iff] at hregistered
      rw [extensionParamsJsonV2, extensionParamsJsonV2, ConstraintV2.params_schema,
        hregistered.1]
      rfl
    rw [hparams]
  · rfl

theorem windowContribution_schema (archive : ZoneArchive) (tzdbVersion : String) (now : Int)
    {c : ConstraintV2} (h : c.kind = constraintTimeWindow) :
    windowContribution archive tzdbVersion now c.schema
      = windowContribution archive tzdbVersion now c := by
  simp only [windowContribution, ConstraintV2.schema, h, ↓reduceIte]

/-! ## The round trip -/

/-- A constraint that encodes, without members foreign to its type, is decoded from its
canonical form; constraints with one canonical form are one constraint; constraints
that differ only in foreign members are evaluated alike; and what a node of a parsed
document decodes to encodes as the canonical form of that node. -/
theorem constraintV2_roundTrip :
    (∀ (c : ConstraintV2) (v : CJ), c.schema = c → c.toCj = .ok v →
      ∃ b n, canonical v = .ok b ∧ parseJson b = .ok n ∧ ConstraintV2.fromNode n = .ok c)
    ∧ (∀ (c c' : ConstraintV2) (b : Bytes), c.schema = c → c'.schema = c' →
      c.canonicalJson = .ok b → c'.canonicalJson = .ok b → c = c')
    ∧ (∀ (c c' : ConstraintV2) (b : Bytes), c.canonicalJson = .ok b → c'.canonicalJson = .ok b →
      (∀ s i j issuerId certId,
        localVerdict s i j issuerId certId c = localVerdict s i j issuerId certId c')
      ∧ (c.kind = constraintTimeWindow → ∀ archive tzdbVersion now,
        windowContribution archive tzdbVersion now c
          = windowContribution archive tzdbVersion now c'))
    ∧ ∀ (data : Bytes) (root n : JNode) (c : ConstraintV2), parseJson data = .ok root →
      Subnode n root → ConstraintV2.fromNode n = .ok c →
      ∃ v, c.toCj = .ok v ∧ canonical v = .ok (canonicalNode n) := by
  refine ⟨fun c v hschema hv => ?_, fun c c' b hschema hschema' h h' => ?_,
    fun c c' b h h' => ?_, fun data root n c hroot hsub h => ?_⟩
  · obtain ⟨-, -, b, -, hb, -⟩ := ConstraintV2.toCj_eq_ok hv
    have hjson : c.canonicalJson = .ok b := bind_eq_ok_iff.mpr ⟨v, hv, hb⟩
    obtain ⟨n, hn, hread⟩ := fromNode_of_canonicalJson hjson
    rw [hschema] at hread
    exact ⟨b, n, hb, hn, hread⟩
  · rw [← hschema, ← hschema']
    exact schema_eq_of_canonicalJson h h'
  · have hschema := schema_eq_of_canonicalJson h h'
    refine ⟨fun s i j issuerId certId => ?_, fun hkind archive tzdbVersion now => ?_⟩
    · rw [← localVerdict_schema s i j issuerId certId h, hschema,
        localVerdict_schema s i j issuerId certId h']
    · have hkind' : c'.kind = constraintTimeWindow := by
        rw [← ConstraintV2.schema_kind, ← hschema, ConstraintV2.schema_kind, hkind]
      rw [← windowContribution_schema archive tzdbVersion now hkind, hschema,
        windowContribution_schema archive tzdbVersion now hkind']
  · exact toCj_of_fromNode ((parsed_of_parseJson hroot).subnode hsub) h

end RatifyProtocol.V2
