import RatifyProtocol.V2.Delegation.Params
import RatifyProtocol.V2.JsonBare
import RatifyProtocol.V2.JsonDepth
import RatifyProtocol.V2.WireBody
set_option autoImplicit false

/-!
# V2: constraint parameters survive the wire

Reading a node that denotes the canonical value of some parameters returns the
parameters, and parameters read from a document nest no deeper than it does.
-/

namespace RatifyProtocol.V2

open Foundation

/-! ## Parts of a written value -/

theorem exists_write_of_canonical {v : CJ} {b : Bytes} (h : canonical v = .ok b) :
    ∃ t, write v = .ok t := by
  simp only [canonical, bind_eq_ok_iff] at h
  obtain ⟨t, ht, -⟩ := h
  exact ⟨t, ht⟩

theorem exists_write_of_arr {xs : List CJ} (h : ∃ t, write (.arr xs) = .ok t) :
    ∀ x ∈ xs, ∃ t, write x = .ok t := by
  obtain ⟨t, ht⟩ := h
  simp only [write, bind_eq_ok_iff, writeItems_eq_mapM, mapM_eq_ok_iff] at ht
  obtain ⟨ts, hts, -⟩ := ht
  intro x hx
  obtain ⟨t, -, ht⟩ := forall₂_left hts x hx
  exact ⟨t, ht⟩

theorem exists_write_of_obj {fields : List (String × CJ)} (h : ∃ t, write (.obj fields) = .ok t) :
    ∀ f ∈ fields, ∃ t, write f.2 = .ok t := by
  obtain ⟨t, ht⟩ := h
  obtain ⟨ts, hts, -⟩ := write_obj_eq_ok_iff.mp ht
  intro f hf
  obtain ⟨t, -, ht⟩ := forall₂_left hts f ((inKeyOrder_perm fields).mem_iff.mpr hf)
  exact ⟨t, ht⟩

theorem safe_of_write {n : Int} (h : ∃ t, write (.int n) = .ok t) : -maxSafe ≤ n ∧ n ≤ maxSafe := by
  obtain ⟨t, ht⟩ := h
  simp only [write] at ht
  split at ht
  · assumption
  · cases ht

/-- Members already in ascending order are written in their own order. -/
theorem inKeyOrder_of_ascending {fields : List (String × CJ)}
    (h : fields.Pairwise fun a b => a.1 < b.1) : inKeyOrder fields = fields := by
  apply List.Pairwise.insertionSort_eq
  exact h.imp fun hlt => hlt.le

/-! ## Reading parameters back -/

/-- Members in ascending order above the entries so far are appended to them. -/
theorem membersToParams_ascending {ms : List (String × JNode)} :
    ∀ {acc map : List (String × ParamsValue)},
      ((acc ++ map).Pairwise fun a b => a.1 < b.1) →
      List.Forall₂ (fun e m => e.1 = m.1 ∧ nodeToParams m.2 = .ok e.2) map ms →
      membersToParams acc ms = .ok (acc ++ map) := by
  induction ms with
  | nil =>
    rintro acc map - h
    cases h
    simp only [membersToParams, List.append_nil]
  | cons m ms ih =>
    intro acc map hascending h
    obtain ⟨k, x⟩ := m
    cases h with
    | @cons e _ map _ hentry hrest =>
      obtain ⟨rfl, hvalue⟩ := hentry
      have hbelow : ∀ a ∈ acc, a.1 < e.1 := fun a ha =>
        (List.pairwise_append.mp hascending).2.2 a ha e List.mem_cons_self
      have hsplit : acc ++ e :: map = acc ++ [(e.1, e.2)] ++ map := by simp
      rw [membersToParams, hvalue, ok_bind, OrderedMap.place_of_forall_lt hbelow, hsplit]
      exact ih (hsplit ▸ hascending) hrest

theorem nodeToParams_of_denotes {p : ParamsValue} (hp : p.Ordered) :
    (∃ t, write (paramsCj p) = .ok t) → ∀ {n : JNode}, Denotes (paramsCj p) n →
      nodeToParams n = .ok p := by
  induction hp with
  | null => rintro - n ⟨⟩; rfl
  | bool b => rintro - n ⟨⟩; rfl
  | str s => rintro - n ⟨⟩; rfl
  | int k =>
    rintro hwrite n ⟨⟩
    simp only [nodeToParams, parsedToParams, String.toList_ofList,
      parseI64_encodeInt (safe_of_write hwrite)]
  | array items hordered ih =>
    clear hordered
    intro hwrite n hn
    rw [paramsCj] at hwrite hn
    have hitem : ∀ x ∈ items, ∃ t, write (paramsCj x) = .ok t := fun x hx =>
      exists_write_of_arr hwrite _ (paramsItemsCj_eq_map items ▸ List.mem_map_of_mem hx)
    cases hn with
    | arr _ ns i j hns =>
      rw [paramsItemsCj_eq_map, List.forall₂_map_left_iff] at hns
      have hread : itemsToParams ns = .ok items := by
        clear hwrite
        induction hns with
        | nil => rfl
        | @cons x n xs ns hx _ ihns =>
          rw [itemsToParams, ih x List.mem_cons_self (hitem x List.mem_cons_self) hx, ok_bind,
            ihns (fun y hy => ih y (List.mem_cons_of_mem _ hy))
              (fun y hy => hitem y (List.mem_cons_of_mem _ hy)), ok_bind]
      simp only [nodeToParams, parsedToParams, hread, ok_bind]
  | object map hascending hordered ih =>
    clear hordered
    intro hwrite n hn
    rw [paramsCj] at hwrite hn
    have hvalue : ∀ e ∈ map, ∃ t, write (paramsCj e.2) = .ok t := by
      intro e he
      have hmem : (e.1, paramsCj e.2) ∈ paramsMembersCj map := by
        rw [paramsMembersCj_eq_map]
        exact List.mem_map_of_mem (f := fun e : String × ParamsValue => (e.1, paramsCj e.2)) he
      exact exists_write_of_obj hwrite _ hmem
    have horder : inKeyOrder (paramsMembersCj map) = paramsMembersCj map := by
      apply inKeyOrder_of_ascending
      rw [paramsMembersCj_eq_map, List.pairwise_map]
      exact hascending
    cases hn with
    | obj _ ms i j hfst hns =>
      rw [horder, paramsMembersCj_eq_map, List.map_map] at hfst hns
      have hread : membersToParams [] ms = .ok ([] ++ map) := by
        refine membersToParams_ascending hascending ?_
        clear hwrite horder hascending
        induction map generalizing ms with
        | nil =>
          cases ms with
          | nil => exact .nil
          | cons m ms => simp at hfst
        | cons e map ihmap =>
          cases ms with
          | nil => simp at hfst
          | cons m ms =>
            simp only [List.map_cons, Function.comp_apply, List.cons.injEq] at hfst
            obtain ⟨hx, hxs⟩ := List.forall₂_cons.mp hns
            refine .cons ⟨hfst.1, ?_⟩ ?_
            · exact ih e List.mem_cons_self (hvalue e List.mem_cons_self) hx
            · exact ihmap (fun a ha => ih a (List.mem_cons_of_mem _ ha))
                (fun a ha => hvalue a (List.mem_cons_of_mem _ ha)) ms hfst.2 hxs
      simp only [nodeToParams, parsedToParams, hread, ok_bind, List.nil_append]

/-! ## Nesting -/

/-- Containers nest at most `levels` deep. -/
inductive ParamsValue.Nests : Nat → ParamsValue → Prop
  | null (levels : Nat) : Nests levels .null
  | bool (levels : Nat) (b : Bool) : Nests levels (.bool b)
  | int (levels : Nat) (n : Int) : Nests levels (.int n)
  | str (levels : Nat) (s : String) : Nests levels (.str s)
  | array (levels : Nat) (items : List ParamsValue) :
      (∀ x ∈ items, Nests levels x) → Nests (levels + 1) (.array items)
  | object (levels : Nat) (map : List (String × ParamsValue)) :
      (∀ e ∈ map, Nests levels e.2) → Nests (levels + 1) (.object map)

/-- Every entry read comes from a member or was there before. -/
theorem mem_membersToParams {ms : List (String × JNode)} :
    ∀ {acc map : List (String × ParamsValue)}, membersToParams acc ms = .ok map →
      ∀ e ∈ map, e ∈ acc ∨ ∃ m ∈ ms, nodeToParams m.2 = .ok e.2 := by
  induction ms with
  | nil =>
    intro acc map h e he
    cases h
    exact .inl he
  | cons m ms ih =>
    intro acc map h e he
    obtain ⟨k, x⟩ := m
    simp only [membersToParams, bind_eq_ok_iff] at h
    obtain ⟨p, hp, h⟩ := h
    rcases ih h e he with hplaced | ⟨m, hm, hread⟩
    · rcases OrderedMap.mem_place hplaced with rfl | hacc
      · exact .inr ⟨(k, x), List.mem_cons_self, hp⟩
      · exact .inl hacc
    · exact .inr ⟨m, List.mem_cons_of_mem _ hm, hread⟩

theorem mem_itemsToParams {ns : List JNode} : ∀ {items : List ParamsValue},
    itemsToParams ns = .ok items → ∀ x ∈ items, ∃ n ∈ ns, nodeToParams n = .ok x := by
  induction ns with
  | nil =>
    intro items h x hx
    cases h
    exact absurd hx List.not_mem_nil
  | cons n ns ih =>
    intro items h x hx
    simp only [itemsToParams, bind_eq_ok_iff, Except.ok.injEq] at h
    obtain ⟨p, hp, ps, hps, rfl⟩ := h
    rcases List.mem_cons.mp hx with rfl | hx
    · exact ⟨n, List.mem_cons_self, hp⟩
    · obtain ⟨n', hn', hread⟩ := ih hps x hx
      exact ⟨n', List.mem_cons_of_mem _ hn', hread⟩

/-- Parameters read from a document nest no deeper than the document. -/
theorem nests_of_nodeToParams {levels : Nat} {n : JNode} (hn : Parsed levels n) :
    ∀ {p : ParamsValue}, nodeToParams n = .ok p → p.Nests levels := by
  induction hn with
  | null levels i j =>
    intro p h
    cases h
    exact .null levels
  | bool levels b i j =>
    intro p h
    cases h
    exact .bool levels b
  | int levels k i j _ =>
    intro p h
    simp only [nodeToParams, parsedToParams] at h
    split at h
    · cases h
      exact .int levels _
    · cases h
  | str levels s i j =>
    intro p h
    cases h
    exact .str levels s
  | arr levels xs i j _ ih =>
    intro p h
    simp only [nodeToParams, parsedToParams, bind_eq_ok_iff, Except.ok.injEq] at h
    obtain ⟨items, hitems, rfl⟩ := h
    refine .array levels items fun x hx => ?_
    obtain ⟨n, hn, hread⟩ := mem_itemsToParams hitems x hx
    exact ih n hn hread
  | obj levels fields i j _ _ ih =>
    intro p h
    simp only [nodeToParams, parsedToParams, bind_eq_ok_iff, Except.ok.injEq] at h
    obtain ⟨map, hmap, rfl⟩ := h
    refine .object levels map fun e he => ?_
    rcases mem_membersToParams hmap e he with hnil | ⟨m, hm, hread⟩
    · exact absurd hnil List.not_mem_nil
    · exact ih m hm hread

theorem ParamsValue.Nests.fits {levels : Nat} {p : ParamsValue} (h : p.Nests levels) :
    p.Ordered → Fits levels (paramsCj p) := by
  induction h with
  | null levels => exact fun _ => .null levels
  | bool levels b => exact fun _ => .bool levels b
  | int levels n => exact fun _ => .int levels n
  | str levels s => exact fun _ => .str levels s
  | array levels items _ ih =>
    intro hp
    cases hp with
    | array _ hitems =>
      rw [paramsCj, paramsItemsCj_eq_map]
      refine .arr levels _ fun v hv => ?_
      obtain ⟨x, hx, rfl⟩ := List.mem_map.mp hv
      exact ih x hx (hitems x hx)
  | object levels map _ ih =>
    intro hp
    cases hp with
    | object _ hascending hvalues =>
      rw [paramsCj, paramsMembersCj_eq_map]
      refine .obj levels _ ?_ fun f hf => ?_
      · rw [List.map_map]
        exact List.pairwise_map.mpr (hascending.imp fun hlt => hlt.ne)
      · obtain ⟨e, he, rfl⟩ := List.mem_map.mp hf
        exact ih e he (hvalues e he)

/-! ## Spans -/

mutual

theorem nodeToParams_bare : ∀ n : JNode, nodeToParams n.bare = nodeToParams n
  | .mk v _ _ => parsedToParams_bare v

theorem parsedToParams_bare : ∀ v : JV, parsedToParams v.bare = parsedToParams v
  | .null => rfl
  | .bool _ => rfl
  | .num _ => rfl
  | .str _ => rfl
  | .arr items => by rw [JV.bare, parsedToParams, parsedToParams, itemsToParams_bare items]
  | .obj fields => by rw [JV.bare, parsedToParams, parsedToParams, membersToParams_bare fields]

theorem itemsToParams_bare : ∀ items : List JNode,
    itemsToParams (bareItems items) = itemsToParams items
  | [] => rfl
  | x :: items => by
    rw [bareItems, itemsToParams, itemsToParams, nodeToParams_bare x, itemsToParams_bare items]

theorem membersToParams_bare : ∀ (fields : List (String × JNode))
    (map : List (String × ParamsValue)),
    membersToParams map (bareFields fields) = membersToParams map fields
  | [], _ => rfl
  | (k, x) :: fields, map => by
    simp only [bareFields, membersToParams, nodeToParams_bare x, membersToParams_bare fields]

end

theorem paramsObject_bare (n : JNode) : paramsObject n.bare = paramsObject n := by
  have h := nodeToParams_bare n
  cases hn : nodeToParams n with
  | error e => rw [paramsObject_of_error hn, paramsObject_of_error (h.trans hn)]
  | ok p =>
    cases p with
    | object map =>
      let m : ParamsMap := ⟨map, ordered_of_nodeToParams n _ hn⟩
      have hobj : paramsObject n = .ok (some m) := paramsObject_of_nodeToParams hn
      rw [hobj]
      exact paramsObject_of_nodeToParams (h.trans hn)
    | null | bool | int | str | array =>
      rw [paramsObject_of_other hn (by simp), paramsObject_of_other (h.trans hn) (by simp)]

end RatifyProtocol.V2
