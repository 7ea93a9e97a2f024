import RatifyProtocol.V2.Delegation.ParamsCodec
set_option autoImplicit false

/-!
# V2: the canonical text of parameters read from a node

Reading parameters keeps every member of an object under its name, so the
canonical text of what is read is that of the node.
-/

namespace RatifyProtocol.V2

open Foundation

/-! ## Objects with the same members -/

/-- Two lists with the same names in order whose members agree wherever a name is
shared agree member by member. -/
theorem forall₂_of_names {α β : Type} {r : α → β → Prop} {es : List (String × α)} :
    ∀ {fs : List (String × β)}, es.map Prod.fst = fs.map Prod.fst →
      (∀ e ∈ es, ∀ f ∈ fs, e.1 = f.1 → r e.2 f.2) →
      List.Forall₂ (fun e f => e.1 = f.1 ∧ r e.2 f.2) es fs := by
  induction es with
  | nil =>
    intro fs h _
    cases fs with
    | nil => exact .nil
    | cons f fs => cases h
  | cons e es ih =>
    intro fs h hr
    cases fs with
    | nil => cases h
    | cons f fs =>
      obtain ⟨hname, hnames⟩ := List.cons.inj h
      refine .cons ⟨hname, hr e List.mem_cons_self f List.mem_cons_self hname⟩ ?_
      exact ih hnames fun e' he' f' hf' =>
        hr e' (List.mem_cons_of_mem e he') f' (List.mem_cons_of_mem f hf')

/-- The members of `fields` are those of `body`, each with the text of its value. -/
structure SameMembers (body : List (String × CJ)) (fields : List (String × JNode)) : Prop where
  bodyNames : (body.map Prod.fst).Nodup
  fieldNames : (fields.map Prod.fst).Nodup
  names : ∀ k, k ∈ body.map Prod.fst ↔ k ∈ fields.map Prod.fst
  texts : ∀ e ∈ body, ∀ f ∈ fields, e.1 = f.1 → write e.2 = .ok (writeNode f.2)

/-- Objects with the same members have one text. -/
theorem SameMembers.write_obj {body : List (String × CJ)} {fields : List (String × JNode)}
    (h : SameMembers body fields) : write (.obj body) = .ok (writeParsed (.obj fields)) := by
  have hbody := inKeyOrder_perm body
  have hfields := nodesInOrder_perm fields
  have hnames : (inKeyOrder body).map Prod.fst = (nodesInOrder fields).map Prod.fst := by
    have hperm : ((inKeyOrder body).map Prod.fst).Perm ((nodesInOrder fields).map Prod.fst) := by
      refine ((hbody.map Prod.fst).trans ?_).trans (hfields.map Prod.fst).symm
      exact (List.perm_ext_iff_of_nodup h.bodyNames h.fieldNames).mpr h.names
    have hsorted : ((nodesInOrder fields).map Prod.fst).Pairwise (· ≤ ·) := by
      rw [List.pairwise_map, nodesInOrder]
      exact List.pairwise_insertionSort (fun a b : String × JNode => a.1 ≤ b.1) fields
    exact List.Perm.eq_of_pairwise (fun a b _ _ hab hba => String.le_antisymm hab hba)
      (pairwise_inKeyOrder body) hsorted hperm
  have hmembers : List.Forall₂ (fun e f => e.1 = f.1 ∧ write e.2 = .ok (writeNode f.2))
      (inKeyOrder body) (nodesInOrder fields) :=
    forall₂_of_names (r := fun v x => write v = .ok (writeNode x)) hnames fun e he f hf =>
      h.texts e (hbody.mem_iff.mp he) f (hfields.mem_iff.mp hf)
  rw [write_obj_eq_ok_iff, writeParsed_obj]
  refine ⟨(nodesInOrder fields).map fun f => writeNode f.2, ?_, ?_⟩
  · rw [List.forall₂_map_right_iff]
    exact hmembers.imp fun _ _ hmember => hmember.2
  · congr 3
    clear hnames
    generalize inKeyOrder body = es, nodesInOrder fields = fs at hmembers
    induction hmembers with
    | nil => rfl
    | cons hmember _ ih =>
      simp only [List.map_cons, List.zipWith_cons_cons, ih, memberText, namedText, hmember.1]

/-! ## Parameters -/

/-- What an object of parameters has under each name: the value of the member. -/
theorem find_membersToParams {fields : List (String × JNode)} :
    ∀ {acc map : List (String × ParamsValue)}, (fields.map Prod.fst).Nodup →
      membersToParams acc fields = .ok map →
      (∀ f ∈ fields, ∃ p, nodeToParams f.2 = .ok p ∧ OrderedMap.find f.1 map = some p) ∧
        ∀ k, k ∉ fields.map Prod.fst → OrderedMap.find k map = OrderedMap.find k acc := by
  induction fields with
  | nil =>
    intro acc map _ h
    cases h
    exact ⟨fun f hf => absurd hf List.not_mem_nil, fun k _ => rfl⟩
  | cons f fields ih =>
    intro acc map hnames h
    obtain ⟨k, x⟩ := f
    obtain ⟨hnew, hnodup⟩ := List.nodup_cons.mp hnames
    simp only [membersToParams, bind_eq_ok_iff] at h
    obtain ⟨p, hp, h⟩ := h
    obtain ⟨hmembers, hothers⟩ := ih hnodup h
    refine ⟨fun f hf => ?_, fun k' hk' => ?_⟩
    · obtain rfl | hf := List.mem_cons.mp hf
      · refine ⟨p, hp, ?_⟩
        rw [hothers k hnew, OrderedMap.find_place, if_pos rfl]
      · exact hmembers f hf
    · obtain ⟨hne, hk'⟩ := not_or.mp (fun h => hk' (List.mem_cons.mpr h))
      rw [hothers k' hk', OrderedMap.find_place, if_neg hne]

theorem mem_paramsMembersCj {map : List (String × ParamsValue)} {e : String × CJ} :
    e ∈ paramsMembersCj map ↔ ∃ p, (e.1, p) ∈ map ∧ e.2 = paramsCj p := by
  rw [paramsMembersCj_eq_map, List.mem_map]
  constructor
  · rintro ⟨⟨k, p⟩, hmem, rfl⟩
    exact ⟨p, hmem, rfl⟩
  · rintro ⟨p, hmem, hv⟩
    exact ⟨(e.1, p), hmem, Prod.ext rfl hv.symm⟩

theorem names_paramsMembersCj (map : List (String × ParamsValue)) :
    (paramsMembersCj map).map Prod.fst = map.map Prod.fst := by
  rw [paramsMembersCj_eq_map, List.map_map]
  rfl

mutual

/-- Canonical values determine parameters. -/
theorem paramsCj_injective : ∀ p q : ParamsValue, paramsCj p = paramsCj q → p = q
  | .null, q, h => by cases q <;> simp_all [paramsCj]
  | .bool b, q, h => by cases q <;> simp_all [paramsCj]
  | .int n, q, h => by cases q <;> simp_all [paramsCj]
  | .str s, q, h => by cases q <;> simp_all [paramsCj]
  | .array items, q, h => by
    cases q with
    | array items' =>
      rw [paramsItemsCj_injective items items' (CJ.arr.inj h)]
    | _ => cases h
  | .object map, q, h => by
    cases q with
    | object map' =>
      rw [paramsMembersCj_injective map map' (CJ.obj.inj h)]
    | _ => cases h

theorem paramsItemsCj_injective : ∀ xs ys : List ParamsValue,
    paramsItemsCj xs = paramsItemsCj ys → xs = ys
  | [], [], _ => rfl
  | [], _ :: _, h => by cases h
  | _ :: _, [], h => by cases h
  | x :: xs, y :: ys, h => by
    obtain ⟨hx, hxs⟩ := List.cons.inj h
    rw [paramsCj_injective x y hx, paramsItemsCj_injective xs ys hxs]

theorem paramsMembersCj_injective : ∀ es fs : List (String × ParamsValue),
    paramsMembersCj es = paramsMembersCj fs → es = fs
  | [], [], _ => rfl
  | [], _ :: _, h => by cases h
  | _ :: _, [], h => by cases h
  | (k, x) :: es, (l, y) :: fs, h => by
    obtain ⟨he, hes⟩ := List.cons.inj h
    obtain ⟨hk, hx⟩ := Prod.mk.inj he
    rw [hk, paramsCj_injective x y hx, paramsMembersCj_injective es fs hes]

end

theorem paramsMapCj_injective : Function.Injective paramsMapCj := fun m m' h =>
  ParamsMap.ext (paramsMembersCj_injective m.entries m'.entries (CJ.obj.inj h))

/-- Parameters read from a node are written as the node is. -/
theorem write_paramsCj {levels : Nat} {n : JNode} (hn : Parsed levels n) :
    ∀ {p : ParamsValue}, nodeToParams n = .ok p → write (paramsCj p) = .ok (writeNode n) := by
  induction hn with
  | null levels i j =>
    intro p h
    cases h
    rfl
  | bool levels b i j =>
    intro p h
    cases h
    cases b <;> rfl
  | int levels k i j range =>
    intro p h
    simp only [nodeToParams, parsedToParams, String.toList_ofList, parseI64_encodeInt range] at h
    cases h
    rw [paramsCj, write, if_pos range, writeNode, writeParsed, String.toList_ofList]
  | str levels s i j =>
    intro p h
    cases h
    rfl
  | arr levels xs i j _ ih =>
    intro p h
    simp only [nodeToParams, parsedToParams, bind_eq_ok_iff, Except.ok.injEq] at h
    obtain ⟨items, hitems, rfl⟩ := h
    have htexts : writeItems (paramsItemsCj items) = .ok (xs.map writeNode) := by
      clear * - ih hitems
      induction xs generalizing items with
      | nil =>
        cases hitems
        rfl
      | cons x xs ihxs =>
        simp only [itemsToParams, bind_eq_ok_iff, Except.ok.injEq] at hitems
        obtain ⟨q, hq, qs, hqs, rfl⟩ := hitems
        rw [paramsItemsCj, writeItems, ih x List.mem_cons_self hq, ok_bind,
          ihxs (fun y hy => ih y (List.mem_cons_of_mem x hy)) qs hqs, ok_bind, List.map_cons]
    rw [paramsCj, write, htexts, ok_bind, writeNode, writeParsed, writeNodes_eq_map]
  | obj levels fields i j names _ ih =>
    intro p h
    simp only [nodeToParams, parsedToParams, bind_eq_ok_iff, Except.ok.injEq] at h
    obtain ⟨map, hmap, rfl⟩ := h
    have hempty : EntriesOrdered [] := .object [] .nil fun e he => absurd he List.not_mem_nil
    have hordered := ordered_of_membersToParams fields [] map hempty hmap
    obtain ⟨hmembers, hothers⟩ := find_membersToParams names hmap
    cases hordered with
    | object _ hascending _ =>
      have hfound : ∀ {k : String} {q : ParamsValue},
          OrderedMap.find k map = some q ↔ (k, q) ∈ map := OrderedMap.find_eq_some_iff hascending
      refine SameMembers.write_obj ⟨?_, names, fun k => ?_, fun e he f hf hname => ?_⟩
      · rw [names_paramsMembersCj]
        exact List.pairwise_map.mpr (hascending.imp fun hlt => hlt.ne)
      · rw [names_paramsMembersCj]
        constructor
        · intro hk
          obtain ⟨⟨k, q⟩, hmem, rfl⟩ := List.mem_map.mp hk
          by_contra hnot
          have hnone := hothers k hnot
          rw [hfound.mpr hmem] at hnone
          cases hnone
        · intro hk
          obtain ⟨f, hf, rfl⟩ := List.mem_map.mp hk
          obtain ⟨q, -, hq⟩ := hmembers f hf
          exact List.mem_map_of_mem (f := Prod.fst) (hfound.mp hq)
      · obtain ⟨q, hmem, hv⟩ := mem_paramsMembersCj.mp he
        obtain ⟨q', hread, hq'⟩ := hmembers f hf
        rw [hname] at hmem
        obtain rfl := Option.some.inj ((hfound.mpr hmem).symm.trans hq')
        rw [hv]
        exact ih f hf hread

/-! ## Nesting -/

theorem exists_common_level {α : Type} {f : α → CJ} {xs : List α}
    (h : ∀ x ∈ xs, ∃ levels, Fits levels (f x)) : ∃ levels, ∀ x ∈ xs, Fits levels (f x) := by
  induction xs with
  | nil => exact ⟨0, fun x hx => absurd hx List.not_mem_nil⟩
  | cons x xs ih =>
    obtain ⟨a, ha⟩ := h x List.mem_cons_self
    obtain ⟨b, hb⟩ := ih fun y hy => h y (List.mem_cons_of_mem x hy)
    refine ⟨max a b, fun y hy => ?_⟩
    obtain rfl | hy := List.mem_cons.mp hy
    · exact ha.mono (Nat.le_max_left a b)
    · exact (hb y hy).mono (Nat.le_max_right a b)

/-- Parameters nest to some depth. -/
theorem exists_fits_paramsCj {p : ParamsValue} (h : p.Ordered) :
    ∃ levels, Fits levels (paramsCj p) := by
  induction h with
  | null => exact ⟨0, .null 0⟩
  | bool b => exact ⟨0, .bool 0 b⟩
  | int n => exact ⟨0, .int 0 n⟩
  | str s => exact ⟨0, .str 0 s⟩
  | array items _ ih =>
    obtain ⟨levels, hfits⟩ := exists_common_level ih
    refine ⟨levels + 1, ?_⟩
    rw [paramsCj, paramsItemsCj_eq_map]
    refine .arr levels _ fun v hv => ?_
    obtain ⟨x, hx, rfl⟩ := List.mem_map.mp hv
    exact hfits x hx
  | object map hascending _ ih =>
    obtain ⟨levels, hfits⟩ := exists_common_level ih
    refine ⟨levels + 1, ?_⟩
    rw [paramsCj]
    refine .obj levels _ ?_ fun e he => ?_
    · rw [names_paramsMembersCj]
      exact List.pairwise_map.mpr (hascending.imp fun hlt => hlt.ne)
    · obtain ⟨q, hmem, hv⟩ := mem_paramsMembersCj.mp he
      rw [hv]
      exact hfits (e.1, q) hmem

end RatifyProtocol.V2
