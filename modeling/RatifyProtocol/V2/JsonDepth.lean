import RatifyProtocol.V2.JsonNormal
set_option autoImplicit false

/-!
# V2: canonical text that parses nests within the limit

The writer does not look at nesting; the parser does.  A value whose canonical
text parses therefore fits the parser, and the node denotes the value.
-/

namespace RatifyProtocol.V2

open Foundation Foundation.JsonGrammar

theorem forall₂_left {α β : Type} {r : α → β → Prop} {xs : List α} {ys : List β}
    (h : List.Forall₂ r xs ys) : ∀ x ∈ xs, ∃ y ∈ ys, r x y := by
  induction h with
  | nil => exact fun x hx => absurd hx List.not_mem_nil
  | cons hxy _ ih =>
    intro x hx
    rcases List.mem_cons.mp hx with rfl | hx
    · exact ⟨_, List.mem_cons_self, hxy⟩
    · obtain ⟨y, hy, hr⟩ := ih x hx
      exact ⟨y, List.mem_cons_of_mem _ hy, hr⟩

theorem mem_of_get {o : Obj} {k : String} {n : JNode} (h : o.get k = some n) :
    ∃ f ∈ o, f.2 = n := by
  obtain ⟨f, hf, rfl⟩ := Option.map_eq_some_iff.mp h
  exact ⟨f, List.mem_of_find?_eq_some hf, rfl⟩

/-- A value that a parsed node denotes nests no deeper than the node. -/
theorem fits_of_parsed {levels : Nat} {v : CJ} (h : Fits levels v) :
    ∀ {k : Nat} {n : JNode}, Denotes v n → Parsed k n → Fits k v := by
  induction h with
  | null levels => exact fun {k} _ _ _ => .null k
  | bool levels b => exact fun {k} _ _ _ => .bool k b
  | int levels n => exact fun {k} _ _ _ => .int k n
  | str levels s => exact fun {k} _ _ _ => .str k s
  | bytes levels b => exact fun {k} _ _ _ => .bytes k b
  | arr levels xs _ ih =>
    intro k n hn hparsed
    cases hn with
    | arr _ ns i j hns =>
      cases hparsed with
      | arr k _ _ _ hitems =>
        refine .arr k xs fun x hx => ?_
        obtain ⟨m, hm, hd⟩ := forall₂_left hns x hx
        exact ih x hx hd (hitems m hm)
  | obj levels fields hkeys _ ih =>
    intro k n hn hparsed
    obtain ⟨o, ho, hview⟩ := objView_of_denotes hn hkeys
    cases hn with
    | obj _ ms i j _ _ =>
      cases hparsed with
      | obj k _ _ _ _ hvalues =>
        obtain rfl : ms = o := Except.ok.inj ho
        refine .obj k fields hkeys fun f hf => ?_
        obtain ⟨m, hm, hd⟩ := hview.get f.1 f.2 hf
        obtain ⟨g, hg, rfl⟩ := mem_of_get hm
        exact ih f hf hd (hvalues g hg)

/-- Canonical text that parses denotes its value, which fits the parser. -/
theorem denotes_of_parseJson {levels : Nat} {v : CJ} {b : Bytes} {n : JNode}
    (hv : Fits levels v) (hb : canonical v = .ok b) (hn : parseJson b = .ok n) :
    Denotes v n ∧ Fits maxJsonNestingDepth v := by
  obtain ⟨t, ht, hb⟩ := bind_eq_ok_iff.mp hb
  obtain rfl := Except.ok.inj hb
  obtain ⟨text, htext, w, u, w', hw, hvalue, hw', rfl⟩ := parseJson_eq_ok_iff.mp hn
  obtain rfl := utf8Chars_injective htext
  have hparsed := parsed_of_valueText hvalue
  -- With room for both readings, the parser answers with one node.
  let room := max levels maxJsonNestingDepth
  obtain ⟨n', j, hread, hd⟩ := reads_write (hv.mono (Nat.le_max_left levels maxJsonNestingDepth))
    ht 0 [] boundary_nil
  have hroom := hvalue.mono (Dialect.Within.refl scannerDialect)
    (Nat.le_max_right levels maxJsonNestingDepth)
  have hboundary : Boundary w' := by
    have h := boundary_space hw' boundary_nil
    rwa [List.append_nil] at h
  have hread' := (value_matches room).2.reads 0 n w u w' hw
    (by rw [Nat.zero_add]; exact hroom) hboundary
  rw [List.append_nil, hread'] at hread
  obtain rfl : n = n' := congrArg Prod.fst (Except.ok.inj hread)
  exact ⟨hd, fits_of_parsed hv hd hparsed⟩

end RatifyProtocol.V2
