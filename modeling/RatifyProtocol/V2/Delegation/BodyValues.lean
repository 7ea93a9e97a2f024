import RatifyProtocol.V2.Delegation.ConstraintCodec
import RatifyProtocol.V2.Delegation.ParamsText
set_option autoImplicit false

/-!
# V2: nodes that hold a constraint body

A node holds the body of a constraint when its members are those of the body, in
any order and spelling.  The registry accepts all such nodes or none, and they
have one canonical text.
-/

namespace RatifyProtocol.V2

open Foundation

/-! ## Members by name -/

theorem get_eq_some_iff_mem {o : Obj} (h : (o.map Prod.fst).Nodup) {k : String} {x : JNode} :
    o.get k = some x ↔ (k, x) ∈ o := by
  rw [Obj.get, Option.map_eq_some_iff]
  constructor
  · rintro ⟨f, hf, rfl⟩
    have hname := List.find?_some hf
    rw [beq_iff_eq] at hname
    rw [← hname]
    exact List.mem_of_find?_eq_some hf
  · intro hmem
    cases hfind : o.find? fun f => f.1 == k with
    | none =>
      have hnot := List.find?_eq_none.mp hfind (k, x) hmem
      exact absurd (beq_self_eq_true k) hnot
    | some f =>
      have hname := List.find?_some hfind
      rw [beq_iff_eq] at hname
      have hf := List.inj_on_of_nodup_map h (List.mem_of_find?_eq_some hfind) hmem hname
      exact ⟨f, rfl, by rw [hf]⟩

theorem get_eq_none_iff {o : Obj} {k : String} : o.get k = none ↔ k ∉ o.map Prod.fst := by
  rw [Obj.get, Option.map_eq_none_iff, List.find?_eq_none, List.mem_map]
  constructor
  · rintro h ⟨f, hf, rfl⟩
    exact h f hf (beq_self_eq_true f.1)
  · intro h f hf hname
    exact h ⟨f, hf, beq_iff_eq.mp hname⟩

theorem str_of_get {o : Obj} {k s : String} {x : JNode} (h : o.get k = some x)
    (hx : x.v = .str s) : o.str k = .ok s := by
  simp only [Obj.str, Obj.present, h, Option.filter, JNode.isNull, hx, asStr, Bool.not_false,
    ↓reduceIte]

theorem str_of_absent {o : Obj} {k : String} (h : o.get k = none) : o.str k = .ok "" := by
  simp only [Obj.str, Obj.present, h, Option.filter]

theorem i64_of_get {o : Obj} {k : String} {n : Int} {x : JNode} (h : o.get k = some x)
    (hx : x.v = .num (String.ofList (encodeInt n))) (hn : -maxSafe ≤ n ∧ n ≤ maxSafe) :
    o.i64 k = .ok n := by
  simp only [Obj.i64, Obj.present, h, Option.filter, JNode.isNull, hx, asI64,
    String.toList_ofList, not_any_float_encodeInt, parseI64_encodeInt hn, Bool.not_false,
    Bool.false_eq_true, ↓reduceIte]

/-! ## Values of a body -/

/-- A node with a value of a constraint body. -/
inductive BodyValue : CJ → JNode → Prop
  | str (s : String) (i j : Nat) : BodyValue (.str s) (.mk (.str s) i j)
  | int (n : Int) (i j : Nat) (range : -maxSafe ≤ n ∧ n ≤ maxSafe) :
      BodyValue (.int n) (.mk (.num (String.ofList (encodeInt n))) i j)
  | params {levels : Nat} {w : CJ} {m : ParamsMap} {x : JNode} (value : w = paramsMapCj m)
      (parsed : Parsed levels x) (read : nodeToParams x = .ok (.object m.entries)) :
      BodyValue w x

namespace BodyValue

theorem write_eq {w : CJ} {x : JNode} (h : BodyValue w x) : write w = .ok (writeNode x) := by
  cases h with
  | str s i j => rfl
  | int n i j range => rw [write, if_pos range, writeNode, writeParsed, String.toList_ofList]
  | params value parsed read =>
    rw [value]
    exact write_paramsCj parsed read

theorem of_str {s : String} {x : JNode} (h : BodyValue (.str s) x) : x.v = .str s := by
  cases h with
  | str s i j => rfl
  | params value parsed read => cases value

theorem of_int {n : Int} {x : JNode} (h : BodyValue (.int n) x) :
    x.v = .num (String.ofList (encodeInt n)) ∧ -maxSafe ≤ n ∧ n ≤ maxSafe := by
  cases h with
  | int n i j range => exact ⟨rfl, range⟩
  | params value parsed read => cases value

theorem of_params {m : ParamsMap} {x : JNode} (h : BodyValue (paramsMapCj m) x) :
    ∃ levels, Parsed levels x ∧ nodeToParams x = .ok (.object m.entries) := by
  generalize hw : paramsMapCj m = w at h
  cases h with
  | str s i j => cases hw
  | int n i j range => cases hw
  | @params levels _ m' _ value parsed read =>
    obtain rfl : m = m' := paramsMapCj_injective (hw.trans value)
    exact ⟨levels, parsed, read⟩

end BodyValue

/-- The members of an object are those of a body. -/
structure HoldsBody (o : Obj) (body : List (String × CJ)) : Prop where
  nodup : (o.map Prod.fst).Nodup
  names : ∀ f ∈ o, f.1 ∈ body.map Prod.fst
  member : ∀ e ∈ body, ∃ x, o.get e.1 = some x ∧ BodyValue e.2 x

namespace HoldsBody

variable {o o' : Obj} {body : List (String × CJ)}

theorem name_iff (h : HoldsBody o body) (k : String) :
    k ∈ body.map Prod.fst ↔ k ∈ o.map Prod.fst := by
  constructor
  · intro hk
    obtain ⟨e, he, rfl⟩ := List.mem_map.mp hk
    obtain ⟨x, hx, -⟩ := h.member e he
    exact List.mem_map_of_mem (f := Prod.fst) ((get_eq_some_iff_mem h.nodup).mp hx)
  · intro hk
    obtain ⟨f, hf, rfl⟩ := List.mem_map.mp hk
    exact h.names f hf

theorem value (h : HoldsBody o body) {e : String × CJ} (he : e ∈ body) {f : String × JNode}
    (hf : f ∈ o) (hname : e.1 = f.1) : BodyValue e.2 f.2 := by
  obtain ⟨x, hx, hvalue⟩ := h.member e he
  rw [hname, (get_eq_some_iff_mem h.nodup).mpr hf] at hx
  obtain rfl := Option.some.inj hx
  exact hvalue

/-- The body is written as the node is. -/
theorem write_obj (h : HoldsBody o body) (hbody : (body.map Prod.fst).Nodup) :
    write (.obj body) = .ok (writeParsed (.obj o)) :=
  SameMembers.write_obj ⟨hbody, h.nodup, h.name_iff, fun _ he _ hf hname =>
    (h.value he hf hname).write_eq⟩

theorem str (h : HoldsBody o body) {k s : String} (hmem : (k, .str s) ∈ body) :
    ∃ x, o.get k = some x ∧ x.v = .str s := by
  obtain ⟨x, hx, hvalue⟩ := h.member _ hmem
  exact ⟨x, hx, hvalue.of_str⟩

theorem int (h : HoldsBody o body) {k : String} {n : Int} (hmem : (k, .int n) ∈ body) :
    ∃ x, o.get k = some x ∧ x.v = .num (String.ofList (encodeInt n)) := by
  obtain ⟨x, hx, hvalue⟩ := h.member _ hmem
  exact ⟨x, hx, hvalue.of_int.1⟩

theorem absent (h : HoldsBody o body) {k : String} (hk : k ∉ body.map Prod.fst) :
    o.get k = none := by
  rw [get_eq_none_iff]
  exact fun hmem => hk ((h.name_iff k).mpr hmem)

/-- What holds the same body has the same names, so passes the same test of names. -/
theorem exactMembers_ok (h : HoldsBody o body) (h' : HoldsBody o' body) {kind : String}
    {required optional : List String} (hok : exactMembers kind o required optional = .ok ()) :
    exactMembers kind o' required optional = .ok () := by
  unfold exactMembers at hok ⊢
  split at hok
  · cases hok
  rename_i hallowed
  split at hok
  · cases hok
  rename_i hpresent
  have hallowed' : (o'.find? fun f =>
      f.1 != "type" && !required.contains f.1 && !optional.contains f.1) = none := by
    rw [List.find?_eq_none] at hallowed ⊢
    intro f hf
    have hmem := (h.name_iff f.1).mp ((h'.name_iff f.1).mpr (List.mem_map_of_mem hf))
    obtain ⟨g, hg, hname⟩ := List.mem_map.mp hmem
    rw [← hname]
    exact hallowed g hg
  have hpresent' : (required.find? fun name => (o'.get name).isNone) = none := by
    rw [List.find?_eq_none] at hpresent ⊢
    intro name hname hnone
    refine hpresent name hname ?_
    rw [Option.isNone_iff_eq_none, get_eq_none_iff] at hnone ⊢
    rwa [← h.name_iff, h'.name_iff]
  rw [hallowed', hpresent']

end HoldsBody

end RatifyProtocol.V2
