import Mathlib.Algebra.GroupWithZero.Nat
import RatifyProtocol.V2.JsonNormal
set_option autoImplicit false

/-!
# V2: how many bytes a node covers

A container covers its brackets, its separators and everything inside, so the widths
of what it holds bound its own from below.
-/

namespace RatifyProtocol.V2

open Foundation Foundation.JsonGrammar

/-- The number of bytes a node covers. -/
def JNode.width (n : JNode) : Nat := n.stop - n.start

theorem width_of_valueText {levels i : Nat} {n : JNode} {t : List Char}
    (h : ValueText scannerDialect JNode.ofShape levels i n t) : n.width = size t := by
  obtain ⟨hstart, hstop⟩ := span_of_valueText h
  rw [JNode.width, hstart, hstop, Nat.add_sub_cancel_left]

theorem length_le_size (t : List Char) : t.length ≤ size t := length_le_length_utf8Chars t

theorem length_le_of_stringText {quad : Nat → List Char → Prop} {s : String} {t : List Char}
    (h : StringText quad s t) : s.toList.length + 2 ≤ size t := by
  obtain ⟨ts, hts, rfl⟩ := h
  have hchars : ∀ {cs : List Char} {ts : List (List Char)},
      List.Forall₂ (CharText quad) cs ts → cs.length ≤ ts.flatten.length := by
    intro cs ts h
    induction h with
    | nil => exact Nat.le_refl 0
    | @cons c u cs us hc _ ih =>
      have hpos : 0 < u.length := by cases hc <;> exact Nat.succ_pos _
      rw [List.flatten_cons, List.length_append, List.length_cons]
      omega
  have hlen := hchars hts
  have hsize := length_le_size ('"' :: ts.flatten ++ ['"'])
  simp only [List.cons_append, List.length_cons, List.length_append, List.length_nil] at hsize
  exact Nat.le_trans (by omega) hsize

/-- No value is spelled by nothing. -/
theorem size_pos_of_valueText {levels i : Nat} {n : JNode} {t : List Char}
    (h : ValueText scannerDialect JNode.ofShape levels i n t) : 0 < size t := by
  have hshape : ∀ {element? : Option (Nat → JNode → List Char → Prop)} {shape : JsonShape JNode},
      ShapeText scannerDialect element? i shape t → 0 < t.length := by
    intro element? shape h
    cases h with
    | int number =>
      obtain ⟨c, cs, hopens, -⟩ := opens_encodeInt _
      rw [← integerText_iff.mp number, hopens]
      exact Nat.succ_pos _
    | str string =>
      obtain ⟨ts, -, rfl⟩ := string
      exact Nat.succ_pos _
    | _ => exact Nat.succ_pos _
  cases levels with
  | zero =>
    obtain ⟨shape, h, -⟩ := h
    exact Nat.lt_of_lt_of_le (hshape h) (length_le_size t)
  | succ levels =>
    obtain ⟨shape, h, -⟩ := h
    exact Nat.lt_of_lt_of_le (hshape h) (length_le_size t)

theorem sum_width_le_of_itemsText {levels i : Nat} {xs : List JNode} {t : List Char}
    (h : ItemsText (ValueText scannerDialect JNode.ofShape levels) i xs t) :
    (xs.map fun x => x.width + 1).sum ≤ size t + 1 := by
  induction h with
  | last before item after =>
    have hwidth := width_of_valueText item
    simp only [List.map_cons, List.map_nil, List.sum_cons, List.sum_nil, size_append]
    omega
  | more before item after items ih =>
    have hwidth := width_of_valueText item
    simp only [List.map_cons, List.sum_cons, size_append, size_cons, show ','.utf8Size = 1 from rfl]
    omega

/-- What a member covers at least: its name in quotes, the colon and its value. -/
def memberWidth (m : String × JNode) : Nat := m.1.toList.length + 3 + m.2.width

theorem memberWidth_le_of_memberText {quad : Nat → List Char → Prop} {levels i : Nat}
    {m : String × JNode} {t : List Char}
    (h : MemberText quad (ValueText scannerDialect JNode.ofShape levels) i m t) :
    memberWidth m ≤ size t := by
  obtain ⟨w₀, k, w₁, w₂, u, w₃, -, hname, -, -, hvalue, -, rfl⟩ := h
  have hlen := length_le_of_stringText hname
  have hwidth := width_of_valueText hvalue
  simp only [memberWidth, size_append, size_cons, show ':'.utf8Size = 1 from rfl]
  omega

theorem sum_memberWidth_le_of_membersText {quad : Nat → List Char → Prop} {levels i : Nat}
    {ms : List (String × JNode)} {t : List Char}
    (h : MembersText quad (ValueText scannerDialect JNode.ofShape levels) i ms t) :
    (ms.map fun m => memberWidth m + 1).sum ≤ size t + 1 := by
  induction h with
  | last member =>
    have hmember := memberWidth_le_of_memberText member
    simp only [List.map_cons, List.map_nil, List.sum_cons, List.sum_nil]
    omega
  | more member members ih =>
    have hmember := memberWidth_le_of_memberText member
    simp only [List.map_cons, List.sum_cons, size_append, size_cons, show ','.utf8Size = 1 from rfl]
    omega

/-- A container covers its brackets and what it holds, with a comma between neighbours. -/
def insideWidth : JV → Nat
  | .arr xs => (xs.map fun x => x.width + 1).sum + 1 + (1 - xs.length)
  | .obj fields => (fields.map fun f => memberWidth f + 1).sum + 1 + (1 - fields.length)
  | _ => 0

theorem insideWidth_le_of_valueText {levels i : Nat} {n : JNode} {t : List Char}
    (h : ValueText scannerDialect JNode.ofShape levels i n t) : insideWidth n.v ≤ size t := by
  cases levels with
  | zero =>
    obtain ⟨shape, h, rfl⟩ := h
    cases h with
    | emptyArr room => cases room
    | arr room => cases room
    | emptyObj room => cases room
    | obj room => cases room
    | _ => exact Nat.zero_le _
  | succ levels =>
    obtain ⟨shape, h, rfl⟩ := h
    have hbrackets : ∀ {opening close : Char} (t : List Char), opening.utf8Size = 1 →
        close.utf8Size = 1 → size (opening :: t ++ [close]) = size t + 2 := by
      intro opening close t hopening hclose
      simp only [List.cons_append, size_cons, size_append, size_nil, hopening, hclose]
      omega
    cases h with
    | @emptyArr _ w =>
      rw [hbrackets w rfl rfl]
      exact Nat.le_add_left 2 _
    | @arr _ xs t room items =>
      obtain rfl := Option.some.inj room
      have hsum := sum_width_le_of_itemsText items
      have hsome : 0 < xs.length := by cases items <;> exact Nat.succ_pos _
      rw [hbrackets t rfl rfl]
      change (xs.map fun x => x.width + 1).sum + 1 + (1 - xs.length) ≤ size t + 2
      omega
    | @emptyObj _ w =>
      rw [hbrackets w rfl rfl]
      exact Nat.le_add_left 2 _
    | @obj _ ms t room members =>
      obtain rfl := Option.some.inj room
      have hsum := sum_memberWidth_le_of_membersText members
      have hsome : 0 < ms.length := by cases members <;> exact Nat.succ_pos _
      rw [hbrackets t rfl rfl]
      change (ms.map fun f => memberWidth f + 1).sum + 1 + (1 - ms.length) ≤ size t + 2
      omega
    | _ => exact Nat.zero_le _

theorem Subnode.trans {x y z : JNode} (h : Subnode x y) (h' : Subnode y z) : Subnode x z := by
  induction h' with
  | root => exact h
  | item mem _ ih => exact .item mem ih
  | field mem _ ih => exact .field mem ih

theorem subnode_of_mem_arr {n x : JNode} {xs : List JNode} (hn : n.v = .arr xs) (hx : x ∈ xs) :
    Subnode x n := by
  obtain ⟨v, i, j⟩ := n
  obtain rfl : v = .arr xs := hn
  exact .item hx .root

theorem subnode_of_mem_obj {n : JNode} {fields : List (String × JNode)} {f : String × JNode}
    (hn : n.v = .obj fields) (hf : f ∈ fields) : Subnode f.2 n := by
  obtain ⟨v, i, j⟩ := n
  obtain rfl : v = .obj fields := hn
  exact .field hf .root

section Parsed

variable {b : Bytes} {root n : JNode}

theorem width_le_length (h : parseJson b = .ok root) (hsub : Subnode n root) :
    n.width ≤ b.length := by
  have hstop := (exists_append_spanned h hsub).2.1
  exact Nat.le_trans (Nat.sub_le ..) hstop

theorem insideWidth_le_width (h : parseJson b = .ok root) (hsub : Subnode n root) :
    insideWidth n.v ≤ n.width := by
  obtain ⟨levels, -, front, u, back, -, hu⟩ := exists_text_of_subnode h hsub
  rw [width_of_valueText hu]
  exact insideWidth_le_of_valueText hu

theorem width_pos (h : parseJson b = .ok root) (hsub : Subnode n root) : 0 < n.width := by
  obtain ⟨levels, -, front, u, back, -, hu⟩ := exists_text_of_subnode h hsub
  rw [width_of_valueText hu]
  exact size_pos_of_valueText hu

theorem length_spanned (h : parseJson b = .ok root) (hsub : Subnode n root) :
    (spanned b n).length = n.width := by
  obtain ⟨levels, -, front, u, back, rfl, hu⟩ := exists_text_of_subnode h hsub
  rw [spanned_of_valueText hu, width_of_valueText hu]
  rfl

end Parsed

end RatifyProtocol.V2
