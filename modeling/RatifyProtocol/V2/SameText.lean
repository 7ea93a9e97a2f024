import RatifyProtocol.V2.JsonCanonical
set_option autoImplicit false

/-!
# V2: equal canonical bytes

Two values have the same canonical bytes only if one parsed node holds both.
The rules below take such a pair apart, constructor by constructor, so that a
record is recovered from its canonical form one member at a time.
-/

namespace RatifyProtocol.V2

open Foundation

/-- One parsed node holds both values. -/
def SameText (v w : CJ) : Prop := ∃ n, Denotes v n ∧ Denotes w n

/-- Values with the same canonical bytes are held by the node those bytes parse to. -/
theorem sameText_of_canonical {v w : CJ} {b : Bytes} (hv : Fits maxJsonNestingDepth v)
    (hw : Fits maxJsonNestingDepth w) (hvb : canonical v = .ok b) (hwb : canonical w = .ok b) :
    SameText v w := by
  obtain ⟨n, hn, hd⟩ := parseJson_canonical hv hvb
  obtain ⟨m, hm, he⟩ := parseJson_canonical hw hwb
  obtain rfl := Except.ok.inj (hn.symm.trans hm)
  exact ⟨n, hd, he⟩

/-! ## Room for a value -/

theorem fits_arr_map {α : Type} {levels : Nat} {f : α → CJ} {xs : List α}
    (h : ∀ x ∈ xs, Fits levels (f x)) : Fits (levels + 1) (.arr (xs.map f)) := by
  apply Fits.arr
  intro v hv
  obtain ⟨x, hx, rfl⟩ := List.mem_map.mp hv
  exact h x hx

theorem fits_strs (levels : Nat) (values : List String) : Fits (levels + 1) (CJ.strs values) :=
  fits_arr_map fun s _ => .str levels s

/-! ## What a node tells of a scalar -/

/-- Decimal text determines its integer. -/
theorem encodeInt_injective : Function.Injective encodeInt := by
  intro a b h
  have hdigits : ∀ n : Int, Nat.toDigits 10 n.natAbs ≠ [] := fun _ => Nat.toDigits_ne_nil
  have hinj : ∀ {m n : Nat}, Nat.toDigits 10 m = Nat.toDigits 10 n → m = n := by
    intro m n hmn
    rw [← Nat.ofDigitChars_ten_toDigits (n := m), hmn, Nat.ofDigitChars_ten_toDigits]
  have hsign : ∀ (n : Nat) (cs : List Char), Nat.toDigits 10 n ≠ '-' :: cs := by
    intro n cs hn
    have hdigit := all_isDigit_toDigits n '-' (hn ▸ List.mem_cons_self)
    revert hdigit
    decide
  unfold encodeInt at h
  split at h <;> split at h
  · have := hinj (List.cons.inj h).2
    omega
  · exact absurd h.symm (hsign _ _)
  · exact absurd h (hsign _ _)
  · have := hinj h
    omega

/-- The token text of a number. -/
def encodedInt (n : JNode) : Option (List Char) :=
  match n.v with
  | .num text => some text.toList
  | _ => none

/-- The characters of a text. -/
def encodedBytes (n : JNode) : Option (List Char) :=
  match n.v with
  | .str text => some text.toList
  | _ => none

theorem encodedInt_of_denotes {a : Int} {n : JNode} (h : Denotes (.int a) n) :
    encodedInt n = some (encodeInt a) := by
  cases h
  simp only [encodedInt, JNode.v, String.toList_ofList]

theorem encodedBytes_of_denotes {b : Bytes} {n : JNode} (h : Denotes (.bytes b) n) :
    encodedBytes n = some (Base64.encodeChars b) := by
  cases h
  simp only [encodedBytes, JNode.v, String.toList_ofList]

/-! ## Scalars -/

namespace SameText

theorem symm {v w : CJ} (h : SameText v w) : SameText w v := by
  obtain ⟨n, hv, hw⟩ := h
  exact ⟨n, hw, hv⟩

@[simp] theorem null : SameText .null .null := ⟨.mk .null 0 0, .null 0 0, .null 0 0⟩

@[simp] theorem bool_iff {a b : Bool} : SameText (.bool a) (.bool b) ↔ a = b := by
  constructor
  · intro h
    obtain ⟨n, hv, hw⟩ := h
    cases hv
    cases hw
    rfl
  · intro h
    exact h ▸ ⟨_, .bool a 0 0, .bool a 0 0⟩

@[simp] theorem str_iff {s t : String} : SameText (.str s) (.str t) ↔ s = t := by
  constructor
  · intro h
    obtain ⟨n, hv, hw⟩ := h
    cases hv
    cases hw
    rfl
  · intro h
    exact h ▸ ⟨_, .str s 0 0, .str s 0 0⟩

@[simp] theorem bytes_iff {a b : Bytes} : SameText (.bytes a) (.bytes b) ↔ a = b := by
  constructor
  · intro h
    obtain ⟨n, hv, hw⟩ := h
    have htext : encodedBytes n = some (Base64.encodeChars a) := encodedBytes_of_denotes hv
    rw [encodedBytes_of_denotes hw] at htext
    exact (Base64.encodeChars_injective (Option.some.inj htext)).symm
  · intro h
    exact h ▸ ⟨_, .bytes a 0 0, .bytes a 0 0⟩

@[simp] theorem int_iff {a b : Int} : SameText (.int a) (.int b) ↔ a = b := by
  constructor
  · intro h
    obtain ⟨n, hv, hw⟩ := h
    have htext : encodedInt n = some (encodeInt a) := encodedInt_of_denotes hv
    rw [encodedInt_of_denotes hw] at htext
    exact (encodeInt_injective (Option.some.inj htext)).symm
  · intro h
    exact h ▸ ⟨_, .int a 0 0, .int a 0 0⟩

@[simp] theorem not_null_str {s : String} : ¬SameText .null (.str s) := by
  intro h
  obtain ⟨n, hv, hw⟩ := h
  cases hv
  cases hw

@[simp] theorem not_str_null {s : String} : ¬SameText (.str s) .null :=
  fun h => not_null_str h.symm

@[simp] theorem not_null_int {a : Int} : ¬SameText .null (.int a) := by
  intro h
  obtain ⟨n, hv, hw⟩ := h
  cases hv
  cases hw

@[simp] theorem not_int_null {a : Int} : ¬SameText (.int a) .null :=
  fun h => not_null_int h.symm

@[simp] theorem not_null_bytes {b : Bytes} : ¬SameText .null (.bytes b) := by
  intro h
  obtain ⟨n, hv, hw⟩ := h
  cases hv
  cases hw

@[simp] theorem not_bytes_null {b : Bytes} : ¬SameText (.bytes b) .null :=
  fun h => not_null_bytes h.symm

@[simp] theorem not_null_obj {fields : List (String × CJ)} : ¬SameText .null (.obj fields) := by
  intro h
  obtain ⟨n, hv, hw⟩ := h
  cases hv
  cases hw

@[simp] theorem not_obj_null {fields : List (String × CJ)} : ¬SameText (.obj fields) .null :=
  fun h => not_null_obj h.symm

/-! ## Arrays -/

theorem arr {xs ys : List CJ} (h : SameText (.arr xs) (.arr ys)) :
    List.Forall₂ SameText xs ys := by
  obtain ⟨n, hv, hw⟩ := h
  cases hv with
  | arr _ ns i j hns =>
    cases hw with
    | arr _ _ _ _ hms =>
      clear i j
      induction hns generalizing ys with
      | nil =>
        cases hms
        exact .nil
      | cons hx _ ih =>
        cases hms with
        | cons hy hys => exact .cons ⟨_, hx, hy⟩ (ih hys)

/-- Arrays of records with the same text hold the same records. -/
theorem arr_map {α β : Type} {f : α → CJ} {g : β → CJ} {xs : List α} {ys : List β}
    (h : SameText (.arr (xs.map f)) (.arr (ys.map g))) :
    List.Forall₂ (fun x y => SameText (f x) (g y)) xs ys := by
  have hall := h.arr
  rwa [List.forall₂_map_left_iff, List.forall₂_map_right_iff] at hall

/-- Records that one text determines are the same throughout an array. -/
theorem eq_of_arr_map {α : Type} {f : α → CJ} {xs ys : List α}
    (hf : ∀ x ∈ xs, ∀ y ∈ ys, SameText (f x) (f y) → x = y)
    (h : SameText (.arr (xs.map f)) (.arr (ys.map f))) : xs = ys := by
  have hall := h.arr_map
  clear h
  induction hall with
  | nil => rfl
  | cons hxy _ ih =>
    rw [hf _ List.mem_cons_self _ List.mem_cons_self hxy,
      ih fun x hx y hy => hf x (List.mem_cons_of_mem _ hx) y (List.mem_cons_of_mem _ hy)]

@[simp] theorem strs_iff {xs ys : List String} : SameText (CJ.strs xs) (CJ.strs ys) ↔ xs = ys := by
  constructor
  · intro h
    exact eq_of_arr_map (fun s _ t _ hst => str_iff.mp hst) h
  · intro h
    subst h
    refine ⟨_, .arr _ (xs.map fun s => .mk (.str s) 0 0) 0 0 ?_, .arr _ _ 0 0 ?_⟩ <;>
    · rw [List.forall₂_map_left_iff, List.forall₂_map_right_iff]
      exact List.forall₂_same.mpr fun s _ => .str s 0 0

/-! ## Objects -/

/-- A member both objects have holds values with the same text. -/
theorem member {fs gs : List (String × CJ)} (h : SameText (.obj fs) (.obj gs))
    (hfs : (fs.map Prod.fst).Nodup) (hgs : (gs.map Prod.fst).Nodup) {k : String} {v w : CJ}
    (hv : (k, v) ∈ fs) (hw : (k, w) ∈ gs) : SameText v w := by
  obtain ⟨n, hf, hg⟩ := h
  obtain ⟨o, ho, hfview⟩ := objView_of_denotes hf hfs
  obtain ⟨o', ho', hgview⟩ := objView_of_denotes hg hgs
  obtain rfl := Except.ok.inj (ho.symm.trans ho')
  obtain ⟨m, hm, hdv⟩ := hfview.get k v hv
  obtain ⟨m', hm', hdw⟩ := hgview.get k w hw
  obtain rfl := Option.some.inj (hm.symm.trans hm')
  exact ⟨m, hdv, hdw⟩

/-- Objects with the same names in the same order hold the same values. -/
theorem members {fs gs : List (String × CJ)} (h : SameText (.obj fs) (.obj gs))
    (hnames : fs.map Prod.fst = gs.map Prod.fst) (hnodup : (fs.map Prod.fst).Nodup) :
    List.Forall₂ SameText (fs.map Prod.snd) (gs.map Prod.snd) := by
  rw [List.forall₂_map_left_iff, List.forall₂_map_right_iff]
  have hlen : fs.length = gs.length := by simpa using congrArg List.length hnames
  refine List.forall₂_iff_get.mpr ⟨hlen, fun i hi hi' => ?_⟩
  have hname : (fs.get ⟨i, hi⟩).1 = (gs.get ⟨i, hi'⟩).1 := by
    have hget := congrArg (fun names => names[i]?) hnames
    simpa [hi, hi'] using hget
  refine h.member hnodup (hnames ▸ hnodup) (List.get_mem fs ⟨i, hi⟩) ?_
  rw [hname]
  exact List.get_mem gs ⟨i, hi'⟩

end SameText

end RatifyProtocol.V2
