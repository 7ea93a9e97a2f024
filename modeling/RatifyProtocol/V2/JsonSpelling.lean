import RatifyProtocol.V2.JsonDepth
import RatifyProtocol.V2.WireBody
import RatifyProtocol.V2.WireSize
set_option autoImplicit false

/-!
# V2: spellings of one value

The scanner takes any escape of a character the grammar has, so one value has
many texts.  Every text that spells the strings of a value by the grammar, and is
canonical otherwise, reads as a node that denotes the value, wherever it stands.
-/

namespace RatifyProtocol.V2

open Foundation Foundation.JsonGrammar

/-- `t` writes `v` as the canonical writer does, but for the spelling of the
characters of its strings. -/
inductive Spells : CJ → List Char → Prop
  | null : Spells .null ['n', 'u', 'l', 'l']
  | true : Spells (.bool true) ['t', 'r', 'u', 'e']
  | false : Spells (.bool false) ['f', 'a', 'l', 's', 'e']
  | int (n : Int) (range : -maxSafe ≤ n ∧ n ≤ maxSafe) : Spells (.int n) (encodeInt n)
  | str (s : String) (t : List Char) (string : ScannedString s t) : Spells (.str s) t
  | bytes (b : Bytes) : Spells (.bytes b) (encodeString (Base64.encodeChars b))
  | arr (xs : List CJ) (ts : List (List Char)) (items : List.Forall₂ Spells xs ts) :
      Spells (.arr xs) ('[' :: commaSeparated ts ++ [']'])
  | obj (fields : List (String × CJ)) (ts : List (List Char))
      (members : List.Forall₂ Spells ((inKeyOrder fields).map Prod.snd) ts) :
      Spells (.obj fields)
        ('\x7b' :: commaSeparated (List.zipWith memberText (inKeyOrder fields) ts) ++ ['\x7d'])

theorem scannedString_encodeString (s : String) : ScannedString s (encodeString s.toList) :=
  (stringText_encodeString s).mono strict_within_scanner.quad

theorem space_nil : Space [] := fun _ hc => absurd hc List.not_mem_nil

section Elements

variable {element : Nat → JNode → List Char → Prop}

/-- Every element has a node wherever it stands. -/
def Placed (element : Nat → JNode → List Char → Prop) (v : CJ) (t : List Char) : Prop :=
  ∀ i, ∃ n, element i n t ∧ Denotes v n

theorem exists_member {f : String × CJ} {t : List Char} (h : Placed element f.2 t) (i : Nat) :
    ∃ n, MemberText scannerDialect.quad element i (f.1, n) (memberText f t) ∧ Denotes f.2 n := by
  obtain ⟨n, hn, hd⟩ := h (i + size ([] ++ encodeString f.1.toList ++ []) + 1 + size [])
  exact ⟨n, ⟨[], encodeString f.1.toList, [], [], t, [], space_nil,
    scannedString_encodeString f.1, space_nil, space_nil, hn, space_nil, by simp [memberText]⟩, hd⟩

theorem exists_members {f : String × CJ} {fs : List (String × CJ)} {t : List Char}
    {ts : List (List Char)}
    (h : List.Forall₂ (Placed element) ((f :: fs).map Prod.snd) (t :: ts)) (i : Nat) :
    ∃ ms, MembersText scannerDialect.quad element i ms
        (commaSeparated (List.zipWith memberText (f :: fs) (t :: ts)))
      ∧ (f :: fs).map Prod.fst = ms.map Prod.fst
      ∧ List.Forall₂ Denotes ((f :: fs).map Prod.snd) (ms.map Prod.snd) := by
  induction fs generalizing f t ts i with
  | nil =>
    obtain ⟨hf, hrest⟩ := List.forall₂_cons.mp h
    cases hrest
    obtain ⟨n, hn, hd⟩ := exists_member hf i
    refine ⟨[(f.1, n)], ?_, rfl, .cons hd .nil⟩
    simpa using MembersText.last hn
  | cons g fs ih =>
    obtain ⟨hf, hrest⟩ := List.forall₂_cons.mp h
    cases hrest with
    | @cons _ u _ us hg hgs =>
      obtain ⟨n, hn, hd⟩ := exists_member hf i
      obtain ⟨ms, hms, hfst, hds⟩ := ih (.cons hg hgs) (i + size (memberText f t) + 1)
      refine ⟨(f.1, n) :: ms, ?_, by rw [List.map_cons, hfst, List.map_cons], .cons hd hds⟩
      simpa using MembersText.more hn hms

end Elements

/-- A spelled value reads, wherever it stands, as a node that denotes it. -/
theorem placed_of_spells {levels : Nat} {v : CJ} (h : Fits levels v) :
    ∀ {t : List Char}, Spells v t →
      Placed (ValueText scannerDialect JNode.ofShape levels) v t := by
  have hscalar : ∀ {levels i : Nat} {shape : JsonShape JNode} {t : List Char},
      (∀ element?, ShapeText scannerDialect element? i shape t) →
      ValueText scannerDialect JNode.ofShape levels i (JNode.ofShape shape i (i + size t)) t := by
    intro levels i shape t h
    cases levels with
    | zero => exact ⟨shape, h none, rfl⟩
    | succ levels => exact ⟨shape, h _, rfl⟩
  induction h with
  | null levels =>
    rintro t ⟨⟩ i
    exact ⟨_, hscalar fun _ => .null, .null ..⟩
  | bool levels b =>
    intro t ht i
    cases ht with
    | «true» => exact ⟨_, hscalar fun _ => .true, .bool ..⟩
    | «false» => exact ⟨_, hscalar fun _ => .false, .bool ..⟩
  | int levels n =>
    rintro t ⟨⟩ i
    rename_i range
    exact ⟨_, hscalar fun _ => .int (integerText_iff.mpr rfl) range, .int ..⟩
  | str levels s =>
    rintro t ⟨⟩ i
    rename_i string
    exact ⟨_, hscalar fun _ => .str string, .str ..⟩
  | bytes levels b =>
    rintro t ⟨⟩ i
    have hstring := scannedString_encodeString (String.ofList (Base64.encodeChars b))
    rw [String.toList_ofList] at hstring
    exact ⟨_, hscalar fun _ => .str hstring, .bytes ..⟩
  | arr levels xs _ ih =>
    intro t ht i
    cases ht with
    | arr _ ts hitems =>
      have hplaced : List.Forall₂ (Placed (ValueText scannerDialect JNode.ofShape levels)) xs ts :=
        ((List.forall₂_and_left xs ts).mpr ⟨ih, hitems⟩).imp fun _ _ h => h.1 h.2
      cases hplaced with
      | nil => exact ⟨_, ⟨.arr [], .emptyArr rfl space_nil, rfl⟩, .arr _ _ _ _ .nil⟩
      | cons hx hxs =>
        obtain ⟨ns, hns, hds⟩ := exists_itemsText (.cons hx hxs) (i + 1)
        exact ⟨_, ⟨.arr ns, .arr rfl hns, rfl⟩, .arr _ _ _ _ hds⟩
  | obj levels fields hkeys _ ih =>
    intro t ht i
    cases ht with
    | obj _ ts hmembers =>
      have hperm := inKeyOrder_perm fields
      have hsorted : ∀ v ∈ (inKeyOrder fields).map Prod.snd, ∀ {t}, Spells v t →
          Placed (ValueText scannerDialect JNode.ofShape levels) v t := by
        intro v hv
        obtain ⟨f, hf, rfl⟩ := List.mem_map.mp hv
        exact ih f (hperm.mem_iff.mp hf)
      have hplaced := ((List.forall₂_and_left _ ts).mpr ⟨hsorted, hmembers⟩).imp fun _ _ h => h.1 h.2
      have hnames : ((inKeyOrder fields).map Prod.fst).Nodup :=
        (hperm.map Prod.fst).nodup_iff.mpr hkeys
      have hnode : ∃ ms, ShapeText scannerDialect
            (some (ValueText scannerDialect JNode.ofShape levels)) i (.obj ms)
            ('\x7b' :: commaSeparated (List.zipWith memberText (inKeyOrder fields) ts) ++ ['\x7d'])
          ∧ (inKeyOrder fields).map Prod.fst = ms.map Prod.fst
          ∧ List.Forall₂ Denotes ((inKeyOrder fields).map Prod.snd) (ms.map Prod.snd) := by
        generalize inKeyOrder fields = sorted at hplaced hnames
        cases sorted with
        | nil =>
          cases hplaced
          exact ⟨[], .emptyObj rfl space_nil, rfl, .nil⟩
        | cons f fs =>
          cases hplaced with
          | cons hf hfs =>
            obtain ⟨ms, hms, hfst, hds⟩ := exists_members (.cons hf hfs) (i + 1)
            exact ⟨ms, .obj rfl hms (hfst ▸ hnames), hfst, hds⟩
      obtain ⟨ms, hshape, hfst, hds⟩ := hnode
      exact ⟨_, ⟨.obj ms, hshape, rfl⟩, .obj _ _ _ _ hfst hds⟩

/-! ## Texts of one value -/

/-- Canonical text is a spelling. -/
theorem spells_of_write {levels : Nat} {v : CJ} (h : WireValue levels v) :
    ∀ {t : List Char}, write v = .ok t → Spells v t := by
  induction h with
  | bool levels b =>
    intro t ht
    cases b with
    | true =>
      obtain rfl := Except.ok.inj (by simpa only [write] using ht)
      exact .true
    | false =>
      obtain rfl := Except.ok.inj (by simpa only [write] using ht)
      exact .false
  | int levels n hn =>
    intro t ht
    obtain rfl : encodeInt n = t := by simpa [write, hn] using ht
    exact .int n hn
  | str levels s =>
    intro t ht
    obtain rfl := Except.ok.inj (by simpa only [write] using ht)
    exact .str s _ (scannedString_encodeString s)
  | bytes levels b =>
    intro t ht
    obtain rfl := Except.ok.inj (by simpa only [write] using ht)
    exact .bytes b
  | arr levels xs _ ih =>
    intro t ht
    simp only [write, writeItems_eq_mapM, bind_eq_ok_iff, mapM_eq_ok_iff, Except.ok.injEq] at ht
    obtain ⟨ts, hts, rfl⟩ := ht
    exact .arr xs ts (((List.forall₂_and_left xs ts).mpr ⟨ih, hts⟩).imp fun _ _ h => h.1 h.2)
  | obj levels fields _ _ _ ih =>
    intro t ht
    obtain ⟨ts, hts, rfl⟩ := write_obj_eq_ok_iff.mp ht
    refine .obj fields ts (List.forall₂_map_left_iff.mpr ?_)
    have hsorted : ∀ f ∈ inKeyOrder fields, ∀ {t}, write f.2 = .ok t → Spells f.2 t :=
      fun f hf => ih f ((inKeyOrder_perm fields).mem_iff.mp hf)
    exact ((List.forall₂_and_left _ ts).mpr ⟨hsorted, hts⟩).imp fun _ _ h => h.1 h.2

end RatifyProtocol.V2
