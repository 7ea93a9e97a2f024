import RatifyProtocol.Foundation.OrderedMap
import RatifyProtocol.V2.Json
set_option autoImplicit false

/-!
# V2: constraint parameters

`ParamsValue` of `types.rs` with its conversions in `v2/constraints.rs` and its
checks in `resource_path.rs`.  An object is a map in key order, so two parameter
objects with the same values are the same object.
-/

namespace RatifyProtocol.V2

open Foundation

/-- A JSON value without fractions.  The entries of an object are those of a
`BTreeMap`, see `ParamsValue.Ordered`. -/
inductive ParamsValue where
  | null
  | bool (b : Bool)
  | int (n : Int)
  | str (s : String)
  | array (items : List ParamsValue)
  | object (map : List (String × ParamsValue))

/-- Every object inside lists its keys in strictly ascending order. -/
inductive ParamsValue.Ordered : ParamsValue → Prop
  | null : Ordered .null
  | bool (b : Bool) : Ordered (.bool b)
  | int (n : Int) : Ordered (.int n)
  | str (s : String) : Ordered (.str s)
  | array (items : List ParamsValue) : (∀ x ∈ items, Ordered x) → Ordered (.array items)
  | object (map : List (String × ParamsValue)) :
      (map.Pairwise fun a b => a.1 < b.1) → (∀ e ∈ map, Ordered e.2) → Ordered (.object map)

/-- `BTreeMap<String, ParamsValue>`. -/
structure ParamsMap where
  entries : List (String × ParamsValue)
  ordered : (ParamsValue.object entries).Ordered

theorem ParamsMap.ext {m m' : ParamsMap} (h : m.entries = m'.entries) : m = m' := by
  cases m
  cases m'
  cases h
  rfl

/-! ## To canonical JSON -/

mutual

def paramsCj : ParamsValue → CJ
  | .null => .null
  | .bool b => .bool b
  | .int n => .int n
  | .str s => .str s
  | .array items => .arr (paramsItemsCj items)
  | .object map => .obj (paramsMembersCj map)

def paramsItemsCj : List ParamsValue → List CJ
  | [] => []
  | x :: xs => paramsCj x :: paramsItemsCj xs

def paramsMembersCj : List (String × ParamsValue) → List (String × CJ)
  | [] => []
  | (k, x) :: map => (k, paramsCj x) :: paramsMembersCj map

end

def paramsMapCj (map : ParamsMap) : CJ := .obj (paramsMembersCj map.entries)

theorem paramsItemsCj_eq_map (xs : List ParamsValue) : paramsItemsCj xs = xs.map paramsCj := by
  induction xs with
  | nil => rfl
  | cons x xs ih => rw [paramsItemsCj, ih, List.map_cons]

theorem paramsMembersCj_eq_map (map : List (String × ParamsValue)) :
    paramsMembersCj map = map.map fun e => (e.1, paramsCj e.2) := by
  induction map with
  | nil => rfl
  | cons e map ih =>
    obtain ⟨k, x⟩ := e
    rw [paramsMembersCj, ih, List.map_cons]

/-! ## From a parsed node -/

mutual

def nodeToParams : JNode → V2Result ParamsValue
  | .mk v _ _ => parsedToParams v

def parsedToParams : JV → V2Result ParamsValue
  | .null => .ok .null
  | .bool b => .ok (.bool b)
  | .num t =>
    match parseI64 t.toList with
    | some n => .ok (.int n)
    | none => plain "params values must be safe integers"
  | .str s => .ok (.str s)
  | .arr items => do
    let xs ← itemsToParams items
    .ok (.array xs)
  | .obj fields => do
    let map ← membersToParams [] fields
    .ok (.object map)

def itemsToParams : List JNode → V2Result (List ParamsValue)
  | [] => .ok []
  | x :: xs => do
    let p ← nodeToParams x
    let ps ← itemsToParams xs
    .ok (p :: ps)

/-- Insert every member into the map so far. -/
def membersToParams (map : List (String × ParamsValue)) :
    List (String × JNode) → V2Result (List (String × ParamsValue))
  | [] => .ok map
  | (k, x) :: fields => do
    let p ← nodeToParams x
    membersToParams (OrderedMap.place k p map) fields

end

/-- The entries of a map so far. -/
def EntriesOrdered (map : List (String × ParamsValue)) : Prop :=
  (ParamsValue.object map).Ordered

theorem entriesOrdered_place {k : String} {p : ParamsValue} {map : List (String × ParamsValue)}
    (hp : p.Ordered) (h : EntriesOrdered map) : EntriesOrdered (OrderedMap.place k p map) := by
  cases h with
  | object _ hascending hvalues =>
    refine .object _ (OrderedMap.ascending_place k p hascending) fun e he => ?_
    rcases OrderedMap.mem_place he with rfl | he
    · exact hp
    · exact hvalues e he

mutual

theorem ordered_of_nodeToParams : ∀ (n : JNode) (p : ParamsValue),
    nodeToParams n = .ok p → p.Ordered
  | .mk v _ _, p, h => ordered_of_parsedToParams v p h

theorem ordered_of_parsedToParams : ∀ (v : JV) (p : ParamsValue),
    parsedToParams v = .ok p → p.Ordered
  | .null, _, h => by
    cases h
    exact .null
  | .bool b, _, h => by
    cases h
    exact .bool b
  | .num t, p, h => by
    simp only [parsedToParams] at h
    split at h
    · cases h
      exact .int _
    · cases h
  | .str s, _, h => by
    cases h
    exact .str s
  | .arr items, p, h => by
    simp only [parsedToParams, bind_eq_ok_iff, Except.ok.injEq] at h
    obtain ⟨xs, hxs, rfl⟩ := h
    exact .array xs (ordered_of_itemsToParams items xs hxs)
  | .obj fields, p, h => by
    simp only [parsedToParams, bind_eq_ok_iff, Except.ok.injEq] at h
    obtain ⟨map, hmap, rfl⟩ := h
    exact ordered_of_membersToParams fields [] map
      (.object [] .nil fun e he => absurd he List.not_mem_nil) hmap

theorem ordered_of_itemsToParams : ∀ (items : List JNode) (xs : List ParamsValue),
    itemsToParams items = .ok xs → ∀ x ∈ xs, x.Ordered
  | [], _, h => by
    cases h
    exact fun x hx => absurd hx List.not_mem_nil
  | n :: items, xs, h => by
    simp only [itemsToParams, bind_eq_ok_iff, Except.ok.injEq] at h
    obtain ⟨p, hp, ps, hps, rfl⟩ := h
    intro x hx
    rcases List.mem_cons.mp hx with rfl | hx
    · exact ordered_of_nodeToParams n x hp
    · exact ordered_of_itemsToParams items ps hps x hx

theorem ordered_of_membersToParams : ∀ (fields : List (String × JNode))
    (map map' : List (String × ParamsValue)), EntriesOrdered map →
    membersToParams map fields = .ok map' → EntriesOrdered map'
  | [], _, _, hmap, h => by
    cases h
    exact hmap
  | (k, n) :: fields, map, map', hmap, h => by
    simp only [membersToParams, bind_eq_ok_iff] at h
    obtain ⟨p, hp, h⟩ := h
    exact ordered_of_membersToParams fields _ map'
      (entriesOrdered_place (ordered_of_nodeToParams n p hp) hmap) h

end

/-- The parameters of a node, `None` when it is not an object. -/
def paramsObject (node : JNode) : V2Result (Option ParamsMap) :=
  match h : nodeToParams node with
  | .error e => .error e
  | .ok (.object map) => .ok (some ⟨map, ordered_of_nodeToParams node _ h⟩)
  | .ok _ => .ok none

theorem paramsObject_of_nodeToParams {n : JNode} {m : ParamsMap}
    (h : nodeToParams n = .ok (.object m.entries)) : paramsObject n = .ok (some m) := by
  unfold paramsObject
  split
  · rename_i he
    rw [h] at he
    cases he
  · rename_i map hmap
    rw [h] at hmap
    cases hmap
    rfl
  · rename_i p hne hp
    rw [h] at hp
    cases hp
    exact absurd rfl (hne m.entries)

theorem nodeToParams_of_paramsObject {n : JNode} {m : ParamsMap}
    (h : paramsObject n = .ok (some m)) : nodeToParams n = .ok (.object m.entries) := by
  unfold paramsObject at h
  split at h
  · cases h
  · rename_i map hmap
    cases h
    exact hmap
  · cases h

theorem paramsObject_of_error {n : JNode} {e : V2Error} (h : nodeToParams n = .error e) :
    paramsObject n = .error e := by
  unfold paramsObject
  split
  · rename_i e' he
    rw [h] at he
    cases he
    rfl
  · rename_i map hmap
    rw [h] at hmap
    cases hmap
  · rename_i p hne hp
    rw [h] at hp
    cases hp

theorem paramsObject_of_other {n : JNode} {p : ParamsValue} (h : nodeToParams n = .ok p)
    (hp : ∀ map, p ≠ .object map) : paramsObject n = .ok none := by
  unfold paramsObject
  split
  · rename_i e he
    rw [h] at he
    cases he
  · rename_i map hmap
    rw [h] at hmap
    cases hmap
    exact absurd rfl (hp map)
  · rfl

/-! ## Bounds -/

/-- The nesting check every value passes first. -/
def tooDeep (depth : Nat) : Except String Unit :=
  if depth > maxJsonNestingDepth then
    .error s!"params nesting exceeds MAX_JSON_NESTING_DEPTH ({maxJsonNestingDepth})"
  else .ok ()

mutual

/-- `validate_params_value`: safe integers, nested within the limit. -/
def validateParamsValue (depth : Nat) : ParamsValue → Except String Unit
  | .null => tooDeep depth
  | .bool _ => tooDeep depth
  | .str _ => tooDeep depth
  | .int n => do
    tooDeep depth
    if n > maxSafe ∨ n < -maxSafe then
      .error "params integer exceeds the safe-integer range; carry it as a decimal string"
    else .ok ()
  | .array items => do
    tooDeep depth
    validateParamsItems (depth + 1) items
  | .object map => do
    tooDeep depth
    validateParamsMembers (depth + 1) map

def validateParamsItems (depth : Nat) : List ParamsValue → Except String Unit
  | [] => .ok ()
  | x :: xs => do
    validateParamsValue depth x
    validateParamsItems depth xs

def validateParamsMembers (depth : Nat) : List (String × ParamsValue) → Except String Unit
  | [] => .ok ()
  | (_, x) :: map => do
    validateParamsValue depth x
    validateParamsMembers depth map

end

end RatifyProtocol.V2
