import RatifyProtocol.V2.JsonCanonical
set_option autoImplicit false

/-!
# V2: parsed values without their spans

Two nodes that hold the same value at different places of a text have one bare
form.  Every node that denotes one value has the same bare form, so a check that
ignores spans answers alike wherever in a document the value stands.
-/

namespace RatifyProtocol.V2

open Foundation

mutual

/-- The node with every span set to zero. -/
def JNode.bare : JNode → JNode
  | .mk v _ _ => .mk v.bare 0 0

def JV.bare : JV → JV
  | .null => .null
  | .bool b => .bool b
  | .num t => .num t
  | .str s => .str s
  | .arr xs => .arr (bareItems xs)
  | .obj fields => .obj (bareFields fields)

def bareItems : List JNode → List JNode
  | [] => []
  | x :: xs => x.bare :: bareItems xs

def bareFields : List (String × JNode) → List (String × JNode)
  | [] => []
  | (k, x) :: fields => (k, x.bare) :: bareFields fields

end

theorem bareItems_eq_map (xs : List JNode) : bareItems xs = xs.map JNode.bare := by
  induction xs with
  | nil => rfl
  | cons x xs ih => rw [bareItems, ih, List.map_cons]

theorem bareFields_eq_map (fields : List (String × JNode)) :
    bareFields fields = fields.map fun f => (f.1, f.2.bare) := by
  induction fields with
  | nil => rfl
  | cons f fields ih =>
    obtain ⟨k, x⟩ := f
    rw [bareFields, ih, List.map_cons]

@[simp] theorem JNode.isNull_bare (n : JNode) : n.bare.isNull = n.isNull := by
  obtain ⟨v, i, j⟩ := n
  cases v <;> rfl

/-- Names are found alike among the members and their bare forms. -/
theorem find?_bareFields (p : String → Bool) (fields : List (String × JNode)) :
    ((bareFields fields).find? fun f => p f.1)
      = (fields.find? fun f => p f.1).map fun f => (f.1, f.2.bare) := by
  rw [bareFields_eq_map]
  induction fields with
  | nil => rfl
  | cons f fields ih =>
    simp only [List.map_cons, List.find?_cons]
    cases p f.1 with
    | true => rfl
    | false => exact ih

theorem get_bareFields (fields : List (String × JNode)) (k : String) :
    Obj.get (bareFields fields) k = (Obj.get fields k).map JNode.bare := by
  simp only [Obj.get, find?_bareFields fun name => name == k, Option.map_map]
  rfl

/-- One value has one bare form. -/
theorem bare_of_denotes {levels : Nat} {v : CJ} (hv : Fits levels v) :
    ∀ {n n' : JNode}, Denotes v n → Denotes v n' → n.bare = n'.bare := by
  induction hv with
  | null levels => rintro n n' ⟨⟩ ⟨⟩; rfl
  | bool levels b => rintro n n' ⟨⟩ ⟨⟩; rfl
  | int levels k => rintro n n' ⟨⟩ ⟨⟩; rfl
  | str levels s => rintro n n' ⟨⟩ ⟨⟩; rfl
  | bytes levels b => rintro n n' ⟨⟩ ⟨⟩; rfl
  | arr levels xs hxs ih =>
    clear hxs
    intro n n' hn hn'
    cases hn with
    | arr _ ns i j hns =>
      cases hn' with
      | arr _ ns' i' j' hns' =>
        have hitems : ns.map JNode.bare = ns'.map JNode.bare := by
          induction hns generalizing ns' with
          | nil =>
            cases hns'
            rfl
          | cons hx _ ihns =>
            cases hns' with
            | cons hx' hxs' =>
              rw [List.map_cons, List.map_cons, ih _ List.mem_cons_self hx hx',
                ihns (fun y hy => ih y (List.mem_cons_of_mem _ hy)) _ hxs']
        simp only [JNode.bare, JV.bare, bareItems_eq_map, hitems]
  | obj levels fields _ _ ih =>
    intro n n' hn hn'
    cases hn with
    | obj _ ms i j hfst hns =>
      cases hn' with
      | obj _ ms' i' j' hfst' hns' =>
        have hmem : ∀ f ∈ inKeyOrder fields, f ∈ fields :=
          fun f hf => (inKeyOrder_perm fields).mem_iff.mp hf
        have hfields : bareFields ms = bareFields ms' := by
          generalize inKeyOrder fields = sorted at hfst hns hfst' hns' hmem
          induction ms generalizing sorted ms' with
          | nil =>
            cases ms' with
            | nil => rfl
            | cons m' ms' =>
              cases sorted with
              | nil => simp at hfst'
              | cons f fs => simp at hfst
          | cons m ms ihms =>
            obtain ⟨k, x⟩ := m
            cases sorted with
            | nil => simp at hfst
            | cons f fs =>
              cases ms' with
              | nil => simp at hfst'
              | cons m' ms' =>
                obtain ⟨k', x'⟩ := m'
                simp only [List.map_cons, List.cons.injEq] at hfst hfst'
                obtain ⟨rfl, hfst⟩ := hfst
                obtain ⟨rfl, hfst'⟩ := hfst'
                obtain ⟨hx, hxs⟩ := List.forall₂_cons.mp hns
                obtain ⟨hx', hxs'⟩ := List.forall₂_cons.mp hns'
                rw [bareFields, bareFields, ih f (hmem f List.mem_cons_self) hx hx',
                  ihms ms' fs hfst hxs hfst' hxs' fun g hg => hmem g (List.mem_cons_of_mem _ hg)]
        simp only [JNode.bare, JV.bare, hfields]

end RatifyProtocol.V2
