import Mathlib.Order.Lattice
import Mathlib.Order.Defs.LinearOrder
import Mathlib.Data.List.Pairwise
set_option autoImplicit false

/-!
# Foundation: finite maps in key order

A map kept as its entries in ascending key order, so that two maps with the
same values at every key are the same map and a traversal meets the keys in
order.  Nothing here names a particular program.
-/

namespace RatifyProtocol.Foundation

variable {κ α : Type} [LinearOrder κ]

/-- A finite map; no two entries share a key. -/
structure OrderedMap (κ α : Type) [LinearOrder κ] where
  entries : List (κ × α)
  ascending : entries.Pairwise fun a b => a.1 < b.1

namespace OrderedMap

def empty : OrderedMap κ α := { entries := [], ascending := .nil }

/-- The value at `k` in a list of entries. -/
def find (k : κ) : List (κ × α) → Option α
  | [] => none
  | (k', a) :: rest => if k = k' then some a else find k rest

def get? (m : OrderedMap κ α) (k : κ) : Option α := find k m.entries

def contains (m : OrderedMap κ α) (k : κ) : Bool := (m.get? k).isSome

/-- Put `a` at `k`, in place of a value that is there. -/
def place (k : κ) (a : α) : List (κ × α) → List (κ × α)
  | [] => [(k, a)]
  | (k', a') :: rest =>
    if k < k' then (k, a) :: (k', a') :: rest
    else if k = k' then (k, a) :: rest
    else (k', a') :: place k a rest

/-- Change every value. -/
def mapValues {β : Type} (f : α → β) (m : OrderedMap κ α) : OrderedMap κ β :=
  { entries := m.entries.map fun e => (e.1, f e.2)
    ascending := List.pairwise_map.mpr m.ascending }

/-! ## Entries -/

theorem mem_place {k : κ} {a : α} {es : List (κ × α)} {e : κ × α} (h : e ∈ place k a es) :
    e = (k, a) ∨ e ∈ es := by
  induction es with
  | nil => exact .inl (by simpa [place] using h)
  | cons x rest ih =>
    simp only [place] at h
    split at h
    · rcases List.mem_cons.mp h with h | h
      · exact .inl h
      · exact .inr h
    split at h
    · rcases List.mem_cons.mp h with h | h
      · exact .inl h
      · exact .inr (List.mem_cons_of_mem _ h)
    · rcases List.mem_cons.mp h with h | h
      · exact .inr (h ▸ List.mem_cons_self)
      · rcases ih h with h | h
        · exact .inl h
        · exact .inr (List.mem_cons_of_mem _ h)

theorem ascending_place (k : κ) (a : α) {es : List (κ × α)}
    (h : es.Pairwise fun a b => a.1 < b.1) :
    (place k a es).Pairwise fun a b => a.1 < b.1 := by
  induction es with
  | nil => simp [place]
  | cons x rest ih =>
    obtain ⟨hx, hrest⟩ := List.pairwise_cons.mp h
    simp only [place]
    split
    · rename_i hlt
      refine List.pairwise_cons.mpr ⟨fun e he => ?_, h⟩
      rcases List.mem_cons.mp he with rfl | he
      · exact hlt
      · exact lt_trans hlt (hx e he)
    split
    · rename_i heq
      exact List.pairwise_cons.mpr ⟨fun e he => heq ▸ hx e he, hrest⟩
    · rename_i hlt hne
      refine List.pairwise_cons.mpr ⟨fun e he => ?_, ih hrest⟩
      rcases mem_place he with rfl | he
      · exact lt_of_le_of_ne (not_lt.mp hlt) (Ne.symm hne)
      · exact hx e he

/-- A key above all others goes to the end. -/
theorem place_of_forall_lt {k : κ} {a : α} {es : List (κ × α)} (h : ∀ e ∈ es, e.1 < k) :
    place k a es = es ++ [(k, a)] := by
  induction es with
  | nil => rfl
  | cons x rest ih =>
    have hx : x.1 < k := h x List.mem_cons_self
    rw [place, if_neg (lt_asymm hx), if_neg (ne_of_gt hx),
      ih fun e he => h e (List.mem_cons_of_mem _ he), List.cons_append]

/-- Put `a` at `k`. -/
def insert (m : OrderedMap κ α) (k : κ) (a : α) : OrderedMap κ α :=
  { entries := place k a m.entries, ascending := ascending_place k a m.ascending }

/-- Change the value at `k`, if there is one. -/
def modify (m : OrderedMap κ α) (k : κ) (f : α → α) : OrderedMap κ α :=
  match m.get? k with
  | none => m
  | some a => m.insert k (f a)

/-! ## Lookup -/

theorem find_place (k k' : κ) (a : α) (es : List (κ × α)) :
    find k' (place k a es) = if k' = k then some a else find k' es := by
  induction es with
  | nil => simp [place, find]
  | cons x rest ih =>
    simp only [place]
    split
    · simp only [find]
    split
    · rename_i heq
      simp only [find, heq]
      split <;> simp_all
    · rename_i hne
      simp only [find, ih]
      split
      · rename_i hk
        rw [if_neg (fun h => hne (h.symm.trans hk))]
      · rfl

@[simp] theorem get?_empty (k : κ) : (empty : OrderedMap κ α).get? k = none := rfl

theorem get?_insert (m : OrderedMap κ α) (k k' : κ) (a : α) :
    (m.insert k a).get? k' = if k' = k then some a else m.get? k' :=
  find_place k k' a m.entries

@[simp] theorem get?_insert_self (m : OrderedMap κ α) (k : κ) (a : α) :
    (m.insert k a).get? k = some a := by
  rw [get?_insert, if_pos rfl]

theorem get?_insert_of_ne (m : OrderedMap κ α) {k k' : κ} (a : α) (h : k' ≠ k) :
    (m.insert k a).get? k' = m.get? k' := by
  rw [get?_insert, if_neg h]

theorem get?_modify (m : OrderedMap κ α) (k k' : κ) (f : α → α) :
    (m.modify k f).get? k' = if k' = k then (m.get? k).map f else m.get? k' := by
  cases hk : m.get? k with
  | none =>
    simp only [modify, hk]
    split
    · rename_i h
      rw [h, hk]
      rfl
    · rfl
  | some a =>
    simp only [modify, hk, get?_insert]
    rfl

theorem modify_of_get? {m : OrderedMap κ α} {k : κ} {a : α} (h : m.get? k = some a)
    (f : α → α) : m.modify k f = m.insert k (f a) := by
  simp only [modify, h]

theorem find_map {β : Type} (f : α → β) (k : κ) (es : List (κ × α)) :
    find k (es.map fun e => (e.1, f e.2)) = (find k es).map f := by
  induction es with
  | nil => rfl
  | cons e rest ih =>
    simp only [List.map_cons, find, ih]
    split <;> rfl

@[simp] theorem get?_mapValues {β : Type} (f : α → β) (m : OrderedMap κ α) (k : κ) :
    (m.mapValues f).get? k = (m.get? k).map f :=
  find_map f k m.entries

theorem find_eq_some_iff {k : κ} {a : α} {es : List (κ × α)}
    (h : es.Pairwise fun a b => a.1 < b.1) : find k es = some a ↔ (k, a) ∈ es := by
  induction es with
  | nil => simp [find]
  | cons x rest ih =>
    obtain ⟨hx, hrest⟩ := List.pairwise_cons.mp h
    simp only [find, List.mem_cons]
    split
    · rename_i hk
      constructor
      · intro heq
        exact .inl (Prod.ext hk (Option.some.inj heq).symm)
      · rintro (heq | hmem)
        · rw [← heq]
        · exact absurd hk (ne_of_gt (hx _ hmem))
    · rename_i hk
      rw [ih hrest]
      constructor
      · exact .inr
      · rintro (heq | hmem)
        · exact absurd (by rw [← heq]) hk
        · exact hmem

/-- The entries are the keys with their values. -/
theorem mem_entries_iff {m : OrderedMap κ α} {k : κ} {a : α} :
    (k, a) ∈ m.entries ↔ m.get? k = some a :=
  (find_eq_some_iff m.ascending).symm

theorem nodup_entries (m : OrderedMap κ α) : m.entries.Nodup := by
  refine m.ascending.imp ?_
  rintro a _ h rfl
  exact lt_irrefl _ h

/-- Maps with the same value at every key are the same map. -/
theorem ext_get? {m n : OrderedMap κ α} (h : ∀ k, m.get? k = n.get? k) : m = n := by
  have hperm : m.entries.Perm n.entries := by
    rw [List.perm_ext_iff_of_nodup m.nodup_entries n.nodup_entries]
    intro e
    obtain ⟨k, a⟩ := e
    rw [mem_entries_iff, mem_entries_iff, h]
  have heq : m.entries = n.entries :=
    hperm.eq_of_pairwise (fun a b _ _ h₁ h₂ => absurd h₂ (lt_asymm h₁)) m.ascending n.ascending
  cases m
  cases n
  simpa using heq

/-! ## Removal -/

/-- The number of entries. -/
def size (m : OrderedMap κ α) : Nat := m.entries.length

/-- `retain`: the entries that pass. -/
def filter (p : κ → α → Bool) (m : OrderedMap κ α) : OrderedMap κ α :=
  { entries := m.entries.filter fun e => p e.1 e.2
    ascending := m.ascending.filter _ }

/-- Remove the entry at `k`. -/
def erase (m : OrderedMap κ α) (k : κ) : OrderedMap κ α := m.filter fun k' _ => k' ≠ k

theorem get?_filter (p : κ → α → Bool) (m : OrderedMap κ α) (k : κ) :
    (m.filter p).get? k = (m.get? k).filter (p k) := by
  apply Option.ext
  intro a
  rw [← mem_entries_iff, Option.filter_eq_some_iff, ← mem_entries_iff]
  exact List.mem_filter

theorem get?_erase (m : OrderedMap κ α) (k k' : κ) :
    (m.erase k).get? k' = if k' = k then none else m.get? k' := by
  rw [erase, get?_filter]
  cases m.get? k' <;> by_cases h : k' = k <;> simp [h]

theorem size_filter_le (p : κ → α → Bool) (m : OrderedMap κ α) : (m.filter p).size ≤ m.size :=
  List.length_filter_le _ _

theorem length_place_le (k : κ) (a : α) (es : List (κ × α)) :
    (place k a es).length ≤ es.length + 1 := by
  induction es with
  | nil => simp [place]
  | cons x rest ih =>
    simp only [place]
    split
    · simp
    split
    · simp
    · simp only [List.length_cons]
      omega

theorem size_insert_le (m : OrderedMap κ α) (k : κ) (a : α) : (m.insert k a).size ≤ m.size + 1 :=
  length_place_le k a m.entries

end OrderedMap

end RatifyProtocol.Foundation
