import Mathlib.Data.List.Basic
set_option autoImplicit false

/-!
# Hash chains

A chain is kept newest first.  Every entry names the digest of the one before
it and the oldest names a fixed genesis value, so the digest of the newest entry
commits to all of them.
-/

namespace RatifyProtocol.Foundation

variable {ε ε' δ : Type}

/-- How the entries of a chain are read: the link and the digest of an entry,
and the link of the first one. -/
structure HashChain (ε δ : Type) where
  previous : ε → δ
  digest : ε → δ
  genesis : δ

namespace HashChain

variable (C : HashChain ε δ) (D : HashChain ε' δ)

/-- The digest that the next entry has to name. -/
def head : List ε → δ
  | [] => C.genesis
  | e :: _ => C.digest e

/-- Every entry names the head of the entries before it. -/
def Linked : List ε → Prop
  | [] => True
  | e :: es => C.previous e = C.head es ∧ Linked es

/-- Equal digests were taken of entries with equal links. -/
def Binds (es : List ε) (es' : List ε') : Prop :=
  ∀ e ∈ es, ∀ e' ∈ es', C.digest e = D.digest e' → C.previous e = D.previous e'

variable {C D}

/-- Chains of one length with one head hold the same digests. -/
theorem digests_eq {es : List ε} {es' : List ε'} (hes : C.Linked es) (hes' : D.Linked es')
    (hbinds : C.Binds D es es') (hlength : es.length = es'.length)
    (hhead : C.head es = D.head es') : es.map C.digest = es'.map D.digest := by
  induction es generalizing es' with
  | nil =>
    cases es' with
    | nil => rfl
    | cons e' es' => simp at hlength
  | cons e es ih =>
    cases es' with
    | nil => simp at hlength
    | cons e' es' =>
      have hdigest : C.digest e = D.digest e' := hhead
      have hprevious : C.previous e = D.previous e' :=
        hbinds e List.mem_cons_self e' List.mem_cons_self hdigest
      -- equal links are equal heads one entry further back
      have hback : C.head es = D.head es' := hes.1.symm.trans (hprevious.trans hes'.1)
      have hrest : es.map C.digest = es'.map D.digest :=
        ih hes.2 hes'.2
          (fun a ha b hb => hbinds a (List.mem_cons_of_mem _ ha) b (List.mem_cons_of_mem _ hb))
          (by simpa using hlength) hback
      rw [List.map_cons, List.map_cons, hdigest, hrest]

end HashChain

/-! ## Numbered values -/

/-- Values kept newest first, under their positions `1, 2, …`, oldest first. -/
def numbered : List δ → List (Int × δ)
  | [] => []
  | d :: ds => numbered ds ++ [((ds.length : Int) + 1, d)]

theorem length_numbered (ds : List δ) : (numbered ds).length = ds.length := by
  induction ds with
  | nil => rfl
  | cons d ds ih => rw [numbered, List.length_append, ih, List.length_singleton, List.length_cons]

theorem mem_numbered {ds : List δ} {x : Int × δ} (h : x ∈ numbered ds) :
    0 < x.1 ∧ x.1 ≤ ds.length ∧ x.2 ∈ ds := by
  induction ds with
  | nil => simp [numbered] at h
  | cons d ds ih =>
    rcases List.mem_append.mp h with h | h
    · obtain ⟨hpos, hle, hmem⟩ := ih h
      refine ⟨hpos, ?_, List.mem_cons_of_mem _ hmem⟩
      rw [List.length_cons]
      omega
    · obtain rfl := List.mem_singleton.mp h
      refine ⟨by omega, ?_, List.mem_cons_self⟩
      rw [List.length_cons]
      omega

/-- The value at a position is the one that many places before the newest. -/
theorem lookup_numbered (ds : List δ) {k : Int} (hpos : 0 < k) (hle : k ≤ ds.length) :
    (numbered ds).lookup k = ds[ds.length - k.toNat]? := by
  induction ds with
  | nil =>
    rw [List.length_nil] at hle
    omega
  | cons d ds ih =>
    rw [numbered, List.lookup_append]
    rw [List.length_cons] at hle ⊢
    by_cases hk : k = (ds.length : Int) + 1
    · have hnone : (numbered ds).lookup k = none := by
        rw [List.lookup_eq_none_iff]
        intro x hx
        have := (mem_numbered hx).2.1
        rw [bne_iff_ne]
        omega
      have hindex : ds.length + 1 - k.toNat = 0 := by omega
      rw [hnone, hindex, Option.none_or, hk, List.lookup_cons_self, List.getElem?_cons_zero]
    · have hk' : k ≤ ds.length := by omega
      obtain ⟨i, hi⟩ : ∃ i, ds.length + 1 - k.toNat = i + 1 := ⟨ds.length - k.toNat, by omega⟩
      have hi' : ds.length - k.toNat = i := by omega
      have hsome : ds[i]? = some ds[i] := List.getElem?_eq_getElem (by omega)
      rw [ih hk', hi, hi', List.getElem?_cons_succ, hsome, Option.some_or]

end RatifyProtocol.Foundation
