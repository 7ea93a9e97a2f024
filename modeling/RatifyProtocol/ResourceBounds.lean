import Mathlib.Data.List.Pairwise
import RatifyProtocol.ResourcePathOrder
set_option autoImplicit false

/-!
# Resource paths: bounds that hold together

Each `resource_path` constraint bounds a request to a resource and, if it has a
prefix, to the paths below it.  The issuance checks of both protocol versions
compare bounds in pairs; since two prefixes of one path are comparable, that is
to say that one request satisfies them all.
-/

namespace RatifyProtocol

/-- A resource and the prefix inside it, empty when there is none. -/
structure ResourceBound where
  resourceId : String
  pathPrefix : String

/-- Why a prefix that is present can never match. -/
def prefixError (pathPrefix : String) : Option String :=
  if pathPrefix = "" then none
  else
    match normalizeResourcePath pathPrefix with
    | .error e => some e
    | .ok _ => none

theorem prefixError_eq_none_iff {p : String} :
    prefixError p = none ↔ p = "" ∨ ∃ q, normalizeResourcePath p = .ok q := by
  unfold prefixError
  split
  · simp [*]
  · split <;> simp [*]

namespace ResourceBound

/-- A request for a path of a resource is inside the bound. -/
def Allows (b : ResourceBound) (resourceId path : String) : Prop :=
  b.resourceId = resourceId ∧ (b.pathPrefix = "" ∨ resourcePathMatches b.pathPrefix path = true)

/-- Two bounds on one resource whose prefixes nest. -/
def Compatible (a b : ResourceBound) : Prop :=
  a.resourceId = b.resourceId ∧ resourcePathsNested a.pathPrefix b.pathPrefix = true

/-- The prefix, the root when there is none. -/
def covering (b : ResourceBound) : String := if b.pathPrefix = "" then "/" else b.pathPrefix

end ResourceBound

open ResourceBound

/-- What an issuance loop accepts after a resource and some prefixes. -/
structure AcceptedAfter (resourceId : Option String) (prefixes : List String)
    (bounds : List ResourceBound) : Prop where
  sound : ∀ b ∈ bounds, prefixError b.pathPrefix = none
  same : ∀ b ∈ bounds, ∀ id ∈ resourceId, b.resourceId = id
  nested : ∀ b ∈ bounds, ∀ prior ∈ prefixes, resourcePathsNested prior b.pathPrefix = true
  pairwise : bounds.Pairwise Compatible

theorem acceptedAfter_nil (resourceId : Option String) (prefixes : List String) :
    AcceptedAfter resourceId prefixes [] :=
  ⟨by simp, by simp, by simp, List.Pairwise.nil⟩

/-- One more bound. -/
theorem acceptedAfter_cons_iff {resourceId : Option String} {prefixes : List String}
    {b : ResourceBound} {bounds : List ResourceBound} :
    AcceptedAfter resourceId prefixes (b :: bounds) ↔
      prefixError b.pathPrefix = none ∧ (∀ id ∈ resourceId, b.resourceId = id) ∧
        (∀ prior ∈ prefixes, resourcePathsNested prior b.pathPrefix = true) ∧
        AcceptedAfter (some b.resourceId) (prefixes ++ [b.pathPrefix]) bounds := by
  constructor
  · intro h
    obtain ⟨hfirst, hrest⟩ := List.pairwise_cons.mp h.pairwise
    refine ⟨h.sound b List.mem_cons_self, h.same b List.mem_cons_self,
      h.nested b List.mem_cons_self, fun c hc => h.sound c (List.mem_cons_of_mem b hc), ?_, ?_,
      hrest⟩
    · intro c hc id hid
      exact (hfirst c hc).1.symm.trans (Option.some.inj hid)
    · intro c hc prior hprior
      obtain hprior | hprior := List.mem_append.mp hprior
      · exact h.nested c (List.mem_cons_of_mem b hc) prior hprior
      · obtain rfl := List.mem_singleton.mp hprior
        exact (hfirst c hc).2
  · rintro ⟨hsound, hsame, hnested, h⟩
    have hids : ∀ c ∈ bounds, c.resourceId = b.resourceId := fun c hc => h.same c hc _ rfl
    refine ⟨List.forall_mem_cons.mpr ⟨hsound, h.sound⟩,
      List.forall_mem_cons.mpr ⟨hsame, fun c hc id hid => (hids c hc).trans (hsame id hid)⟩,
      List.forall_mem_cons.mpr ⟨hnested, fun c hc prior hprior =>
        h.nested c hc prior (List.mem_append_left _ hprior)⟩,
      List.pairwise_cons.mpr ⟨fun c hc => ⟨(hids c hc).symm, ?_⟩, h.pairwise⟩⟩
    exact h.nested c hc _ (List.mem_append_right _ (List.mem_singleton_self _))

/-! ## One request for all bounds -/

/-- A list that a transitive relation compares in pairs has a last element. -/
theorem exists_last_of_pairwise {α : Type} {r : α → α → Prop}
    (htrans : ∀ {a b c}, r a b → r b c → r a c) {xs : List α} (hne : xs ≠ [])
    (hrefl : ∀ x ∈ xs, r x x) (h : xs.Pairwise fun a b => r a b ∨ r b a) :
    ∃ m ∈ xs, ∀ x ∈ xs, r x m := by
  induction xs with
  | nil => exact absurd rfl hne
  | cons x xs ih =>
    obtain ⟨hx, hxs⟩ := List.pairwise_cons.mp h
    by_cases hnil : xs = []
    · subst hnil
      refine ⟨x, List.mem_cons_self, fun y hy => ?_⟩
      rw [List.mem_singleton.mp hy]
      exact hrefl x List.mem_cons_self
    obtain ⟨m, hm, hlast⟩ := ih hnil (fun y hy => hrefl y (List.mem_cons_of_mem x hy)) hxs
    obtain hxm | hmx := hx m hm
    · exact ⟨m, List.mem_cons_of_mem x hm, List.forall_mem_cons.mpr ⟨hxm, hlast⟩⟩
    · refine ⟨x, List.mem_cons_self, List.forall_mem_cons.mpr
        ⟨hrefl x List.mem_cons_self, fun y hy => htrans (hlast y hy) hmx⟩⟩

theorem normalize_covering {b : ResourceBound} (h : prefixError b.pathPrefix = none) :
    ∃ q, normalizeResourcePath b.covering = .ok q := by
  unfold covering
  unfold prefixError at h
  split
  · exact ⟨"/", by decide⟩
  · rename_i hpresent
    rw [if_neg hpresent] at h
    split at h
    · cases h
    · rename_i q hq
      exact ⟨q, hq⟩

theorem prefixError_of_matches {p q : String} (h : resourcePathMatches p q = true) :
    prefixError p = none := by
  obtain ⟨p', -, hp, -⟩ := of_resourcePathMatches h
  unfold prefixError
  split
  · rfl
  · rw [hp]

theorem compatible_self {b : ResourceBound} (h : prefixError b.pathPrefix = none) :
    Compatible b b := by
  obtain ⟨q, hq⟩ := normalize_covering h
  exact ⟨rfl, Bool.or_eq_true_iff.mpr (.inl (resourcePathMatches_refl hq))⟩

theorem Compatible.symm {a b : ResourceBound} (h : Compatible a b) : Compatible b a :=
  ⟨h.1.symm, Bool.or_eq_true_iff.mpr (Bool.or_eq_true_iff.mp h.2).symm⟩

/-- Bounds that are accepted are compatible with each other. -/
theorem AcceptedAfter.compatible {resourceId : Option String} {prefixes : List String}
    {bounds : List ResourceBound} (h : AcceptedAfter resourceId prefixes bounds)
    {a b : ResourceBound} (ha : a ∈ bounds) (hb : b ∈ bounds) : Compatible a b := by
  have : Std.Symm Compatible := ⟨fun _ _ => Compatible.symm⟩
  exact List.Pairwise.forall_of_forall (fun c hc => compatible_self (h.sound c hc)) h.pairwise ha hb

/-- Whatever a bound covers it allows. -/
theorem allows_of_covering {b : ResourceBound} {path : String}
    (h : resourcePathMatches b.covering path = true) : b.Allows b.resourceId path := by
  refine ⟨rfl, ?_⟩
  unfold covering at h
  split at h
  · exact .inl ‹_›
  · exact .inr h

/-- Bounds are accepted exactly when one request is inside all of them. -/
theorem acceptedAfter_iff_exists_allowed {bounds : List ResourceBound} :
    AcceptedAfter none [] bounds ↔ ∃ resourceId path, ∀ b ∈ bounds, b.Allows resourceId path := by
  constructor
  · intro h
    by_cases hnil : bounds = []
    · subst hnil
      exact ⟨"", "", by simp⟩
    have hrefl : ∀ b ∈ bounds, resourcePathMatches b.covering b.covering = true := by
      intro b hb
      obtain ⟨q, hq⟩ := normalize_covering (h.sound b hb)
      exact resourcePathMatches_refl hq
    have hpairs : bounds.Pairwise fun a b => resourcePathMatches a.covering b.covering = true ∨
        resourcePathMatches b.covering a.covering = true :=
      h.pairwise.imp fun hab => Bool.or_eq_true_iff.mp hab.2
    obtain ⟨m, hm, hlast⟩ := exists_last_of_pairwise
      (r := fun a b : ResourceBound => resourcePathMatches a.covering b.covering = true)
      resourcePathMatches_trans hnil hrefl hpairs
    have : Std.Symm fun a b : ResourceBound => a.resourceId = b.resourceId := ⟨fun _ _ => Eq.symm⟩
    have hids : ∀ b ∈ bounds, b.resourceId = m.resourceId := fun b hb =>
      List.Pairwise.forall_of_forall (R := fun a b : ResourceBound => a.resourceId = b.resourceId)
        (fun _ _ => rfl) (h.pairwise.imp And.left) hb hm
    refine ⟨m.resourceId, m.covering, fun b hb => ?_⟩
    rw [← hids b hb]
    exact allows_of_covering (hlast b hb)
  · rintro ⟨resourceId, path, h⟩
    have hsound : ∀ b ∈ bounds, prefixError b.pathPrefix = none := by
      intro b hb
      obtain hempty | hmatches := (h b hb).2
      · rw [prefixError, if_pos hempty]
      · exact prefixError_of_matches hmatches
    refine ⟨hsound, by simp, by simp, List.pairwise_iff_forall_sublist.mpr fun {a b} hab => ?_⟩
    have ha := hab.subset List.mem_cons_self
    have hb := hab.subset (List.mem_cons_of_mem a List.mem_cons_self)
    refine ⟨(h a ha).1.trans (h b hb).1.symm, Bool.or_eq_true_iff.mpr ?_⟩
    -- An absent prefix is the root; two that are present cover the path.
    obtain ⟨a', ha'⟩ := normalize_covering (hsound a ha)
    obtain ⟨b', hb'⟩ := normalize_covering (hsound b hb)
    show resourcePathMatches a.covering b.covering = true ∨
      resourcePathMatches b.covering a.covering = true
    by_cases haempty : a.pathPrefix = ""
    · rw [show a.covering = "/" from if_pos haempty]
      exact .inl (root_matches hb')
    by_cases hbempty : b.pathPrefix = ""
    · rw [show b.covering = "/" from if_pos hbempty]
      exact .inr (root_matches ha')
    rw [show a.covering = a.pathPrefix from if_neg haempty,
      show b.covering = b.pathPrefix from if_neg hbempty]
    exact resourcePathMatches_total ((h a ha).2.resolve_left haempty)
      ((h b hb).2.resolve_left hbempty)

end RatifyProtocol
