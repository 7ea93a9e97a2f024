import RatifyProtocol.V1.Verify
set_option autoImplicit false

/-!
# V1: attenuation of scopes

A list of scopes grants the members of its wildcard expansion.  The effective
scope of a chain is the intersection of what its certificates grant; for lists
that pass the v2 rules each member is a scope that may be required.
-/

namespace RatifyProtocol.V1

open Foundation
open V2 (isWildcardScope isCustomScope requiredScopeV2 uniqueScopes validScopes validateScopes
  validateScopesV2 wildcardExpansion)

/-- Scopes that no wildcard grants. -/
def sensitiveScopes : List String :=
  ["meeting:record", "comms:message:delete", "comms:email:delete", "files:write",
    "identity:delegate", "presence:represent", "payments:authorize", "contract:sign",
    "data:write", "data:delete", "data:export", "execute:code", "generate:deepfake",
    "physical:actuate", "physical:manipulate", "drone:fly", "vehicle:operate",
    "infrastructure:control", "infrastructure:access", "actuate:valve", "actuate:motor",
    "actuate:switch"]

def isSensitive (scope : String) : Bool := sensitiveScopes.contains scope

/-! ## Expansion -/

/-- What a wildcard stands for: canonical scopes that are neither wildcards nor
sensitive. -/
theorem of_mem_wildcardExpansion {w : String} {scopes : List String}
    (h : wildcardExpansion w = some scopes) {s : String} (hs : s ∈ scopes) :
    wildcardExpansion s = none ∧ isSensitive s = false ∧ s ∈ validScopes := by
  have hall : ∀ s ∈ scopes,
      (wildcardExpansion s = none ∧ isSensitive s = false) ∧ s ∈ validScopes := by
    unfold wildcardExpansion at h
    split at h <;> cases h <;> decide
  exact and_assoc.mp (hall s hs)

/-- A scope is granted as itself or through a wildcard. -/
theorem mem_expandScopes {s : String} {scopes : List String} :
    s ∈ expandScopes scopes ↔
      (s ∈ scopes ∧ wildcardExpansion s = none) ∨
        ∃ w ∈ scopes, ∃ expansion, wildcardExpansion w = some expansion ∧ s ∈ expansion := by
  rw [expandScopes, mem_sortedUnique, List.mem_flatMap]
  constructor
  · rintro ⟨w, hw, hs⟩
    cases hexpansion : wildcardExpansion w with
    | none =>
      rw [hexpansion, Option.getD_none, List.mem_singleton] at hs
      subst hs
      exact .inl ⟨hw, hexpansion⟩
    | some expansion =>
      rw [hexpansion, Option.getD_some] at hs
      exact .inr ⟨w, hw, expansion, hexpansion, hs⟩
  · rintro (⟨hs, hnone⟩ | ⟨w, hw, expansion, hexpansion, hs⟩)
    · refine ⟨s, hs, ?_⟩
      rw [hnone]
      exact List.mem_singleton_self s
    · refine ⟨w, hw, ?_⟩
      rw [hexpansion]
      exact hs

/-- No wildcard is left in an expansion. -/
theorem wildcardExpansion_of_mem_expandScopes {s : String} {scopes : List String}
    (h : s ∈ expandScopes scopes) : wildcardExpansion s = none := by
  obtain ⟨-, hnone⟩ | ⟨w, -, expansion, hexpansion, hs⟩ := mem_expandScopes.mp h
  · exact hnone
  · exact (of_mem_wildcardExpansion hexpansion hs).1

/-- Expanding again changes nothing. -/
theorem mem_expandScopes_expandScopes {s : String} {scopes : List String} :
    s ∈ expandScopes (expandScopes scopes) ↔ s ∈ expandScopes scopes := by
  rw [mem_expandScopes]
  constructor
  · rintro (⟨hs, -⟩ | ⟨w, hw, expansion, hexpansion, -⟩)
    · exact hs
    · rw [wildcardExpansion_of_mem_expandScopes hw] at hexpansion
      cases hexpansion
  · exact fun hs => .inl ⟨hs, wildcardExpansion_of_mem_expandScopes hs⟩

/-- A sensitive scope is granted as itself only. -/
theorem mem_of_sensitive {s : String} {scopes : List String} (h : s ∈ expandScopes scopes)
    (hsensitive : isSensitive s = true) : s ∈ scopes := by
  obtain ⟨hs, -⟩ | ⟨w, -, expansion, hexpansion, hs⟩ := mem_expandScopes.mp h
  · exact hs
  · rw [(of_mem_wildcardExpansion hexpansion hs).2.1] at hsensitive
    cases hsensitive

/-! ## Intersection -/

/-- The fold keeps what every further list grants. -/
theorem mem_foldl_filter {s : String} {lists : List (List String)} {effective : List String} :
    s ∈ lists.foldl (fun effective l => effective.filter ((expandScopes l).contains ·)) effective ↔
      s ∈ effective ∧ ∀ l ∈ lists, s ∈ expandScopes l := by
  induction lists generalizing effective with
  | nil => simp
  | cons l lists ih =>
    rw [List.foldl_cons, ih, List.mem_filter, List.contains_iff_mem, List.forall_mem_cons,
      and_assoc]

/-- A chain grants what every certificate grants. -/
theorem mem_intersectScopes {s : String} {lists : List (List String)} (hne : lists ≠ []) :
    s ∈ intersectScopes lists ↔ ∀ l ∈ lists, s ∈ expandScopes l := by
  cases lists with
  | nil => exact absurd rfl hne
  | cons l lists => rw [intersectScopes, mem_foldl_filter, List.forall_mem_cons]

theorem pairwise_expandScopes (scopes : List String) :
    (expandScopes scopes).Pairwise (· < ·) := by
  have hsorted := pairwise_sortedUnique (scopes.flatMap fun s => (wildcardExpansion s).getD [s])
  have hnodup := nodup_sortedUnique (scopes.flatMap fun s => (wildcardExpansion s).getD [s])
  exact hsorted.imp₂ (fun _ _ hle hne => lt_of_le_of_ne hle hne) hnodup

/-- The effective scope is sorted, and nothing occurs twice. -/
theorem pairwise_intersectScopes (lists : List (List String)) :
    (intersectScopes lists).Pairwise (· < ·) := by
  have hfold : ∀ (lists : List (List String)) (effective : List String),
      effective.Pairwise (· < ·) →
      (lists.foldl (fun effective l => effective.filter ((expandScopes l).contains ·))
        effective).Pairwise (· < ·) := by
    intro lists
    induction lists with
    | nil => exact fun _ h => h
    | cons l lists ih => exact fun effective h => ih _ (h.filter _)
  cases lists with
  | nil => exact List.Pairwise.nil
  | cons l lists => exact hfold lists _ (pairwise_expandScopes l)

/-- Chains that grant the same have the same effective scope. -/
theorem intersectScopes_congr {lists other : List (List String)} (hne : lists ≠ [])
    (hother : other ≠ [])
    (h : ∀ s, (∀ l ∈ lists, s ∈ expandScopes l) ↔ ∀ l ∈ other, s ∈ expandScopes l) :
    intersectScopes lists = intersectScopes other := by
  apply List.Perm.eq_of_pairwise (fun _ _ _ _ hlt hgt => absurd hgt (lt_asymm hlt))
    (pairwise_intersectScopes lists) (pairwise_intersectScopes other)
  rw [List.perm_ext_iff_of_nodup ((pairwise_intersectScopes lists).imp ne_of_lt)
    ((pairwise_intersectScopes other).imp ne_of_lt)]
  intro s
  rw [mem_intersectScopes hne, mem_intersectScopes hother, h]

/-! ## Valid lists -/

theorem of_validateScopes {scopes : List String} (h : validateScopes scopes = none) {s : String}
    (hs : s ∈ scopes) :
    s ∈ validScopes ∨ (wildcardExpansion s).isSome = true ∨ isCustomScope s = true := by
  rw [validateScopes, Option.map_eq_none_iff, List.find?_eq_none] at h
  have hknown := h s hs
  simp only [Bool.not_eq_true', Bool.not_eq_false, Bool.or_eq_true, List.contains_iff_mem] at hknown
  exact or_assoc.mp hknown

theorem ne_of_uniqueScopes {seen scopes : List String} {u : Unit}
    (h : uniqueScopes seen scopes = .ok u) : ∀ s ∈ scopes, s ≠ "custom:*" := by
  induction scopes generalizing seen with
  | nil => simp
  | cons scope scopes ih =>
    rw [uniqueScopes, V2.refuseIf_bind_eq_ok_iff, V2.refuseIf_bind_eq_ok_iff] at h
    obtain ⟨hcustom, -, hrest⟩ := h
    exact List.forall_mem_cons.mpr ⟨beq_eq_false_iff_ne.mp hcustom, ih hrest⟩

theorem of_validateScopesV2 {scopes : List String} (h : validateScopesV2 scopes = .ok ())
    {s : String} (hs : s ∈ scopes) :
    s ≠ "custom:*" ∧
      (s ∈ validScopes ∨ (wildcardExpansion s).isSome = true ∨ isCustomScope s = true) := by
  rw [validateScopesV2, V2.refuseIf_bind_eq_ok_iff] at h
  obtain ⟨-, h⟩ := h
  split at h
  · cases h
  · rename_i hvalid
    exact ⟨ne_of_uniqueScopes h s hs, of_validateScopes hvalid hs⟩

/-- What a valid list grants may be required. -/
theorem requiredScopeV2_of_mem_expandScopes {scopes : List String}
    (h : validateScopesV2 scopes = .ok ())
    (hlength : ∀ s ∈ scopes, (utf8 s).length ≤ V2.maxScopeLengthBytes) {s : String}
    (hs : s ∈ expandScopes scopes) : requiredScopeV2 s = .ok () := by
  have hnone := wildcardExpansion_of_mem_expandScopes hs
  have hcanonical : s ∈ validScopes → requiredScopeV2 s = .ok () := by
    intro hmem
    simp [requiredScopeV2, isWildcardScope, hnone, hmem]
  obtain ⟨hlisted, -⟩ | ⟨w, -, expansion, hexpansion, hmem⟩ := mem_expandScopes.mp hs
  · obtain ⟨hne, hmem | hwildcard | hcustom⟩ := of_validateScopesV2 h hlisted
    · exact hcanonical hmem
    · rw [hnone] at hwildcard
      cases hwildcard
    · unfold requiredScopeV2
      split
      · rfl
      · rw [if_pos (by simp [hcustom, hne, hlength s hlisted])]
  · exact hcanonical (of_mem_wildcardExpansion hexpansion hmem).2.2

/-- Scope attenuation over the certificates of a chain. -/
theorem intersectScopes_attenuates {lists : List (List String)} (hne : lists ≠ [])
    (hvalid : ∀ l ∈ lists,
      validateScopesV2 l = .ok () ∧ ∀ s ∈ l, (utf8 s).length ≤ V2.maxScopeLengthBytes) :
    (∀ s, s ∈ intersectScopes lists ↔ ∀ l ∈ lists, s ∈ expandScopes l) ∧
    (∀ s ∈ intersectScopes lists, isSensitive s = true → ∀ l ∈ lists, s ∈ l) ∧
    (intersectScopes lists).Pairwise (· < ·) ∧
    (∀ other : List (List String), (∀ l, l ∈ other ↔ l ∈ lists) →
      intersectScopes other = intersectScopes lists) ∧
    (∀ before after cert, lists = before ++ after →
      ∀ s ∈ intersectScopes (before ++ cert :: after), s ∈ intersectScopes lists) ∧
    (∀ before after l, lists = before ++ l :: after →
      intersectScopes (before ++ expandScopes l :: after) = intersectScopes lists) ∧
    ∀ s ∈ intersectScopes lists, isWildcardScope s = false ∧ requiredScopeV2 s = .ok () := by
  refine ⟨fun s => mem_intersectScopes hne, ?_, pairwise_intersectScopes lists, ?_, ?_, ?_, ?_⟩
  · intro s hs hsensitive l hl
    exact mem_of_sensitive ((mem_intersectScopes hne).mp hs l hl) hsensitive
  · intro other hsame
    obtain ⟨l, hl⟩ := List.exists_mem_of_ne_nil lists hne
    apply intersectScopes_congr (List.ne_nil_of_mem ((hsame l).mpr hl)) hne
    intro s
    exact forall_congr' fun l => imp_congr_left (hsame l)
  · intro before after cert hsplit s hs
    have hcons : before ++ cert :: after ≠ [] :=
      List.append_ne_nil_of_right_ne_nil _ (List.cons_ne_nil _ _)
    rw [mem_intersectScopes hcons] at hs
    rw [mem_intersectScopes hne, hsplit]
    intro l hl
    apply hs l
    simp only [List.mem_append, List.mem_cons] at hl ⊢
    exact hl.imp_right .inr
  · intro before after l hsplit
    have hcons : before ++ expandScopes l :: after ≠ [] :=
      List.append_ne_nil_of_right_ne_nil _ (List.cons_ne_nil _ _)
    apply intersectScopes_congr hcons hne
    intro s
    rw [hsplit]
    simp only [List.forall_mem_append, List.forall_mem_cons, mem_expandScopes_expandScopes]
  · intro s hs
    obtain ⟨l, hl⟩ := List.exists_mem_of_ne_nil lists hne
    have hmem := (mem_intersectScopes hne).mp hs l hl
    refine ⟨?_, requiredScopeV2_of_mem_expandScopes (hvalid l hl).1 (hvalid l hl).2 hmem⟩
    rw [isWildcardScope, wildcardExpansion_of_mem_expandScopes hmem]
    rfl

/-- A wildcard under a list of its members. -/
theorem intersectScopes_attenuates_meeting :
    intersectScopes [["meeting:*", "custom:a:*"], ["meeting:record", "meeting:speak"]]
        = ["meeting:speak"] ∧
      requiredScopeV2 "meeting:speak" = .ok () := by
  have hresult : intersectScopes [["meeting:*", "custom:a:*"], ["meeting:record", "meeting:speak"]]
      = ["meeting:speak"] := by decide
  obtain ⟨-, -, -, -, -, -, hrequired⟩ := @intersectScopes_attenuates
    [["meeting:*", "custom:a:*"], ["meeting:record", "meeting:speak"]]
    (List.cons_ne_nil _ _) (by decide)
  rw [hresult] at hrequired
  exact ⟨hresult, (hrequired _ (List.mem_singleton_self _)).2⟩

end RatifyProtocol.V1
