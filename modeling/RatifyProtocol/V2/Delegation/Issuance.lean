import RatifyProtocol.Foundation.Arithmetic
import RatifyProtocol.ResourceBounds
import RatifyProtocol.V2.Delegation.BundleCodec
set_option autoImplicit false

/-!
# V2: duties of an issuer

`validate_delegation_issuance_v2` of `v2/wire.rs`: what an issuer must not sign
although a decoder would accept it.
-/

namespace RatifyProtocol.V2

open Foundation

/-- `V2_MAX_DELEGATION_LIFETIME_SECONDS`. -/
def v2MaxDelegationLifetimeSeconds : Int := 315360000

/-- The loop over the constraints from position `i`, with the resource and the
prefixes so far. -/
def validateResourcePathsV2 :
    Nat → String → List String → List ConstraintV2 → Except String Unit
  | _, _, _, [] => .ok ()
  | i, resourceId, prefixes, c :: cs =>
    if c.kind ≠ constraintResourcePath then validateResourcePathsV2 (i + 1) resourceId prefixes cs
    else
      match prefixError c.pathPrefix with
      | some e => .error s!"constraint {i} path_prefix can never match: {e}"
      | none =>
        if resourceId ≠ "" ∧ c.resourceId ≠ resourceId then
          .error s!"constraint {i} names a different resource_id; the resource_path set is jointly unsatisfiable"
        else
          match prefixes.find? fun prior => !resourcePathsNested prior c.pathPrefix with
          | some prior =>
            .error s!"constraint {i} path_prefix {debugQuote c.pathPrefix} does not nest with {debugQuote prior}; the resource_path set is jointly unsatisfiable"
          | none =>
            validateResourcePathsV2 (i + 1) (if resourceId = "" then c.resourceId else resourceId)
              (prefixes ++ [c.pathPrefix]) cs

/-- The order and the distance of the timestamps; a release build wraps. -/
def validateLifetimeV2 (cert : DelegationCertV2) : Except String Unit :=
  if cert.issuedAt ≥ cert.expiresAt then .error "issued_at must be earlier than expires_at"
  else if IntType.i64.wrap (cert.expiresAt - cert.issuedAt) > v2MaxDelegationLifetimeSeconds then
    .error s!"delegation lifetime exceeds {v2MaxDelegationLifetimeSeconds} seconds"
  else .ok ()

def validateDelegationIssuanceV2 (cert : DelegationCertV2) : Except String Unit := do
  validateLifetimeV2 cert
  validateResourcePathsV2 0 "" [] cert.constraints

/-! ## What is issued -/

/-- The bounds among the constraints. -/
def resourceBoundsV2 (cs : List ConstraintV2) : List ResourceBound :=
  (cs.filter fun c => c.kind == constraintResourcePath).map fun c => ⟨c.resourceId, c.pathPrefix⟩

/-- The resource that the loop has seen; `""` is none. -/
def seenResource (resourceId : String) : Option String :=
  if resourceId = "" then none else some resourceId

theorem validateResourcePathsV2_eq_ok_iff {cs : List ConstraintV2}
    (hcs : ∀ b ∈ resourceBoundsV2 cs, b.resourceId ≠ "") {i : Nat} {resourceId : String}
    {prefixes : List String} :
    validateResourcePathsV2 i resourceId prefixes cs = .ok () ↔
      AcceptedAfter (seenResource resourceId) prefixes (resourceBoundsV2 cs) := by
  induction cs generalizing i resourceId prefixes with
  | nil => simp [validateResourcePathsV2, resourceBoundsV2, acceptedAfter_nil]
  | cons c cs ih =>
    rw [validateResourcePathsV2]
    by_cases hkind : c.kind = constraintResourcePath
    · have hbounds : resourceBoundsV2 (c :: cs)
          = ⟨c.resourceId, c.pathPrefix⟩ :: resourceBoundsV2 cs := by
        simp [resourceBoundsV2, hkind]
      rw [hbounds, List.forall_mem_cons] at hcs
      obtain ⟨hid, hcs⟩ := hcs
      rw [if_neg (not_not.mpr hkind), hbounds, acceptedAfter_cons_iff]
      cases hprefix : prefixError c.pathPrefix with
      | some e => simp
      | none =>
        have hguard : (∀ id ∈ seenResource resourceId, c.resourceId = id) ↔
            ¬ (resourceId ≠ "" ∧ c.resourceId ≠ resourceId) := by
          unfold seenResource
          split <;> simp_all
        have hnested : (∀ prior ∈ prefixes, resourcePathsNested prior c.pathPrefix = true) ↔
            prefixes.find? (fun prior => !resourcePathsNested prior c.pathPrefix) = none := by
          simp
        simp only [true_and, hguard, hnested]
        split
        · rename_i hother
          simp [hother]
        rename_i hsame
        cases hfind : prefixes.find? fun prior => !resourcePathsNested prior c.pathPrefix with
        | some prior => simp
        | none =>
          have hseen : seenResource (if resourceId = "" then c.resourceId else resourceId)
              = some c.resourceId := by
            by_cases hfirst : resourceId = ""
            · rw [if_pos hfirst, seenResource, if_neg hid]
            · have heq : c.resourceId = resourceId := by
                by_contra hne
                exact hsame ⟨hfirst, hne⟩
              rw [if_neg hfirst, seenResource, if_neg hfirst, heq]
          simp only [hsame, not_false_eq_true, true_and]
          rw [ih hcs, hseen]
    · have hbounds : resourceBoundsV2 (c :: cs) = resourceBoundsV2 cs := by
        simp [resourceBoundsV2, hkind]
      rw [hbounds] at hcs ⊢
      rw [if_pos hkind, ih hcs]

/-- An encoded bound names a resource within the limit. -/
theorem resourceId_of_toCj {c : ConstraintV2} {v : CJ} (h : c.toCj = .ok v)
    (hkind : c.kind = constraintResourcePath) :
    c.resourceId ≠ "" ∧ (utf8 c.resourceId).length ≤ maxIdentifierLengthBytes := by
  obtain ⟨rfl, hstructured, -⟩ := ConstraintV2.toCj_eq_ok h
  have hnests : c.Nests (maxJsonNestingDepth - 1) := by
    intro m hm
    have hnot := hstructured (by rw [hm]; rfl)
    rw [hkind] at hnot
    cases hnot
  have hfits : Fits maxJsonNestingDepth (.obj (constraintBody c)) :=
    (wireBody_constraint h hnests).fits
  obtain ⟨-, -, b, n, hb, hn, hvalid⟩ := ConstraintV2.toCj_eq_ok h
  obtain ⟨n', hn', hd⟩ := parseJson_canonical hfits hb
  obtain rfl : n = n' := Except.ok.inj (hn.symm.trans hn')
  obtain ⟨o, ho, hview⟩ := objView_of_denotes hd (nodup_constraintBody c)
  obtain ⟨kindNode, hkindNode, hkindText⟩ := hview.get "type" (.str c.kind) (by simp [constraintBody])
  obtain ⟨idNode, hidNode, hidText⟩ := hview.get "resource_id" (.str c.resourceId) (by
    rw [constraintBody, if_neg (by rw [hkind]; decide), if_neg (by rw [hkind]; decide),
      if_neg (by rw [hkind]; decide), if_pos hkind]
    simp)
  -- The registry reads the resource that was written.
  have hread : validateResourcePath constraintResourcePath o = .ok () := by
    cases hd
    cases ho
    cases hkindText
    unfold validateV2ConstraintFields at hvalid
    obtain ⟨-, -, hvalid⟩ := bind_eq_ok_iff.mp hvalid
    simp only [JNode.v, constraintKind, hkindNode, Option.map_some, hkind] at hvalid
    rw [if_neg (by decide), ok_bind] at hvalid
    exact hvalid
  rw [validateResourcePath] at hread
  obtain ⟨-, -, hread⟩ := bind_eq_ok_iff.mp hread
  rw [requiredNode, hidNode, ok_bind, refuseIf_bind_eq_ok_iff] at hread
  cases hidText
  simpa [v2StringField, JNode.v, reads] using hread.1

end RatifyProtocol.V2
