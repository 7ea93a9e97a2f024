import RatifyProtocol.V2.Delegation.Bundle
import RatifyProtocol.V2.Evaluators
set_option autoImplicit false

/-!
# Authorization: the context policy

`v2/context_policy.rs`.  A policy is the verifier's own; its digest is computed from its
canonical fields and not from the context expected of one invocation.
-/

namespace RatifyProtocol.V2

open Foundation

def verifySessionContextProfileV2 : String := "ratify.verify.session-context/v1"

def verifySessionContextFieldsV2 : List String :=
  ["verifier_id", "workspace_id", "agent_id", "session_id", "invocation_id", "request_hash"]

/-- A validated policy; an empty context is none. -/
structure V2ContextPolicy where
  profile : String
  requireBound : Bool
  requiredFields : List String
  expectedSessionContext : Bytes
  digest : String
  bound : requireBound = true → requiredFields ≠ [] ∧ expectedSessionContext.length = 32
  unbound : requireBound = false → expectedSessionContext = []
  named : validPrefixedDigest digest = true
  deriving DecidableEq

/-- An intermediate result; `passed` lets the evaluation go on. -/
structure V2ContextPolicyAssessment where
  assessment : String
  policyDigest : Option String
  status : String
  reason : String
  detail : String
  deriving DecidableEq, Repr

namespace V2ContextPolicy

/-- The fields from position `i` on, with those seen before. -/
def checkFields : Nat → List String → List String → V2Result Unit
  | _, _, [] => .ok ()
  | i, seen, field :: fields =>
    if field = "" then
      err .configurationInvalid s!"v2 context policy field {i} is empty or invalid UTF-8"
    else if seen.contains field then
      err .configurationInvalid s!"v2 context policy has duplicate field {debugQuote field}"
    else checkFields (i + 1) (seen ++ [field]) fields

/-- The fields the digest is over. -/
def digestCj (profile : String) (requireBound : Bool) (fields : List String) : CJ :=
  .obj [("profile", .str profile), ("require_bound", .bool requireBound),
    ("required_fields", CJ.strs fields), ("version", .int 1)]

/-- `V2ContextPolicy::new`. -/
def new (P : Primitives) (profile : String) (requireBound : Bool) (requiredFields : List String)
    (expectedSessionContext : Bytes) : V2Result V2ContextPolicy :=
  if profile = "" then
    err .configurationInvalid "v2 context policy profile must be non-empty valid UTF-8"
  else do
    checkFields 0 [] requiredFields
    if hbound : requireBound = true ∧ (requiredFields = [] ∨ expectedSessionContext.length ≠ 32) then
      err .configurationInvalid
        "bound v2 context policy requires fields and a 32-byte authenticated context"
    else if hunbound : requireBound = false ∧ expectedSessionContext ≠ [] then
      err .configurationInvalid "unbound v2 context policy cannot carry an expected context"
    else if profile = verifySessionContextProfileV2
        ∧ (requireBound = false ∨ requiredFields ≠ verifySessionContextFieldsV2) then
      err .configurationInvalid
        "Ratify Verify session-context policy must require the canonical field set"
    else do
      let encoded ← classify .configurationInvalid
        (canonical (digestCj profile requireBound requiredFields))
      .ok { profile, requireBound, requiredFields, expectedSessionContext
            digest := "sha384:" ++ hexEncode (sha384 P [encoded])
            bound := fun h => by
              simpa [h] using hbound
            unbound := fun h => by
              simpa [h] using hunbound
            named := validPrefixedDigest_hexEncode (P.length_sha384 _) }

/-- `is_valid`. -/
def isValid (p : V2ContextPolicy) : Bool := p.digest != "" && validPrefixedDigest p.digest

/-- Every policy that was built is valid. -/
@[simp] theorem isValid_eq_true (p : V2ContextPolicy) : p.isValid = true := by
  have hne : p.digest ≠ "" := by
    intro h
    have hnamed := p.named
    rw [h] at hnamed
    revert hnamed
    decide
  simp [isValid, p.named, hne]

end V2ContextPolicy

def contextPolicyFailure (assessment status reason detail : String) : V2ContextPolicyAssessment :=
  { assessment, policyDigest := none, status, reason, detail }

/-- `evaluate_proof_bundle_v2_context_policy` for a bundle that is there. -/
def evaluateProofBundleV2ContextPolicy (b : ProofBundleV2) (policy : Option V2ContextPolicy) :
    V2ContextPolicyAssessment :=
  let absent := if b.sessionContext.isSome then "unverified" else "unbound"
  match policy with
  | none => contextPolicyFailure absent "authorization_unverified" "action_context_unverified"
      "no caller-authenticated context policy is configured"
  | some policy =>
    if !policy.isValid then
      contextPolicyFailure absent "authorization_unverified" "action_context_unverified"
        "no valid caller-authenticated context policy is configured"
    else if !policy.requireBound then
      { assessment := "not_required", policyDigest := some policy.digest, status := "passed"
        reason := "", detail := "" }
    else
      match b.sessionContext with
      | none =>
        { assessment := "unverified", policyDigest := some policy.digest
          status := "authorization_unverified", reason := "action_context_unverified"
          detail := "required session context is absent" }
      | some sessionContext =>
        if sessionContext ≠ policy.expectedSessionContext then
          { assessment := "mismatch", policyDigest := some policy.digest
            status := "constraint_denied", reason := "constraint_denied"
            detail := "proof session context does not match the verifier's authenticated context" }
        else
          { assessment := "bound", policyDigest := some policy.digest, status := "passed"
            reason := "", detail := "" }

/-- `same_v2_context_policy`. -/
def sameV2ContextPolicy : Option V2ContextPolicy → Option V2ContextPolicy → Bool
  | some a, some b => a.isValid && b.isValid && a == b
  | _, _ => false

theorem sameV2ContextPolicy_iff {a b : Option V2ContextPolicy} :
    sameV2ContextPolicy a b = true ↔ ∃ p, a = some p ∧ b = some p := by
  cases a with
  | none => simp [sameV2ContextPolicy]
  | some p =>
    cases b with
    | none => simp [sameV2ContextPolicy]
    | some q =>
      simp only [sameV2ContextPolicy, V2ContextPolicy.isValid_eq_true, Bool.true_and, beq_iff_eq,
        Option.some.injEq]
      refine ⟨fun h => ⟨p, rfl, h.symm⟩, ?_⟩
      rintro ⟨r, rfl, rfl⟩
      rfl

/-- The context of a bundle is the one a policy asks for. -/
structure ContextBound (b : ProofBundleV2) (policy : V2ContextPolicy) : Prop where
  context : policy.requireBound = true → b.sessionContext = some policy.expectedSessionContext

/-- A policy passes exactly where it asks for no context or for that of the bundle. -/
theorem contextPolicy_passed_iff {b : ProofBundleV2} {policy : Option V2ContextPolicy} :
    (evaluateProofBundleV2ContextPolicy b policy).status = "passed"
      ↔ ∃ p, policy = some p ∧ ContextBound b p := by
  cases policy with
  | none => simp [evaluateProofBundleV2ContextPolicy, contextPolicyFailure]
  | some p =>
    simp only [evaluateProofBundleV2ContextPolicy, V2ContextPolicy.isValid_eq_true, Bool.not_true,
      Bool.false_eq_true, if_false, Option.some.injEq, exists_eq_left']
    cases hbound : p.requireBound with
    | false =>
      have hunbound : ContextBound b p := ⟨by simp [hbound]⟩
      simpa [hbound] using hunbound
    | true =>
      cases hcontext : b.sessionContext with
      | none =>
        simp only [Bool.not_true, Bool.false_eq_true, if_false]
        refine ⟨fun h => absurd h (by decide), fun h => ?_⟩
        rw [h.context hbound] at hcontext
        cases hcontext
      | some c =>
        by_cases hsame : c = p.expectedSessionContext
        · subst hsame
          simpa using ContextBound.mk fun _ => hcontext
        · simp only [Bool.not_true, Bool.false_eq_true, if_false, ne_eq, hsame, not_false_eq_true,
            if_true]
          refine ⟨fun h => absurd h (by decide), fun h => ?_⟩
          rw [h.context hbound] at hcontext
          exact absurd (Option.some.inj hcontext).symm hsame

end RatifyProtocol.V2
