import RatifyProtocol.Foundation.Horizon
import RatifyProtocol.V2.Delegation.Bundle
import RatifyProtocol.V2.Delegation.Evaluate
set_option autoImplicit false

/-!
# V2: the local constraints of a bundle

`evaluate_v2_local_constraints` of `v2/authorization.rs` with the call of an
extension evaluator in `v2/evaluator.rs`.  Rates and receiver audiences are put
off to stages of their own, with the canonical bytes those stages decode again.
What an evaluator answers, late or not at all, is a function of its input.
-/

namespace RatifyProtocol.V2

open Foundation

/-! ## Extension evaluators -/

/-- Everything an evaluator may read. -/
structure ConstraintEvaluationInputV2 where
  kind : String
  paramsJson : Option Bytes
  delegationIndex : Nat
  constraintIndex : Nat
  issuerId : String
  certId : String
  context : ConstraintContextV2
  evaluationTime : Int

inductive ConstraintOutcomeV2 where
  | pass
  | denied
  | unverifiable
  | invalid
  deriving DecidableEq, Repr

/-- An evaluator's answer; a `validUntil` of zero is no horizon. -/
structure ConstraintEvaluationResultV2 where
  outcome : ConstraintOutcomeV2
  validUntil : Int
  detail : String

/-- `Answer`. -/
inductive EvaluatorAnswer where
  | returned (result : Except String ConstraintEvaluationResultV2)
  | panicked
  | timedOut
  | notStarted

abbrev RegisteredEvaluator : Type := ConstraintEvaluationInputV2 → EvaluatorAnswer

/-- The evaluators sealed at preflight, and how their timeout is displayed. -/
structure SealedEvaluators where
  entries : OrderedMap String RegisteredEvaluator
  timeout : String

/-- `map_evaluator_result`: a horizon, zero for none. -/
def mapEvaluatorResult (kind : String) (evaluationTime : Int)
    (result : ConstraintEvaluationResultV2) : Except ConstraintFailure Int :=
  match result.outcome with
  | .pass =>
    if result.validUntil = 0 then .ok 0
    else if result.validUntil ≤ evaluationTime then
      .error (.unverifiable
        s!"{kind} evaluator returned a pass horizon not after the evaluation time")
    else .ok (min result.validUntil v2MaxTimestampSeconds)
  | .denied =>
    if result.validUntil ≠ 0 then
      .error (.unverifiable s!"{kind} evaluator returned a horizon with a denial")
    else .error (.denied s!"{kind} denied: {result.detail}")
  | .unverifiable =>
    if result.validUntil ≠ 0 then
      .error (.unverifiable s!"{kind} evaluator returned a horizon with an unverifiable result")
    else .error (.unverifiable s!"{kind} unverifiable: {result.detail}")
  | .invalid => .error (.unverifiable s!"{kind} evaluator returned an invalid outcome")

/-- `run_constraint_evaluator_v2`. -/
def runConstraintEvaluatorV2 (entry : RegisteredEvaluator) (timeout : String)
    (input : ConstraintEvaluationInputV2) : Except ConstraintFailure Int :=
  match entry input with
  | .timedOut =>
    .error (.unverifiable s!"{input.kind} evaluator did not answer within {timeout}")
  | .notStarted => .error (.unverifiable s!"{input.kind} evaluator could not be started")
  | .panicked => .error (.unverifiable s!"{input.kind} evaluator panicked")
  | .returned (.error e) => .error (.unverifiable s!"{input.kind} evaluator failed: {e}")
  | .returned (.ok result) => mapEvaluatorResult input.kind input.evaluationTime result

/-- The canonical params object of an extension constraint, if it has one. -/
def extensionParamsJsonV2 (c : ConstraintV2) : V2Result (Option Bytes) :=
  match c.params with
  | none => .ok none
  | some params => do
    let encoded ← canonical (paramsMapCj params)
    .ok (some encoded)

/-! ## One constraint -/

/-- A constraint for the audience or the rate stage. -/
structure V2DeferredConstraint where
  delegationIndex : Nat
  constraintIndex : Nat
  issuerId : String
  certId : String
  kind : String
  canonicalJson : Bytes
  deriving DecidableEq, Repr

def isRegisteredConstraintTypeV2 (kind : String) : Bool :=
  isRegisteredStructured kind || kind == constraintReceiverAudience

/-- `ConstraintV2::canonical_json`. -/
def ConstraintV2.canonicalJson (c : ConstraintV2) : V2Result Bytes := do
  let v ← c.toCj
  canonical v

/-- What the local stage evaluates against. -/
structure LocalInputs where
  archive : ZoneArchive
  evaluators : SealedEvaluators
  context : ConstraintContextV2
  tzdbVersion : String
  now : Int

/-- What the local stage makes of one constraint. -/
inductive LocalVerdict where
  | deferred (d : V2DeferredConstraint)
  | unencodable (e : V2Error)
  | evaluated (r : Except ConstraintFailure Int)

/-- The body of the loop of `evaluate_v2_local_constraints`, for constraint `j` of
delegation `i`. -/
def localVerdict (s : LocalInputs) (i j : Nat) (issuerId certId : String) (c : ConstraintV2) :
    LocalVerdict :=
  if c.kind = constraintMaxRate ∨ c.kind = constraintReceiverAudience then
    match c.canonicalJson with
    | .ok encoded =>
      .deferred { delegationIndex := i, constraintIndex := j, issuerId, certId, kind := c.kind
                  canonicalJson := encoded }
    | .error e => .unencodable e
  else
    match s.evaluators.entries.get? c.kind, isRegisteredConstraintTypeV2 c.kind with
    | some entry, false =>
      match extensionParamsJsonV2 c with
      | .error e => .evaluated (.error (.unverifiable
          s!"{c.kind} params cannot be encoded: {e.message}"))
      | .ok paramsJson => .evaluated (runConstraintEvaluatorV2 entry s.evaluators.timeout
          { kind := c.kind, paramsJson, delegationIndex := i, constraintIndex := j, issuerId, certId
            context := s.context, evaluationTime := s.now })
    | _, _ => .evaluated
        ((evaluateConstraintV2 s.archive c s.context s.tzdbVersion s.now).map fun _ => 0)

/-! ## All constraints -/

/-- The status of a constraint stage; `passed` is the empty status of the local one. -/
inductive ConstraintStatusV2 where
  | passed
  | unverifiable
  | unknown
  | denied
  deriving DecidableEq, Repr

namespace ConstraintStatusV2

/-- `constraint_precedence_v2`. -/
def precedence : ConstraintStatusV2 → Nat
  | .denied => 3
  | .unknown => 2
  | .unverifiable => 1
  | .passed => 0

/-- Keep a status of higher precedence. -/
def merge (status next : ConstraintStatusV2) : ConstraintStatusV2 :=
  if next.precedence > status.precedence then next else status

end ConstraintStatusV2

def ConstraintFailure.status : ConstraintFailure → ConstraintStatusV2
  | .denied _ => .denied
  | .unverifiable _ => .unverifiable
  | .unknown _ => .unknown

def ConstraintFailure.message : ConstraintFailure → String
  | .denied m => m
  | .unverifiable m => m
  | .unknown m => m

/-- What `evaluate_v2_local_constraints` returns. -/
structure LocalConstraints where
  deferred : List V2DeferredConstraint
  status : ConstraintStatusV2
  failures : List String
  extensionHorizon : Int

namespace LocalConstraints

def empty : LocalConstraints :=
  { deferred := [], status := .passed, failures := [], extensionHorizon := 0 }

/-- Add the verdict on constraint `j` of delegation `i`. -/
def record (s : LocalConstraints) (i j : Nat) : LocalVerdict → LocalConstraints
  | .deferred d => { s with deferred := s.deferred ++ [d] }
  | .unencodable e =>
    { s with
      status := s.status.merge .unverifiable
      failures := s.failures
        ++ [s!"delegation {i} constraint {j} cannot be encoded: {e.message}"] }
  | .evaluated (.ok horizon) =>
    { s with
      extensionHorizon :=
        if horizon = 0 then s.extensionHorizon else tighten s.extensionHorizon horizon }
  | .evaluated (.error failure) =>
    { s with
      status := s.status.merge failure.status
      failures := s.failures ++ [s!"delegation {i} constraint {j}: {failure.message}"] }

end LocalConstraints

/-- A constraint with its position and the names of its certificate. -/
structure PlacedConstraint where
  delegationIndex : Nat
  constraintIndex : Nat
  issuerId : String
  certId : String
  constraint : ConstraintV2

/-- The constraints of a bundle in chain order. -/
def ProofBundleV2.placed (b : ProofBundleV2) : List PlacedConstraint :=
  b.delegations.zipIdx.flatMap fun cert => cert.1.constraints.zipIdx.map fun c =>
    { delegationIndex := cert.2, constraintIndex := c.2, issuerId := cert.1.issuerId
      certId := cert.1.certId, constraint := c.1 }

/-- The local verdict on a constraint of a bundle. -/
def PlacedConstraint.verdict (s : LocalInputs) (p : PlacedConstraint) : LocalVerdict :=
  localVerdict s p.delegationIndex p.constraintIndex p.issuerId p.certId p.constraint

def evaluateV2LocalConstraints (s : LocalInputs) (b : ProofBundleV2) : LocalConstraints :=
  b.placed.foldl (fun acc p => acc.record p.delegationIndex p.constraintIndex (p.verdict s)) .empty

end RatifyProtocol.V2
