import RatifyProtocol.Foundation.SortedSet
import RatifyProtocol.V2.Json
set_option autoImplicit false

/-!
# V2: sealed constraint evaluators

The references of `v2/evaluator.rs` by which a claim and its receipt name the
extension evaluator profiles the chain was evaluated with.
-/

namespace RatifyProtocol.V2

open Foundation

def maxConstraintEvaluatorsV2 : Nat := 32
def maxExtensionTypeBytesV2 : Nat := 128

/-- One entry of a receipt's `constraint_evaluators` and of a claim's sealed
evaluator snapshot. -/
structure ConstraintEvaluatorRefV2 where
  kind : String
  profileDigest : String
  deriving DecidableEq, Repr

/-- A non-empty label of `[a-z0-9_-]`. -/
def labelOk (label : List Char) : Bool :=
  !label.isEmpty && label.all fun c => c.isLower || c.isDigit || c == '_' || c == '-'

/-- At least three labels separated by `.`, not in the reserved `ratify.`
namespace. -/
def validExtensionTypeV2 (t : String) : Bool :=
  if t == "" || decide ((utf8 t).length > maxExtensionTypeBytesV2)
      || startsWith t "ratify." then false
  else
    let labels := t.toList.splitOn '.'
    decide (labels.length ≥ 3) && labels.all labelOk

/-- `"sha384:"` followed by 96 lowercase hexadecimal characters. -/
def validPrefixedDigest (value : String) : Bool :=
  (utf8 "sha384:").isPrefixOf (utf8 value)
    && (let h := (utf8 value).drop (utf8 "sha384:").length
        h.length == 96 && h.all fun b => (48 ≤ b && b ≤ 57) || (97 ≤ b && b ≤ 102))

theorem validPrefixedDigest_hexEncode {b : Bytes} (h : b.length = 48) :
    validPrefixedDigest ("sha384:" ++ hexEncode b) = true := by
  have hnamed : (utf8 "sha384:").isPrefixOf (utf8 "sha384:" ++ utf8 (hexEncode b)) = true := by
    rw [List.isPrefixOf_iff_prefix]
    exact List.prefix_append _ _
  have hlen := length_utf8_hexEncode b
  simp only [validPrefixedDigest, utf8_append, hnamed, List.drop_left', Bool.true_and,
    Bool.and_eq_true, beq_iff_eq, List.all_eq_true, Bool.or_eq_true, decide_eq_true_eq]
  exact ⟨by omega, fun x hx => mem_utf8_hexEncode hx⟩

/-- Valid references, sorted and unique by type. -/
def validConstraintEvaluatorRefsV2 (refs : List ConstraintEvaluatorRefV2) : Bool :=
  decide (refs.length ≤ maxConstraintEvaluatorsV2)
    && (refs.all fun r => validExtensionTypeV2 r.kind && validPrefixedDigest r.profileDigest)
    && ascendingBy (fun a b => decide (a.kind < b.kind)) refs

def evaluatorRefsCj (refs : List ConstraintEvaluatorRefV2) : CJ :=
  .arr (refs.map fun r =>
    .obj [("profile_digest", .str r.profileDigest), ("type", .str r.kind)])

end RatifyProtocol.V2
