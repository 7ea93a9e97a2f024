import RatifyProtocol.V2.Errors
import RatifyProtocol.Foundation.Text
set_option autoImplicit false

/-!
# V2: wire limits and clock bounds

`v2/limits.rs` and the byte limits of `types.rs`.  Every time value is integer
Unix seconds and every deadline is exclusive.
-/

namespace RatifyProtocol.V2

open Foundation

def maxIdentifierLengthBytes : Nat := 512
def maxJsonNestingDepth : Nat := 16
def maxRevocationPushBytesV2 : Nat := 262144
def maxRevocationPushRefsV2 : Nat := 512
def maxRevocationListBytesV2 : Nat := 4194304
def maxRevocationListRefsV2 : Nat := 10000

/-- 9999-12-31T23:59:59Z. -/
def v2MaxTimestampSeconds : Int := 253402300799
def v2MaxFutureSkewSeconds : Int := 300
def v2MaxStatusLifetimeSeconds : Int := 86400

/-- `2^53 - 1`, the largest integer the wire carries exactly. -/
def maxSafe : Int := 9007199254740991

/-- The pre-parse size gate shared by every decoder. -/
def checkV2WireSize (data : Bytes) (object limitName : String) (limit : Nat) :
    V2Result Unit :=
  refuseIf (decide (data.length > limit))
    s!"wire v2: {object} exceeds {limitName} ({limit} bytes); rejected before parsing"

/-- Whether `t` is inside the timestamp domain. -/
def validV2Timestamp (t : Int) : Bool := 0 ≤ t && t ≤ v2MaxTimestampSeconds

/-- Add two second counts inside the timestamp domain. -/
def checkedAddV2 (a b : Int) : Option Int :=
  if !validV2Timestamp a || !validV2Timestamp b then none else some (a + b)

@[simp] theorem validV2Timestamp_iff {t : Int} :
    validV2Timestamp t = true ↔ 0 ≤ t ∧ t ≤ v2MaxTimestampSeconds := by
  simp [validV2Timestamp]

end RatifyProtocol.V2
