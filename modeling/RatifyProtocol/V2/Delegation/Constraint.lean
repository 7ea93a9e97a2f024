import RatifyProtocol.V2.Delegation.Params
set_option autoImplicit false

/-!
# V2: the closed constraint registry

The decoding, encoding and validation part of `v2/constraints.rs`.  Four types
have members of their own, the receiver audience has checked parameters, and
every other type is unregistered: a `type` and optional parameters.
-/

namespace RatifyProtocol.V2

open Foundation

def constraintTimeWindow : String := "time_window"
def constraintMaxAmount : String := "max_amount"
def constraintMaxRate : String := "max_rate"
def constraintResourcePath : String := "resource_path"
def constraintReceiverAudience : String := "ratify.receiver_audience"
def maxAudienceIdsV2 : Nat := 64
def v2MaxRateWindowSeconds : Int := 86400
def v2MaxAudienceMembershipAgeSeconds : Int := 86400

/-- One entry of a delegation's `constraints`.  Only the members of the schema
of `kind` are encoded; an empty `path_prefix` is absent. -/
structure ConstraintV2 where
  kind : String
  start : String
  end_ : String
  tz : String
  currency : String
  maxAmountMicros : Int
  count : Int
  windowS : Int
  resourceId : String
  pathPrefix : String
  params : Option ParamsMap

/-- `ConstraintV2 { kind, ..ConstraintV2::default() }`. -/
def ConstraintV2.ofKind (kind : String) : ConstraintV2 :=
  { kind, start := "", end_ := "", tz := "", currency := "", maxAmountMicros := 0, count := 0
    windowS := 0, resourceId := "", pathPrefix := "", params := none }

def isRegisteredStructured (kind : String) : Bool :=
  kind == constraintTimeWindow || kind == constraintMaxAmount || kind == constraintMaxRate
    || kind == constraintResourcePath

/-! ## Checks on a parsed constraint -/

mutual

/-- `check_v2_nulls` on the value of a node. -/
def checkV2Nulls : JV → V2Result Unit
  | .null => plain "null is not allowed in this v2 object"
  | .obj fields => checkV2NullMembers fields
  | .arr items => checkV2NullItems items
  | _ => .ok ()

def checkV2NullNode : JNode → V2Result Unit
  | .mk v _ _ => checkV2Nulls v

def checkV2NullItems : List JNode → V2Result Unit
  | [] => .ok ()
  | x :: xs => do
    checkV2NullNode x
    checkV2NullItems xs

def checkV2NullMembers : List (String × JNode) → V2Result Unit
  | [] => .ok ()
  | (k, x) :: fields => do
    if k = "params" then .ok () else checkV2NullNode x
    checkV2NullMembers fields

end

/-- A JSON integer token in the safe-integer range. -/
def v2IntegerField (node : JNode) : V2Result Int :=
  match node.v with
  | .num token => do
    let text := token.toList
    let digits := if text.head? = some '-' then text.tail else text
    refuseIf (digits.isEmpty || (decide (digits.length > 1) && digits.head? == some '0'))
      s!"integer {debugQuote token} is not canonical"
    refuseIf (!digits.all Char.isDigit) s!"integer {debugQuote token} is not a JSON integer"
    refuseIf (token == "-0") "negative zero is not a canonical integer"
    match parseI64 text with
    | some n =>
      if -maxSafe ≤ n ∧ n ≤ maxSafe then .ok n
      else plain s!"integer {debugQuote token} is outside the safe-integer range"
    | none => plain s!"integer {debugQuote token} is outside the safe-integer range"
  | _ => plain "integer is required"

def v2StringField (node : JNode) : V2Result String :=
  match node.v with
  | .str s => .ok s
  | _ => plain "string is required"

def validIso4217AlphaV2 (code : String) : Bool :=
  (utf8 code).length == 3 && (utf8 code).all fun b => 65 ≤ b && b ≤ 90

/-- 1 to 64 bytes of `/`-separated segments of `[A-Za-z0-9_+-]`, none of them
empty, `.` or `..`. -/
def validTimeZoneIdV2 (tz : String) : Bool :=
  !(tz == "" || decide ((utf8 tz).length > 64))
    && (tz.toList.splitOn '/').all fun segment =>
      !segment.isEmpty && segment != ['.'] && segment != ['.', '.']
        && segment.all fun c => c.isAlphanum || c == '_' || c == '+' || c == '-'

/-- `u8::is_ascii_digit`. -/
def isAsciiDigit (b : UInt8) : Bool := 48 ≤ b && b ≤ 57

/-- Exactly `HH:MM` with hours 00..23 and minutes 00..59; the minute of day. -/
def parseHhmmV2 (s : String) : V2Result Int :=
  match utf8 s with
  | [h₁, h₀, colon, m₁, m₀] => do
    refuseIf (colon != 58 || !([h₁, h₀, m₁, m₀].all isAsciiDigit))
      s!"expected HH:MM, got {debugQuote s}"
    let h : Int := (h₁.toNat - 48) * 10 + (h₀.toNat - 48)
    let m : Int := (m₁.toNat - 48) * 10 + (m₀.toNat - 48)
    refuseIf (decide (h > 23 ∨ m > 59)) s!"out-of-range HH:MM {debugQuote s}"
    .ok (h * 60 + m)
  | _ => plain s!"expected HH:MM, got {debugQuote s}"

/-- Whether a field read succeeds with a value that passes `good`. -/
def reads {α : Type} (r : V2Result α) (good : α → Bool) : Bool :=
  match r with
  | .ok a => good a
  | .error _ => false

/-- Every member is `type`, required or optional, and the required ones are there. -/
def exactMembers (kind : String) (fields : Obj) (required optional : List String) :
    V2Result Unit :=
  match fields.find? fun f =>
      f.1 != "type" && !required.contains f.1 && !optional.contains f.1 with
  | some f => plain s!"field {debugQuote f.1} is not allowed for constraint type {debugQuote kind}"
  | none =>
    match required.find? fun name => (fields.get name).isNone with
    | some name => plain s!"constraint type {debugQuote kind} requires field {debugQuote name}"
    | none => .ok ()

def requiredNode (fields : Obj) (name : String) : V2Result JNode :=
  match fields.get name with
  | some n => .ok n
  | none => plain s!"constraint requires field {debugQuote name}"

/-- One clock time of a `time_window`. -/
def validateHhmmField (fields : Obj) (name : String) : V2Result Unit := do
  let n ← requiredNode fields name
  let value ← match v2StringField n with
    | .ok s => .ok s
    | .error _ => plain s!"time_window {name} must be a string"
  let _ ← withContext (parseHhmmV2 value) s!"time_window {name}"
  .ok ()

def validateTimeWindow (kind : String) (fields : Obj) : V2Result Unit := do
  exactMembers kind fields ["start", "end", "tz"] []
  validateHhmmField fields "start"
  validateHhmmField fields "end"
  let n ← requiredNode fields "tz"
  refuseIf (!reads (v2StringField n) validTimeZoneIdV2)
    "time_window tz must be 1 to 64 bytes of /-separated [A-Za-z0-9_+-] segments"

def validateMaxAmount (kind : String) (fields : Obj) : V2Result Unit := do
  exactMembers kind fields ["currency", "max_amount_micros"] []
  let n ← requiredNode fields "currency"
  refuseIf (!reads (v2StringField n) validIso4217AlphaV2)
    "max_amount currency must be an ISO-4217 alphabetic code"
  let n ← requiredNode fields "max_amount_micros"
  refuseIf (!reads (v2IntegerField n) fun k => decide (k ≥ 0))
    "max_amount_micros must be a nonnegative safe integer"

def validateMaxRate (kind : String) (fields : Obj) : V2Result Unit := do
  exactMembers kind fields ["count", "window_s"] []
  let n ← requiredNode fields "count"
  refuseIf (!reads (v2IntegerField n) fun k => decide (k > 0))
    "max_rate count must be a positive safe integer"
  let n ← requiredNode fields "window_s"
  refuseIf (!reads (v2IntegerField n) fun k => decide (k > 0 ∧ k ≤ v2MaxRateWindowSeconds))
    s!"max_rate window_s must be an integer in 1..{v2MaxRateWindowSeconds}"

def validateResourcePath (kind : String) (fields : Obj) : V2Result Unit := do
  exactMembers kind fields ["resource_id"] ["path_prefix"]
  let n ← requiredNode fields "resource_id"
  refuseIf (!reads (v2StringField n) fun id =>
      id != "" && decide ((utf8 id).length ≤ maxIdentifierLengthBytes))
    "resource_path resource_id must be a non-empty string within MAX_IDENTIFIER_LENGTH_BYTES"
  match fields.get "path_prefix" with
  | some raw =>
    refuseIf (!reads (v2StringField raw) fun p => p != "")
      "resource_path path_prefix must be a non-empty string when present"
  | none => .ok ()

/-- The strings of an array node; a `null` element reads as the empty string. -/
def stringElement (n : JNode) : Option String :=
  match n.v with
  | .str s => some s
  | .null => some ""
  | _ => none

def stringArray (node : Option JNode) : Option (List String) :=
  match node with
  | some n =>
    match n.v with
    | .arr items => items.mapM stringElement
    | _ => none
  | none => none

/-- The per-ID check of an audience array, with the IDs already seen. -/
def validateAudienceIds (seen : List String) : List String → V2Result Unit
  | [] => .ok ()
  | v :: values => do
    refuseIf (v == "" || decide ((utf8 v).length > maxIdentifierLengthBytes) || seen.contains v)
      s!"receiver audience IDs must be unique and 1 to {maxIdentifierLengthBytes} bytes"
    validateAudienceIds (v :: seen) values

def validateAudienceArray (values : List String) : V2Result Unit := do
  refuseIf (decide (values.length > maxAudienceIdsV2))
    s!"receiver audience arrays hold at most {maxAudienceIdsV2} IDs"
  validateAudienceIds [] values

def audienceParameters : List String :=
  ["exact_receiver_ids", "trust_domain_ids", "max_membership_age_seconds"]

def validateV2ReceiverAudience (raw : JNode) : V2Result Unit :=
  match raw.v with
  | .obj params =>
    match params.find? fun f => !audienceParameters.contains f.1 with
    | some f => plain s!"unknown receiver audience parameter {debugQuote f.1}"
    | none =>
      match stringArray (Obj.get params "exact_receiver_ids"),
          stringArray (Obj.get params "trust_domain_ids") with
      | some exact_, some domains => do
        refuseIf (decide (exact_.length + domains.length = 0))
          "receiver audience must name an exact receiver or trust domain"
        validateAudienceArray exact_
        validateAudienceArray domains
        let age := Obj.get params "max_membership_age_seconds"
        refuseIf (!domains.isEmpty && age.all JNode.isNull)
          "receiver audience trust domains require max_membership_age_seconds"
        match age with
        | some a =>
          refuseIf (!reads (v2IntegerField a) fun n =>
              decide (n > 0 ∧ n ≤ v2MaxAudienceMembershipAgeSeconds))
            s!"max_membership_age_seconds must be an integer in 1..{v2MaxAudienceMembershipAgeSeconds}"
        | none => .ok ()
        refuseIf (domains.isEmpty && age.isSome)
          "receiver audience without trust domains must omit max_membership_age_seconds"
      | _, _ =>
        plain "receiver audience requires exact_receiver_ids and trust_domain_ids arrays"
  | _ => plain "receiver audience requires params object"

def validateReceiverAudience (kind : String) (fields : Obj) : V2Result Unit := do
  exactMembers kind fields ["params"] []
  let n ← requiredNode fields "params"
  validateV2ReceiverAudience n

def validateUnregistered (kind : String) (fields : Obj) : V2Result Unit := do
  refuseIf (decide ((utf8 kind).length > maxIdentifierLengthBytes))
    "unregistered constraint type exceeds MAX_IDENTIFIER_LENGTH_BYTES"
  exactMembers kind fields [] ["params"]
  match fields.get "params" with
  | none => .ok ()
  | some raw => do
    let params ← paramsObject raw
    match params with
    | none => plain "unregistered constraint params must be an object"
    | some map => (validateParamsValue 0 (.object map.entries)).mapError V2Error.plain

/-- The type of a constraint: a non-empty string. -/
def constraintKind (fields : Obj) : V2Result String :=
  match (fields.get "type").map JNode.v with
  | some (.str s) =>
    if s = "" then plain "constraint type must be a non-empty string" else .ok s
  | _ => plain "constraint type must be a non-empty string"

/-- The members of a constraint of type `kind`. -/
def validateMembersOf (kind : String) (fields : Obj) : V2Result Unit :=
  if kind = constraintTimeWindow then validateTimeWindow kind fields
  else if kind = constraintMaxAmount then validateMaxAmount kind fields
  else if kind = constraintMaxRate then validateMaxRate kind fields
  else if kind = constraintResourcePath then validateResourcePath kind fields
  else if kind = constraintReceiverAudience then validateReceiverAudience kind fields
  else validateUnregistered kind fields

/-- Enforce the closed registry on one parsed constraint object. -/
def validateV2ConstraintFields (node : JNode) : V2Result Unit := do
  checkV2NullNode node
  match node.v with
  | .obj fields => do
    let kind ← constraintKind fields
    validateMembersOf kind fields
  | _ => plain "constraint must be an object"

/-! ## Encoding and decoding -/

/-- The members of the schema of `c.kind`. -/
def constraintBody (c : ConstraintV2) : List (String × CJ) :=
  ("type", .str c.kind) ::
    if c.kind = constraintTimeWindow then
      [("start", .str c.start), ("end", .str c.end_), ("tz", .str c.tz)]
    else if c.kind = constraintMaxAmount then
      [("currency", .str c.currency), ("max_amount_micros", .int c.maxAmountMicros)]
    else if c.kind = constraintMaxRate then
      [("count", .int c.count), ("window_s", .int c.windowS)]
    else if c.kind = constraintResourcePath then
      ("resource_id", .str c.resourceId) ::
        if c.pathPrefix = "" then [] else [("path_prefix", .str c.pathPrefix)]
    else match c.params with
      | some params => [("params", paramsMapCj params)]
      | none => []

namespace ConstraintV2

/-- The canonical JSON value of a constraint, validated against the registry. -/
def toCj (c : ConstraintV2) : V2Result CJ := do
  refuseIf (c.params.isSome && isRegisteredStructured c.kind)
    s!"v2 constraint type {debugQuote c.kind} must not carry params"
  let encoded ← canonical (.obj (constraintBody c))
  let root ← parseJson encoded
  validateV2ConstraintFields root
  .ok (.obj (constraintBody c))

/-- Decode one constraint that passes the registry. -/
def fromNode (node : JNode) : V2Result ConstraintV2 := do
  validateV2ConstraintFields node
  let o ← obj node
  let kind ← o.str "type"
  let out := ofKind kind
  if kind = constraintTimeWindow then do
    let start ← o.str "start"
    let end_ ← o.str "end"
    let tz ← o.str "tz"
    .ok { out with start, end_, tz }
  else if kind = constraintMaxAmount then do
    let currency ← o.str "currency"
    let maxAmountMicros ← o.i64 "max_amount_micros"
    .ok { out with currency, maxAmountMicros }
  else if kind = constraintMaxRate then do
    let count ← o.i64 "count"
    let windowS ← o.i64 "window_s"
    .ok { out with count, windowS }
  else if kind = constraintResourcePath then do
    let resourceId ← o.str "resource_id"
    let pathPrefix ← o.str "path_prefix"
    .ok { out with resourceId, pathPrefix }
  else match o.get "params" with
    | some raw => do
      let params ← paramsObject raw
      .ok { out with params }
    | none => .ok out

end ConstraintV2

end RatifyProtocol.V2
