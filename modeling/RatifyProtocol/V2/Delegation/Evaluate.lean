import RatifyProtocol.ResourcePath
import RatifyProtocol.V2.Zone
set_option autoImplicit false

/-!
# V2: one constraint against its context

`load_zone` of `v2/tzdb.rs` and the evaluation of one registered constraint in
`v2/authorization.rs`.  The embedded archive is a parameter: its index, and what
unpacking an entry gives.
-/

namespace RatifyProtocol.V2

open Foundation

/-! ## The zone archive -/

/-- `TZDB_VERSION`. -/
def tzdbVersionV2 : String := "2025c"

/-- The index of the archive, which may be unreadable, and the unpacked bytes of
each entry that is not a directory. -/
abbrev ZoneArchive := Except String (String → Option (Except String Bytes))

variable (archive : ZoneArchive)

/-- `load_zone`; the cache only keeps what this computes. -/
def loadZone (name : String) : Except String Zone := do
  let index ← archive
  match if name = "" ∨ name = "Local" then none else index name with
  | none => .error s!"time zone {debugQuote name} is not in IANA tzdata {tzdbVersionV2}"
  | some unpacked => do
    let data ← unpacked
    (parseTzif name data).mapError fun e =>
      s!"time zone {debugQuote name} in IANA tzdata {tzdbVersionV2} is unreadable: {e}"

/-- `load_v2_time_zone`. -/
def loadV2TimeZone (configuredVersion tz : String) : Except String Zone :=
  if configuredVersion = "" then .error "no tzdb_version is configured"
  else if configuredVersion ≠ tzdbVersionV2 then
    .error s!"configured tzdb_version {debugQuote configuredVersion} differs from the loaded IANA tzdata {tzdbVersionV2}"
  else loadZone archive tz

/-! ## Local time -/

/-- `LocalTime`. -/
structure LocalTime where
  offset : Int
  year : Int
  month : Int
  day : Int
  minuteOfDay : Int
  deriving DecidableEq, Repr

/-- `local_time`. -/
def localTime (z : Zone) (now : Int) : LocalTime :=
  let info := z.lookup now
  let civil := civilFromUnix (IntType.i64.wrap (now + info.offsetSeconds))
  { offset := info.offsetSeconds, year := civil.year, month := civil.month, day := civil.day
    minuteOfDay := civil.hour * 60 + civil.minute }

/-- Whether a minute of the day is inside a window, both ends included; a window
that starts after its end wraps past midnight. -/
def InsideWindow (start end_ minute : Int) : Prop :=
  if start ≤ end_ then start ≤ minute ∧ minute ≤ end_ else start ≤ minute ∨ minute ≤ end_

instance (start end_ minute : Int) : Decidable (InsideWindow start end_ minute) :=
  inferInstanceAs (Decidable
    (if start ≤ end_ then start ≤ minute ∧ minute ≤ end_ else start ≤ minute ∨ minute ≤ end_))

/-! ## Evaluation -/

/-- What a verifier knows about the request. -/
structure ConstraintContextV2 where
  requestedAmountMicros : Int
  requestedCurrency : String
  hasAmount : Bool
  requestedResourceId : String
  requestedPath : String
  hasResource : Bool
  extensionCounts : OrderedMap String Int
  extensionValues : OrderedMap String String

/-- The verdict of a constraint that does not pass. -/
inductive ConstraintFailure where
  | denied (message : String)
  | unverifiable (message : String)
  | unknown (message : String)
  deriving DecidableEq, Repr

/-- `{:02}`. -/
def twoDigits (n : Int) : String := if n < 10 then s!"0{n}" else s!"{n}"

def evaluateResourcePath (c : ConstraintV2) (ctx : ConstraintContextV2) :
    Except ConstraintFailure Unit := do
  -- The signed prefix is checked before any input of the request.
  if c.pathPrefix ≠ "" then
    match normalizeResourcePath c.pathPrefix with
    | .error e => .error (.denied s!"malformed path_prefix: {e}")
    | .ok _ => .ok ()
  if ctx.hasResource = false ∨ ctx.requestedResourceId = "" then
    .error (.unverifiable "no requested resource in context")
  else if ctx.requestedResourceId ≠ c.resourceId then
    .error (.denied "requested resource does not match the authorized resource")
  else if c.pathPrefix = "" then .ok ()
  else if ctx.requestedPath = "" then .error (.unverifiable "no requested path in context")
  else match normalizeResourcePath ctx.requestedPath with
    | .error e => .error (.denied s!"invalid requested path: {e}")
    | .ok _ =>
      if resourcePathMatches c.pathPrefix ctx.requestedPath then .ok ()
      else .error (.denied
        s!"requested path {debugQuote ctx.requestedPath} is outside the authorized prefix {debugQuote c.pathPrefix}")

def evaluateTimeWindow (c : ConstraintV2) (tzdbVersion : String) (now : Int) :
    Except ConstraintFailure Unit := do
  let zone ← (loadV2TimeZone archive tzdbVersion c.tz).mapError fun e =>
    .unverifiable s!"time zone {debugQuote c.tz} cannot be evaluated: {e}"
  let start ← (parseHhmmV2 c.start).mapError fun e => .denied e.message
  let end_ ← (parseHhmmV2 c.end_).mapError fun e => .denied e.message
  let cur := (localTime zone now).minuteOfDay
  if InsideWindow start end_ cur then .ok ()
  else .error (.denied
    s!"current {twoDigits (cur / 60)}:{twoDigits (cur % 60)} is outside [{c.start}, {c.end_}] {zone.name}")

def evaluateMaxAmount (c : ConstraintV2) (ctx : ConstraintContextV2) :
    Except ConstraintFailure Unit :=
  if ctx.hasAmount = false then .error (.unverifiable "no requested amount in context")
  else if ctx.requestedAmountMicros < 0 ∨ ctx.requestedAmountMicros > maxSafe
      ∨ validIso4217AlphaV2 ctx.requestedCurrency = false then
    .error (.unverifiable
      "requested amount is not a nonnegative safe integer in ISO-4217 micro-units")
  else if ctx.requestedCurrency ≠ c.currency then
    .error (.denied
      s!"currency mismatch: requested {debugQuote ctx.requestedCurrency}, constraint {debugQuote c.currency}")
  else if ctx.requestedAmountMicros > c.maxAmountMicros then
    .error (.denied
      s!"amount {ctx.requestedAmountMicros} exceeds max {c.maxAmountMicros} micro-units of {c.currency}")
  else .ok ()

/-- `evaluate_constraint_v2`: one locally decidable constraint.  The deferred
kinds have stages of their own. -/
def evaluateConstraintV2 (c : ConstraintV2) (ctx : ConstraintContextV2) (tzdbVersion : String)
    (now : Int) : Except ConstraintFailure Unit :=
  if c.kind = constraintResourcePath then evaluateResourcePath c ctx
  else if c.kind = constraintTimeWindow then evaluateTimeWindow archive c tzdbVersion now
  else if c.kind = constraintMaxAmount then evaluateMaxAmount c ctx
  else if c.kind = constraintMaxRate ∨ c.kind = constraintReceiverAudience then
    .error (.unverifiable s!"{c.kind} requires its dedicated post-status stage")
  else .error (.unknown s!"unknown constraint type: {c.kind}")

end RatifyProtocol.V2
