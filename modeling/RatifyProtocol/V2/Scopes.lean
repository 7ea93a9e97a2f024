import RatifyProtocol.V2.Limits
set_option autoImplicit false

/-!
# V2: the scope vocabulary

The vocabulary and wildcard table of `scope.rs` and the protocol v2 scope rules
of `v2/wire.rs`.
-/

namespace RatifyProtocol.V2

open Foundation

def maxScopeLengthBytes : Nat := 256

def customScopePrefix : String := "custom:"

/-- The canonical vocabulary. -/
def validScopes : List String :=
  ["meeting:attend", "meeting:speak", "meeting:video", "meeting:chat", "meeting:share_screen",
    "meeting:record", "comms:message:read", "comms:message:send", "comms:message:delete",
    "comms:email:read", "comms:email:send", "comms:email:delete", "comms:calendar:read",
    "comms:calendar:write", "files:read", "files:write", "identity:prove", "identity:delegate",
    "presence:represent", "transact:purchase", "transact:sell", "payments:send",
    "payments:receive", "payments:authorize", "contract:read", "contract:sign", "data:read",
    "data:write", "data:delete", "data:export", "data:share", "execute:tool", "execute:code",
    "generate:content", "generate:deepfake", "physical:enter", "physical:exit",
    "physical:actuate", "physical:manipulate", "robot:operate", "robot:move", "robot:interact",
    "drone:fly", "drone:deliver", "drone:capture", "vehicle:operate", "vehicle:transport",
    "vehicle:charge", "infrastructure:monitor", "infrastructure:control",
    "infrastructure:access", "actuate:valve", "actuate:motor", "actuate:switch"]

/-- The constituent scopes of a wildcard shorthand. -/
def wildcardExpansion : String → Option (List String)
  | "meeting:*" =>
    some ["meeting:attend", "meeting:speak", "meeting:video", "meeting:chat",
      "meeting:share_screen"]
  | "comms:message:*" => some ["comms:message:read", "comms:message:send"]
  | "comms:email:*" => some ["comms:email:read", "comms:email:send"]
  | "comms:*" =>
    some ["comms:message:read", "comms:message:send", "comms:email:read", "comms:email:send",
      "comms:calendar:read", "comms:calendar:write"]
  | "transact:*" => some ["transact:purchase", "transact:sell"]
  | "payments:*" => some ["payments:send", "payments:receive"]
  | "data:*" => some ["data:read", "data:share"]
  | "execute:*" => some ["execute:tool"]
  | "generate:*" => some ["generate:content"]
  | "physical:*" => some ["physical:enter", "physical:exit"]
  | "robot:*" => some ["robot:operate", "robot:move", "robot:interact"]
  | "drone:*" => some ["drone:deliver", "drone:capture"]
  | "vehicle:*" => some ["vehicle:transport", "vehicle:charge"]
  | "infrastructure:*" => some ["infrastructure:monitor"]
  | _ => none

/-- A non-empty extension of the custom prefix. -/
def isCustomScope (scope : String) : Bool :=
  startsWith scope customScopePrefix
    && decide ((utf8 customScopePrefix).length < (utf8 scope).length)

/-- `is_wildcard_scope`: a shorthand of the wildcard table. -/
def isWildcardScope (scope : String) : Bool := (wildcardExpansion scope).isSome

/-- The first scope that is neither canonical, a wildcard nor custom. -/
def validateScopes (scopes : List String) : Option String :=
  (scopes.find? fun s =>
    !(validScopes.contains s || (wildcardExpansion s).isSome || isCustomScope s)).map fun s =>
      s!"unknown scope \"{s}\": not in canonical vocabulary and not a custom: extension"

/-- The scopes of a delegation: no `custom:*` and none twice. -/
def uniqueScopes (seen : List String) : List String → V2Result Unit
  | [] => .ok ()
  | scope :: scopes => do
    refuseIf (scope == "custom:*") "custom:* is not a valid scope"
    refuseIf (seen.contains scope) s!"duplicate scope {debugQuote scope}"
    uniqueScopes (scope :: seen) scopes

/-- Protocol v2 delegation scope rules: non-empty, registered or custom, no
`custom:*`, no duplicates. -/
def validateScopesV2 (scopes : List String) : V2Result Unit := do
  refuseIf scopes.isEmpty "scope must be a non-empty array"
  match validateScopes scopes with
  | some e => plain e
  | none => uniqueScopes [] scopes

/-- Exactly one requestable action scope: registered and no wildcard, or one
exact custom scope. -/
def requiredScopeV2 (scope : String) : V2Result Unit :=
  if validScopes.contains scope && !isWildcardScope scope then .ok ()
  else if isCustomScope scope && scope != "custom:*"
      && decide ((utf8 scope).length ≤ maxScopeLengthBytes) then .ok ()
  else plain "required scope must be one canonical scope or one exact custom: scope"

end RatifyProtocol.V2
