import RatifyProtocol.Foundation.OrderedMap
import RatifyProtocol.V2.Status.Apply
set_option autoImplicit false

/-!
# Journal: the record and its key histories

The data model of `v2/journal.rs`, the two append-only key histories a journal
keeps, how they are extended and what a valid history is.
-/

namespace RatifyProtocol.V2

open Foundation

/-- The current record version. -/
def securityJournalVersionV2 : Nat := 2

/-- The version 1 record version, accepted only for migration. -/
def securityJournalLegacyVersion : Nat := 1

/-- The independently anchored head of a deployment's journal. -/
structure SecurityJournalHeadV2 where
  generation : Nat
  digest : String
  deriving DecidableEq, Repr

/-- A key ID and both key components, permanently assigned to one role. -/
structure KeyRoleBindingV2 where
  keyId : String
  ed25519Digest : String
  mlDsa65Digest : String
  role : String
  deriving DecidableEq, Repr

/-- One authenticated status-key epoch of an issuer, retired ones included. -/
structure StatusKeyBindingV2 where
  issuerId : String
  epoch : Nat
  statusKeyId : String
  ed25519Digest : String
  mlDsa65Digest : String
  deriving DecidableEq, Repr

/-- The state whose loss or rollback can make verification unsafe. -/
structure SecurityJournalV2 where
  version : Nat := 0
  generation : Nat := 0
  previousDigest : String := ""
  digest : String := ""
  statusByIssuer : OrderedMap String RevocationStatusStateV2 := .empty
  keyRoleHistory : List KeyRoleBindingV2 := []
  statusKeyHistory : List StatusKeyBindingV2 := []
  /-- Members that were `null` when a version 1 record was decoded. -/
  legacyNullMembers : List String := []

/-- The cryptography a journal rests on, and the version 1 digest over Go's
JSON encoding, which no version 2 record reads. -/
structure JournalPrimitives extends Primitives where
  legacySecurityJournalDigestV1 : SecurityJournalV2 → V2Result String

/-! ## Bindings -/

variable (P : Primitives)

/-- The key ID and the SHA-384 component digests. -/
def keyRoleBindingV2 (role : String) (publicKey : HybridPublicKey) :
    V2Result KeyRoleBindingV2 := do
  let keyId ← keyIdPlain P publicKey
  .ok {
    keyId
    ed25519Digest := hexEncode (P.sha384 publicKey.ed25519)
    mlDsa65Digest := hexEncode (P.sha384 publicKey.mlDsa65)
    role }

def statusKeyBindingV2 (issuerId : String) (epoch : Nat) (publicKey : HybridPublicKey) :
    V2Result StatusKeyBindingV2 := do
  let role ← keyRoleBindingV2 P "status" publicKey
  .ok {
    issuerId
    epoch
    statusKeyId := role.keyId
    ed25519Digest := role.ed25519Digest
    mlDsa65Digest := role.mlDsa65Digest }

def statusBindingAtEpoch (history : List StatusKeyBindingV2) (issuerId : String) (epoch : Nat) :
    Option StatusKeyBindingV2 :=
  history.find? fun b => b.issuerId == issuerId && b.epoch == epoch

def validSecurityKeyRole (role : String) : Bool :=
  ["status", "delegation", "rotation", "verifier", "witness", "receiver", "issuer",
    "other"].contains role

/-- The text decodes to 48 bytes that encode back to it: 96 lowercase digits. -/
def validDigestHex (value : String) : Bool := (utf8 value).length == 96 && lowerHex value

/-- Key roles by key ID, then role. -/
def sortKeyRoleHistory (history : List KeyRoleBindingV2) : List KeyRoleBindingV2 :=
  history.insertionSort fun a b => (compare a.keyId b.keyId).then (compare a.role b.role) ≠ .gt

/-- Status keys by issuer, then epoch. -/
def sortStatusKeyHistory (history : List StatusKeyBindingV2) : List StatusKeyBindingV2 :=
  history.insertionSort fun a b =>
    (compare a.issuerId b.issuerId).then (compare a.epoch b.epoch) ≠ .gt

/-! ## Extending a history -/

/-- The two bindings share a key ID or a component. -/
def KeyRoleBindingV2.sharesKey (existing binding : KeyRoleBindingV2) : Bool :=
  existing.keyId == binding.keyId || existing.ed25519Digest == binding.ed25519Digest
    || existing.mlDsa65Digest == binding.mlDsa65Digest
    || existing.ed25519Digest == binding.mlDsa65Digest
    || existing.mlDsa65Digest == binding.ed25519Digest

/-- The scan of the role history: whether the binding is there already. -/
def findKeyRole (binding : KeyRoleBindingV2) : List KeyRoleBindingV2 → V2Result Bool
  | [] => .ok false
  | existing :: history =>
    if existing == binding then .ok true
    else if existing.sharesKey binding then
      plain ("hybrid key ID or component is already permanently assigned to role "
        ++ s!"{debugQuote existing.role}")
    else findKeyRole binding history

def registerAnyKeyRole (journal : SecurityJournalV2) (role : String)
    (publicKey : HybridPublicKey) : V2Result SecurityJournalV2 := do
  let binding ← keyRoleBindingV2 P role publicKey
  let known ← findKeyRole binding journal.keyRoleHistory
  if known then .ok journal
  else .ok { journal with
    keyRoleHistory := sortKeyRoleHistory (journal.keyRoleHistory ++ [binding]) }

/-- Add a key role other than `status`. -/
def registerKeyRoleInner (journal : SecurityJournalV2) (role : String)
    (publicKey : HybridPublicKey) : V2Result SecurityJournalV2 := do
  refuseIf (!validSecurityKeyRole role || role == "status") "security key role is invalid"
  registerAnyKeyRole P journal role publicKey

/-- The scan of the status-key history: whether the binding is there already. -/
def findStatusKey (binding : StatusKeyBindingV2) : List StatusKeyBindingV2 → V2Result Bool
  | [] => .ok false
  | existing :: history =>
    if existing.issuerId == binding.issuerId && existing.epoch == binding.epoch then
      if existing == binding then .ok true
      else plain "status-key epoch is permanently bound to a different key"
    else if existing.statusKeyId == binding.statusKeyId
        || existing.ed25519Digest == binding.ed25519Digest
        || existing.mlDsa65Digest == binding.mlDsa65Digest then
      plain "status key was previously bound in this deployment"
    else findStatusKey binding history

/-- The highest epoch the history holds for an issuer. -/
def highestEpoch (history : List StatusKeyBindingV2) (issuerId : String) : Nat :=
  ((history.filter fun b => b.issuerId == issuerId).map (·.epoch)).foldl max 0

/-- Record an issuer's next status key and its global status role. -/
def registerStatusKeyEpochInner (journal : SecurityJournalV2) (issuerId : String) (epoch : Nat)
    (publicKey : HybridPublicKey) : V2Result SecurityJournalV2 := do
  refuseIf (issuerId == "" || epoch == 0 || decide ((epoch : Int) > maxSafe))
    "status-key binding has invalid issuer or epoch"
  let binding ← statusKeyBindingV2 P issuerId epoch publicKey
  let known ← findStatusKey binding journal.statusKeyHistory
  if known then .ok journal
  else do
    refuseIf (epoch != highestEpoch journal.statusKeyHistory issuerId + 1)
      "status-key epoch must advance by one from retained issuer history"
    let next ← registerAnyKeyRole P journal "status" publicKey
    .ok { next with
      statusKeyHistory := sortStatusKeyHistory (next.statusKeyHistory ++ [binding]) }

/-! ## Valid histories -/

/-- The binding names one of its components. -/
def KeyRoleBindingV2.hasComponent (b : KeyRoleBindingV2) (component : String) : Bool :=
  b.ed25519Digest == component || b.mlDsa65Digest == component

/-- The loop over the role history.  The source keeps what it has met in maps by
key ID and by component; bindings met under one of them are equal, so the list
of bindings met says the same. -/
def validateKeyRoleHistoryFrom (met : List KeyRoleBindingV2) :
    List KeyRoleBindingV2 → V2Result Unit
  | [] => .ok ()
  | b :: history => do
    refuseIf (b.keyId == "" || !validSecurityKeyRole b.role || !validDigestHex b.ed25519Digest
        || !validDigestHex b.mlDsa65Digest)
      "security journal contains malformed key-role history"
    refuseIf (met.any fun prior => prior.keyId == b.keyId && prior != b)
      "security journal reuses a key ID across roles"
    refuseIf (met.any fun prior => prior.hasComponent b.ed25519Digest && prior != b)
      "security journal reuses key material across roles"
    refuseIf (met.any fun prior => prior.hasComponent b.mlDsa65Digest && prior != b)
      "security journal reuses key material across roles"
    validateKeyRoleHistoryFrom (met ++ [b]) history

def validateKeyRoleHistory (history : List KeyRoleBindingV2) : V2Result Unit :=
  validateKeyRoleHistoryFrom [] history

/-- The epoch of the last binding met for an issuer, zero when there is none. -/
def lastEpoch (met : List StatusKeyBindingV2) (issuerId : String) : Nat :=
  ((met.reverse.find? fun b => b.issuerId == issuerId).map (·.epoch)).getD 0

/-- The loop over the status-key history, with the bindings already met. -/
def validateStatusKeyHistoryFrom (roles : List KeyRoleBindingV2)
    (met : List StatusKeyBindingV2) : List StatusKeyBindingV2 → V2Result Unit
  | [] => .ok ()
  | b :: history => do
    refuseIf (b.issuerId == "" || b.epoch == 0 || b.statusKeyId == ""
        || !validDigestHex b.ed25519Digest || !validDigestHex b.mlDsa65Digest)
      "security journal contains malformed status-key history"
    refuseIf (lastEpoch met b.issuerId + 1 != b.epoch)
      "security journal status-key epochs are missing or out of order"
    let role := roles.find? fun r => r.keyId == b.statusKeyId
      && r.ed25519Digest == b.ed25519Digest && r.mlDsa65Digest == b.mlDsa65Digest
    refuseIf (role.all fun r => r.role != "status")
      "status-key history lacks its global status role assignment"
    refuseIf (met.any fun prior => prior.statusKeyId == b.statusKeyId)
      "security journal reuses a status key ID"
    let components := met.flatMap fun prior => [prior.ed25519Digest, prior.mlDsa65Digest]
    refuseIf (components.contains b.ed25519Digest)
      "security journal reuses a status-key component"
    -- The first component is already in the set when the second is added.
    refuseIf (components.contains b.mlDsa65Digest || b.ed25519Digest == b.mlDsa65Digest)
      "security journal reuses a status-key component"
    validateStatusKeyHistoryFrom roles (met ++ [b]) history

def validateStatusKeyHistory (history : List StatusKeyBindingV2)
    (roles : List KeyRoleBindingV2) : V2Result Unit :=
  validateStatusKeyHistoryFrom roles [] history

end RatifyProtocol.V2
