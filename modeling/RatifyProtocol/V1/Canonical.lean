import RatifyProtocol.Foundation.PrefixCode
import RatifyProtocol.V1.Platform
import RatifyProtocol.V1.Types
set_option autoImplicit false

/-!
# V1: canonical JSON

The writers of `canonical.rs` and the bytes an issuer signs.  A constraint is
written key by key, each kind by hand; `Constraint.members` lists what a kind
writes as keys with typed values, and `encodeConstraint_eq` says that the text
is the object of exactly these members.
-/

namespace RatifyProtocol.V1

open Foundation
open V2 (HybridPublicKey ParamsMap ParamsValue encodeInt encodeString commaSeparated)

/-! ## Writers -/

def encodeStr (s : String) : List Char := encodeString s.toList

def encodeI64 (n : Int64) : List Char := encodeInt n.toInt

def encodeI32 (n : Int32) : List Char := encodeInt n.toInt

def encodeBool (b : Bool) : List Char := if b then "true".toList else "false".toList

/-- `encode_bytes_b64`. -/
def encodeBytesB64 (b : Bytes) : List Char := encodeString (Base64.encodeChars b)

def encodeStrArray (arr : List String) : List Char :=
  '[' :: commaSeparated (arr.map encodeStr) ++ [']']

mutual

/-- `encode_params_value`. -/
def encodeParamsValue : ParamsValue → List Char
  | .null => "null".toList
  | .bool b => encodeBool b
  | .int n => encodeInt n
  | .str s => encodeStr s
  | .array items => '[' :: commaSeparated (encodeParamsItems items) ++ [']']
  | .object map => '\x7b' :: commaSeparated (encodeParamsMembers map) ++ ['\x7d']

def encodeParamsItems : List ParamsValue → List (List Char)
  | [] => []
  | item :: items => encodeParamsValue item :: encodeParamsItems items

def encodeParamsMembers : List (String × ParamsValue) → List (List Char)
  | [] => []
  | (k, v) :: map => (encodeStr k ++ ':' :: encodeParamsValue v) :: encodeParamsMembers map

end

/-- `encode_params_object`. -/
def encodeParamsObject (map : ParamsMap) : List Char := encodeParamsValue (.object map.entries)

def encodeHybridPubKey (pk : HybridPublicKey) : List Char :=
  "\x7b\"ed25519\":".toList ++ encodeBytesB64 pk.ed25519
    ++ ",\"ml_dsa_65\":".toList ++ encodeBytesB64 pk.mlDsa65 ++ "\x7d".toList

section Numbers

variable (P : Platform)

def encodePoint (pt : Binary64 × Binary64) : List Char :=
  '[' :: encodeF64 P pt.1 ++ ',' :: encodeF64 P pt.2 ++ [']']

def encodePointsArray (pts : List (Binary64 × Binary64)) : List Char :=
  '[' :: commaSeparated (pts.map (encodePoint P)) ++ [']']

/-- The altitude members of a box are written, and checked, unless both are zero. -/
def Constraint.hasAlt (c : Constraint) : Bool := !c.minAltM.eq .zero || !c.maxAltM.eq .zero

/-- `encode_constraint`. -/
def encodeConstraint (c : Constraint) : List Char :=
  match c.kind with
  | "geo_circle" =>
    "\x7b\"lat\":".toList ++ encodeF64 P c.lat ++ ",\"lon\":".toList ++ encodeF64 P c.lon
      ++ ",\"radius_m\":".toList ++ encodeF64 P c.radiusM
      ++ ",\"type\":".toList ++ encodeStr c.kind ++ "\x7d".toList
  | "geo_polygon" =>
    "\x7b\"points\":".toList ++ encodePointsArray P c.points
      ++ ",\"type\":".toList ++ encodeStr c.kind ++ "\x7d".toList
  | "geo_bbox" =>
    "\x7b".toList
      ++ (if c.hasAlt then "\"max_alt_m\":".toList ++ encodeF64 P c.maxAltM ++ ",".toList else [])
      ++ "\"max_lat\":".toList ++ encodeF64 P c.maxLat
      ++ ",\"max_lon\":".toList ++ encodeF64 P c.maxLon
      ++ (if c.hasAlt then ",\"min_alt_m\":".toList ++ encodeF64 P c.minAltM else [])
      ++ ",\"min_lat\":".toList ++ encodeF64 P c.minLat
      ++ ",\"min_lon\":".toList ++ encodeF64 P c.minLon
      ++ ",\"type\":".toList ++ encodeStr c.kind ++ "\x7d".toList
  | "time_window" =>
    "\x7b\"end\":".toList ++ encodeStr c.end_ ++ ",\"start\":".toList ++ encodeStr c.start
      ++ ",\"type\":".toList ++ encodeStr c.kind ++ ",\"tz\":".toList ++ encodeStr c.tz
      ++ "\x7d".toList
  | "max_speed_mps" =>
    "\x7b\"max_mps\":".toList ++ encodeF64 P c.maxMps
      ++ ",\"type\":".toList ++ encodeStr c.kind ++ "\x7d".toList
  | "max_amount" =>
    "\x7b\"currency\":".toList ++ encodeStr c.currency
      ++ ",\"max_amount\":".toList ++ encodeF64 P c.maxAmount
      ++ ",\"type\":".toList ++ encodeStr c.kind ++ "\x7d".toList
  | "max_rate" =>
    "\x7b\"count\":".toList ++ encodeI64 c.count ++ ",\"type\":".toList ++ encodeStr c.kind
      ++ ",\"window_s\":".toList ++ encodeI64 c.windowS ++ "\x7d".toList
  | "resource_path" =>
    "\x7b".toList
      ++ (match c.pathPrefix with
        | some pathPrefix => "\"path_prefix\":".toList ++ encodeStr pathPrefix ++ ",".toList
        | none => [])
      ++ "\"resource_id\":".toList ++ encodeStr c.resourceId
      ++ ",\"type\":".toList ++ encodeStr c.kind ++ "\x7d".toList
  | _ =>
    "\x7b".toList
      ++ (match c.params with
        | some params => "\"params\":".toList ++ encodeParamsObject params ++ ",".toList
        | none => [])
      ++ "\"type\":".toList ++ encodeStr c.kind ++ "\x7d".toList

def encodeConstraints (cs : List Constraint) : List Char :=
  '[' :: commaSeparated (cs.map (encodeConstraint P)) ++ [']']

/-- The text of `delegation_sign_bytes`. -/
def delegationSignText (cert : DelegationCert) : List Char :=
  "\x7b\"cert_id\":".toList ++ encodeStr cert.certId
    ++ ",\"constraints\":".toList ++ encodeConstraints P cert.constraints
    ++ ",\"expires_at\":".toList ++ encodeI64 cert.expiresAt
    ++ ",\"issued_at\":".toList ++ encodeI64 cert.issuedAt
    ++ ",\"issuer_id\":".toList ++ encodeStr cert.issuerId
    ++ ",\"issuer_pub_key\":".toList ++ encodeHybridPubKey cert.issuerPubKey
    ++ ",\"scope\":".toList ++ encodeStrArray cert.scope
    ++ ",\"subject_id\":".toList ++ encodeStr cert.subjectId
    ++ ",\"subject_pub_key\":".toList ++ encodeHybridPubKey cert.subjectPubKey
    ++ ",\"version\":".toList ++ encodeI32 cert.version ++ "\x7d".toList

/-- `delegation_sign_bytes`: what an issuer signs. -/
def delegationSignBytes (cert : DelegationCert) : Bytes := utf8Chars (delegationSignText P cert)

/-- What `chain_hash` hashes. -/
def chainHashInput (chain : List DelegationCert) : Bytes := chain.flatMap (delegationSignBytes P)

/-! ## Signed members -/

/-- A member of the canonical object of a constraint. -/
inductive Member where
  | float (x : Binary64)
  | int (n : Int64)
  | text (s : String)
  | points (pts : List (Binary64 × Binary64))
  | params (map : ParamsMap)

/-- What the signed object of a constraint holds. -/
def Constraint.members (c : Constraint) : List (String × Member) :=
  match c.kind with
  | "geo_circle" =>
    [("lat", .float c.lat), ("lon", .float c.lon), ("radius_m", .float c.radiusM),
      ("type", .text c.kind)]
  | "geo_polygon" => [("points", .points c.points), ("type", .text c.kind)]
  | "geo_bbox" =>
    if c.hasAlt then
      [("max_alt_m", .float c.maxAltM), ("max_lat", .float c.maxLat), ("max_lon", .float c.maxLon),
        ("min_alt_m", .float c.minAltM), ("min_lat", .float c.minLat),
        ("min_lon", .float c.minLon), ("type", .text c.kind)]
    else
      [("max_lat", .float c.maxLat), ("max_lon", .float c.maxLon), ("min_lat", .float c.minLat),
        ("min_lon", .float c.minLon), ("type", .text c.kind)]
  | "time_window" =>
    [("end", .text c.end_), ("start", .text c.start), ("type", .text c.kind), ("tz", .text c.tz)]
  | "max_speed_mps" => [("max_mps", .float c.maxMps), ("type", .text c.kind)]
  | "max_amount" =>
    [("currency", .text c.currency), ("max_amount", .float c.maxAmount), ("type", .text c.kind)]
  | "max_rate" =>
    [("count", .int c.count), ("type", .text c.kind), ("window_s", .int c.windowS)]
  | "resource_path" =>
    match c.pathPrefix with
    | some pathPrefix =>
      [("path_prefix", .text pathPrefix), ("resource_id", .text c.resourceId),
        ("type", .text c.kind)]
    | none => [("resource_id", .text c.resourceId), ("type", .text c.kind)]
  | _ =>
    match c.params with
    | some params => [("params", .params params), ("type", .text c.kind)]
    | none => [("type", .text c.kind)]

def Member.encode : Member → List Char
  | float x => encodeF64 P x
  | int n => encodeI64 n
  | text s => encodeStr s
  | points pts => encodePointsArray P pts
  | params map => encodeParamsObject map

/-- A key with its value. -/
def encodeMember (m : String × Member) : List Char := encodeStr m.1 ++ ':' :: m.2.encode P

/-- Every kind is written as the object of its members. -/
theorem encodeConstraint_eq (c : Constraint) :
    encodeConstraint P c
      = '\x7b' :: commaSeparated (c.members.map (encodeMember P)) ++ ['\x7d'] := by
  have hkey : ∀ (k : String) (m : Member), encodeMember P (k, m)
      = encodeStr k ++ ':' :: m.encode P := fun _ _ => rfl
  unfold encodeConstraint Constraint.members
  split
  case h_3 => cases c.hasAlt <;> simp [hkey, Member.encode] <;> rfl
  case h_8 => cases c.pathPrefix <;> simp [hkey, Member.encode] <;> rfl
  case h_9 => cases c.params <;> simp [hkey, Member.encode] <;> rfl
  all_goals
    simp [hkey, Member.encode]
    rfl

end Numbers

end RatifyProtocol.V1
