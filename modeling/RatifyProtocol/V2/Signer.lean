import RatifyProtocol.V2.Crypto
set_option autoImplicit false

/-!
# V2: typed signing

`v2/signer.rs`.  A provider receives the signing message the caller computed and
its answer is verified under the provider's key before it is used.
-/

namespace RatifyProtocol.V2

open Foundation

/-- Why a typed signing call failed. -/
inductive V2SignError where
  | invalidObject (e : V2Error)
  | issuerDuty (message : String)
  | keyBinding (message : String)
  | invalidSignerKey (message : String)
  | unsupportedMode
  | provider (message : String)
  | cancelled
  | signatureRejected (e : V2Error)
  deriving DecidableEq, Repr

namespace V2SignError

/-- The text of a signing failure. -/
def text : V2SignError → String
  | invalidObject e => "v2 signing refused: " ++ e.text
  | issuerDuty m => "v2 issuer duty: " ++ m
  | keyBinding m => "v2 signer key binding: " ++ m
  | invalidSignerKey m => "v2 signer key: " ++ m
  | unsupportedMode => "v2 signer reports an unsupported mode"
  | provider m => "v2 signer: " ++ m
  | cancelled => "v2 signing cancelled"
  | signatureRejected e => "v2 signer returned a signature that does not verify: " ++ e.text

end V2SignError

abbrev V2SignResult (α : Type) := Except V2SignError α

/-- `?` on an unsigned step of a signing call. -/
def liftObject {α : Type} (r : V2Result α) : V2SignResult α := r.mapError .invalidObject

/-- A signing provider: the key it signs under and its answer to one request,
given the object type and the signing message. -/
structure SignerV2 where
  publicKey : HybridPublicKey
  sign : V2ObjectType → Bytes → V2SignResult HybridSignature

variable (P : Primitives)

/-- Sign one typed statement and verify the signature under the signer's key
before it is used. -/
def signV2StatementWithSigner (objectType : V2ObjectType) (signable : Bytes)
    (signer : SignerV2) : V2SignResult HybridSignature :=
  match keyIdV2 P signer.publicKey with
  | .error e => .error (.invalidSignerKey e.message)
  | .ok _ =>
    match signer.sign objectType (v2SigningMessage P objectType signable) with
    | .error .cancelled => .error .cancelled
    | .error (.provider m) => .error (.provider m)
    | .error other => .error (.provider other.text)
    | .ok signature =>
      match verifyV2Statement P objectType signable signature signer.publicKey with
      | .error e => .error (.signatureRejected e)
      | .ok () => .ok signature

end RatifyProtocol.V2
