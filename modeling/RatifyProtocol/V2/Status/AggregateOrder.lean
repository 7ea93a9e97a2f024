import RatifyProtocol.V2.Status.AggregateLaw
set_option autoImplicit false

/-!
# Status: any order of the chain

The checks before the loop do not depend on the order either, so permuting the
pairs of a check and its result, and numbering the checks again, changes neither
an assessment nor the class of a failure.
-/

namespace RatifyProtocol.V2

open Foundation

section Plain

variable {α β : Type}

end Plain

/-! ## The checks before the loop -/

/-- The identifiers of a check are well formed. -/
def CheckIdsOk (c : V2CertificateStatusCheck) : Prop :=
  validV2Id c.issuerId = true ∧ validV2Id c.subjectId = true ∧ c.certId ≠ ""

section Pairs

variable (roles : V2StatusRoleBindings) (allowUnboundIssuers : Bool)

/-- What the checks before the loop ask of the bindings and the certificates. -/
structure ChainAccepted (pairs : List (V2CertificateStatusCheck × StatusResultV2)) : Prop where
  ne : pairs ≠ []
  keys : validateKeyIssuers roles.reservedKeyIds roles.statusKeyIssuers.entries = .ok ()
  bound : ∀ p ∈ pairs, issuerBound roles allowUnboundIssuers p.1.issuerId = true
  reserved : (roles.reservedKeyIds.any fun k => !validV2Id k) = false
  ids : ∀ p ∈ pairs, CheckIdsOk p.1
  distinct : (pairs.map fun p => (p.1.issuerId, p.1.certId)).Nodup

variable {roles allowUnboundIssuers}

theorem ChainAccepted.of_perm {pairs pairs' : List (V2CertificateStatusCheck × StatusResultV2)}
    (h : ChainAccepted roles allowUnboundIssuers pairs) (hperm : pairs.Perm pairs') :
    ChainAccepted roles allowUnboundIssuers pairs' where
  ne := by
    intro hnil
    rw [hnil] at hperm
    exact h.ne hperm.eq_nil
  keys := h.keys
  bound p hp := h.bound p (hperm.mem_iff.mpr hp)
  reserved := h.reserved
  ids p hp := h.ids p (hperm.mem_iff.mpr hp)
  distinct := (hperm.map _).nodup_iff.mp h.distinct

end Pairs

end RatifyProtocol.V2
