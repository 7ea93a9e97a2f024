import RatifyProtocol.V1.SignedBytes
import RatifyProtocol.V1.SingleUse
set_option autoImplicit false

/-!
# V1: the context of a cached policy verdict

`verifier_context_hash` covers a subset of the context: the location, the speed,
the amount and the currency, with an absent number read as 0.  The hash
determines that subset and nothing else, so a cached allow takes the place of the
live policy only in contexts that agree with its own there.
-/

namespace RatifyProtocol.V1

open Foundation
open V2 (encodeInt)

/-! ## Texts of all floats -/

/-- How values that are not finite are displayed. -/
structure Platform.DisplaysNonFinite (P : Platform) : Prop where
  nan : P.display .nan = "NaN"
  infinite : ∀ s, P.display (.infinite s) = if s then "-inf" else "inf"

variable {P : Platform}

theorem encodeF64_of_not_finite {x : Binary64} (hx : x.isFinite = false) :
    encodeF64 P x = (P.display x).toList := by
  unfold encodeF64
  rw [hx]
  rfl

/-- The text of a value that is not finite has a letter in it. -/
theorem mem_encodeF64_of_not_finite (hn : P.DisplaysNonFinite) {x : Binary64}
    (hx : x.isFinite = false) : ∃ c ∈ encodeF64 P x, decimalChar c = false := by
  rw [encodeF64_of_not_finite hx]
  cases x with
  | nan =>
    rw [hn.nan]
    exact ⟨'N', by decide, by decide⟩
  | infinite s =>
    rw [hn.infinite]
    cases s <;> exact ⟨'f', by decide, by decide⟩
  | finite s m => cases hx

/-- One text, one value, up to signed zero. -/
theorem sameValue_of_encodeF64_all (hP : P.Documented) (hn : P.DisplaysNonFinite)
    {x y : Binary64} (h : encodeF64 P x = encodeF64 P y) : Binary64.SameValue x y := by
  -- A finite value has a decimal text, another one has not.
  have hmixed : ∀ {a b : Binary64}, a.isFinite = true → b.isFinite = false →
      encodeF64 P a ≠ encodeF64 P b := by
    intro a b ha hb heq
    obtain ⟨c, hc, hletter⟩ := mem_encodeF64_of_not_finite hn hb
    rw [← heq] at hc
    rw [List.all_eq_true.mp (encodeF64_decimal hP ha) c hc] at hletter
    cases hletter
  cases hx : x.isFinite <;> cases hy : y.isFinite
  · rw [encodeF64_of_not_finite hx, encodeF64_of_not_finite hy] at h
    cases x with
    | finite s m => cases hx
    | nan =>
      cases y with
      | finite t n => cases hy
      | nan => exact .refl _
      | infinite t =>
        rw [hn.nan, hn.infinite] at h
        cases t <;> cases h
    | infinite s =>
      cases y with
      | finite t n => cases hy
      | nan =>
        rw [hn.nan, hn.infinite] at h
        cases s <;> cases h
      | infinite t =>
        rw [hn.infinite, hn.infinite] at h
        cases s <;> cases t <;> first
          | exact .refl _
          | cases h
  · exact absurd h.symm (hmixed hy hx)
  · exact absurd h (hmixed hx hy)
  · exact sameValue_of_encodeF64 hP hx hy h

/-- Values that are the same have one text. -/
theorem encodeF64_congr {x y : Binary64} (h : Binary64.SameValue x y) :
    encodeF64 P x = encodeF64 P y := by
  apply h.apply (f := encodeF64 P)
  intro s t
  have hzero : ∀ s, encodeF64 P (.finite s .zero) = encodeInt 0 := by
    intro s
    have hwhole : isWhole (.finite s .zero) = true := by simp [isWhole, Magnitude.zero]
    have hbelow : belowQuadrillion (.finite s .zero) = true := by
      simp [belowQuadrillion, Magnitude.zero, unitsOfOne_pos]
    have hvalue : asI64 (.finite s .zero) = 0 := by cases s <;> simp [asI64, Magnitude.zero]
    rw [encodeF64, hwhole, hbelow, hvalue]
    rfl
  rw [hzero, hzero]

theorem encodeF64_code_all (hP : P.Documented) (hn : P.DisplaysNonFinite) :
    DelimitedCode Delimiter (fun _ => True) Binary64.SameValue (encodeF64 P) := by
  apply DelimitedCode.ofFree
  · intro x _ c hc
    cases hx : x.isFinite with
    | true => exact not_delimiter_of_decimalChar (List.all_eq_true.mp (encodeF64_decimal hP hx) c hc)
    | false =>
      rw [encodeF64_of_not_finite hx] at hc
      cases x with
      | finite s m => cases hx
      | nan =>
        rw [hn.nan] at hc
        rintro (rfl | rfl | rfl) <;> exact absurd hc (by decide)
      | infinite s =>
        rw [hn.infinite] at hc
        cases s <;> rintro (rfl | rfl | rfl) <;> exact absurd hc (by decide)
  · exact fun x y _ _ h => sameValue_of_encodeF64_all hP hn h

theorem encodeBool_code :
    DelimitedCode Delimiter (fun _ => True) (fun a b : Bool => a = b) encodeBool := by
  apply DelimitedCode.ofFree
  · intro b _ c hc
    cases b <;> rintro (rfl | rfl | rfl) <;> exact absurd hc (by decide)
  · intro a b _ _ h
    cases a <;> cases b <;> first
      | rfl
      | cases h

/-! ## What the hash covers -/

/-- The contexts agree in the subset that is hashed: numbers up to signed zero and
with an absent one as 0, the three presence flags, and the currency with an
absent one as empty. -/
structure VerifierContext.SameHashed (c d : VerifierContext) : Prop where
  altitude : Binary64.SameValue (c.currentAltM.getD .zero) (d.currentAltM.getD .zero)
  latitude : Binary64.SameValue (c.currentLat.getD .zero) (d.currentLat.getD .zero)
  longitude : Binary64.SameValue (c.currentLon.getD .zero) (d.currentLon.getD .zero)
  speed : Binary64.SameValue (c.currentSpeedMps.getD .zero) (d.currentSpeedMps.getD .zero)
  hasAmount : c.requestedAmount.isSome = d.requestedAmount.isSome
  hasLocation : (c.currentLat.isSome && c.currentLon.isSome)
    = (d.currentLat.isSome && d.currentLon.isSome)
  hasSpeed : c.currentSpeedMps.isSome = d.currentSpeedMps.isSome
  amount : Binary64.SameValue (c.requestedAmount.getD .zero) (d.requestedAmount.getD .zero)
  currency : c.requestedCurrency.getD "" = d.requestedCurrency.getD ""

/-- The hash determines the subset. -/
theorem sameHashed_of_verifierContextHash (hP : P.Documented) (hn : P.DisplaysNonFinite)
    {K : Primitives} (hK : Function.Injective K.sha256) {c d : VerifierContext}
    (h : verifierContextHash P K c = verifierContextHash P K d) : c.SameHashed d := by
  have heq := utf8Chars_injective (hK h)
  have hfloat := encodeF64_code_all hP hn
  simp only [List.append_assoc, List.append_cancel_left_eq] at heq
  obtain ⟨altitude, heq⟩ := hfloat.cut trivial trivial heq
    ⟨',', _, rfl, .inl rfl⟩ ⟨',', _, rfl, .inl rfl⟩
  simp only [List.append_cancel_left_eq] at heq
  obtain ⟨latitude, heq⟩ := hfloat.cut trivial trivial heq
    ⟨',', _, rfl, .inl rfl⟩ ⟨',', _, rfl, .inl rfl⟩
  simp only [List.append_cancel_left_eq] at heq
  obtain ⟨longitude, heq⟩ := hfloat.cut trivial trivial heq
    ⟨',', _, rfl, .inl rfl⟩ ⟨',', _, rfl, .inl rfl⟩
  simp only [List.append_cancel_left_eq] at heq
  obtain ⟨speed, heq⟩ := hfloat.cut trivial trivial heq
    ⟨',', _, rfl, .inl rfl⟩ ⟨',', _, rfl, .inl rfl⟩
  simp only [List.append_cancel_left_eq] at heq
  obtain ⟨hasAmount, heq⟩ := encodeBool_code.cut trivial trivial heq
    ⟨',', _, rfl, .inl rfl⟩ ⟨',', _, rfl, .inl rfl⟩
  simp only [List.append_cancel_left_eq] at heq
  obtain ⟨hasLocation, heq⟩ := encodeBool_code.cut trivial trivial heq
    ⟨',', _, rfl, .inl rfl⟩ ⟨',', _, rfl, .inl rfl⟩
  simp only [List.append_cancel_left_eq] at heq
  obtain ⟨hasSpeed, heq⟩ := encodeBool_code.cut trivial trivial heq
    ⟨',', _, rfl, .inl rfl⟩ ⟨',', _, rfl, .inl rfl⟩
  simp only [List.append_cancel_left_eq] at heq
  obtain ⟨amount, heq⟩ := hfloat.cut trivial trivial heq
    ⟨',', _, rfl, .inl rfl⟩ ⟨',', _, rfl, .inl rfl⟩
  simp only [List.append_cancel_left_eq] at heq
  obtain ⟨currency, -⟩ := encodeStr_code trivial trivial heq
  exact ⟨altitude, latitude, longitude, speed, hasAmount, hasLocation, hasSpeed, amount, currency⟩

/-- The hash covers nothing else. -/
theorem verifierContextHash_congr (K : Primitives) {c d : VerifierContext} (h : c.SameHashed d) :
    verifierContextHash P K c = verifierContextHash P K d := by
  unfold verifierContextHash
  rw [encodeF64_congr h.altitude, encodeF64_congr h.latitude, encodeF64_congr h.longitude,
    encodeF64_congr h.speed, encodeF64_congr h.amount, h.hasAmount, h.hasLocation, h.hasSpeed,
    h.currency]

/-! ## What a verdict replaces -/

variable {K : Primitives}

/-- A verdict that verifies is an allow for the expected context. -/
theorem of_verifyPolicyVerdict {v : PolicyVerdict} {policySecret : Bytes}
    {agentId scope : String} {contextHash : Bytes} {now : Int64}
    (h : verifyPolicyVerdict K v policySecret agentId scope contextHash now = .ok ()) :
    v.allow = true ∧ v.contextHash = contextHash := by
  simp only [verifyPolicyVerdict, ite_error_eq_ok_iff] at h
  obtain ⟨-, -, -, -, -, -, -, -, -, hhash, hallow, -⟩ := h
  exact ⟨by simpa using hallow, not_not.mp hhash⟩

/-- Only an allow that was cached for this context takes the place of the live
policy. -/
theorem of_checkPolicyGate {bundle : ProofBundle} {opts : VerifyOptions} {now : Int64}
    (h : checkPolicyGate P K bundle opts now = .ok ()) :
    checkPolicy bundle opts = .ok () ∨
      ∃ verdict, opts.policyVerdict = some verdict ∧ verdict.allow = true ∧
        verdict.contextHash = verifierContextHash P K opts.context := by
  unfold checkPolicyGate at h
  split at h
  · rename_i verdict secret hverdict hsecret
    split at h
    · split at h
      · rename_i hcached
        obtain ⟨hallow, hhash⟩ := of_verifyPolicyVerdict hcached
        exact .inr ⟨verdict, hverdict, hallow, hhash⟩
      · split at h
        · cases h
        · exact .inl h
    · exact .inl h
  · exact .inl h

/-- A cached verdict is used for contexts that agree with its own in the hashed
subset, and the hash tells no others apart: whatever a verification returns, if
it is valid then the live policy allowed it, or an allow did whose context hash
is that of no context outside the subset. -/
theorem cachedVerdict_bound_to_subset (hP : P.Documented) (hn : P.DisplaysNonFinite)
    (hK : Function.Injective K.sha256) :
    (∀ c d : VerifierContext,
      verifierContextHash P K c = verifierContextHash P K d ↔ c.SameHashed d) ∧
    ∀ (bundle : ProofBundle) (opts : VerifyOptions) (now : Int64) (log : List (StoreCall × Bool))
      (r : VerifyResult), (verifyBundleInner P K bundle opts now).Leads log (.ret r) →
      r.valid = true →
      checkPolicy bundle opts = .ok () ∨
        ∃ verdict, opts.policyVerdict = some verdict ∧ verdict.allow = true ∧
          ∀ c, verdict.contextHash = verifierContextHash P K c → c.SameHashed opts.context := by
  have hiff : ∀ c d : VerifierContext,
      verifierContextHash P K c = verifierContextHash P K d ↔ c.SameHashed d := fun c d =>
    ⟨sameHashed_of_verifierContextHash hP hn hK, verifierContextHash_congr K⟩
  refine ⟨hiff, fun bundle opts now log r hleads hr => ?_⟩
  obtain ⟨-, -, rfl⟩ := of_presentation_valid hleads (refuses_checkStructure bundle opts)
    (refuses_checkPresentation bundle opts now) hr
  have hauthorized := authorizeBundle_of_settled hr
  have hgate : checkPolicyGate P K bundle opts now = .ok () := by
    unfold authorizeBundle at hauthorized
    dsimp only at hauthorized
    split at hauthorized
    · cases hauthorized
    · obtain ⟨u, hgate, -⟩ := bind_eq_ok_iff.mp hauthorized
      exact hgate
  obtain hlive | ⟨verdict, hverdict, hallow, hhash⟩ := of_checkPolicyGate hgate
  · exact .inl hlive
  · exact .inr ⟨verdict, hverdict, hallow, fun c hc => (hiff _ _).mp (hc.symm.trans hhash)⟩

/-- No speed and the speed 0 are told apart. -/
theorem cachedVerdict_bound_to_subset_speed :
    verifierContextHash plainPlatform { lenient with sha256 := id } .empty
      ≠ verifierContextHash plainPlatform { lenient with sha256 := id }
          { VerifierContext.empty with currentSpeedMps := some .zero } := by
  intro heq
  have hnonfinite : plainPlatform.DisplaysNonFinite := ⟨rfl, fun s => by cases s <;> rfl⟩
  have hsame := ((cachedVerdict_bound_to_subset (K := { lenient with sha256 := id })
    plainPlatform_documented hnonfinite Function.injective_id).1 _ _).mp heq
  cases hsame.hasSpeed

/-- The requested resource is not hashed, and no altitude is the altitude 0. -/
theorem verifierContextHash_ignores_resource :
    (∃ c d : VerifierContext, c.requestedResourceId = some "a" ∧ d.requestedResourceId = some "b" ∧
      ∀ P K, verifierContextHash P K c = verifierContextHash P K d) ∧
    ∃ c d : VerifierContext, c.currentAltM = none ∧ d.currentAltM = some .zero ∧
      ∀ P K, verifierContextHash P K c = verifierContextHash P K d :=
  ⟨⟨{ VerifierContext.empty with requestedResourceId := some "a" },
      { VerifierContext.empty with requestedResourceId := some "b" }, rfl, rfl, fun _ _ => rfl⟩,
    .empty, { VerifierContext.empty with currentAltM := some .zero }, rfl, rfl, fun _ _ => rfl⟩

end RatifyProtocol.V1
