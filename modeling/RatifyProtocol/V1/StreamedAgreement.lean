import RatifyProtocol.V1.ScopeAttenuation
import RatifyProtocol.V1.SingleUse
set_option autoImplicit false

/-!
# V1: the streamed fast path against full verification

A session token stands for a bundle that was accepted.  A turn checked against
the token and the bundle with the turn's fields substituted come to the same
verdict, with the same calls of the challenge store, while the token and all
certificates are in their validity and nothing but them and the store decides.
-/

namespace RatifyProtocol.V1

open Foundation

variable {P : Platform} {K : Primitives}

/-- SHA-256 and HMAC-SHA-256 return 32 bytes. -/
structure Primitives.Sized (K : Primitives) : Prop where
  sha256 : ∀ b, (K.sha256 b).length = 32
  hmacSha256 : ∀ key b, (K.hmacSha256 key b).length = 32

/-- A bundle with the fields of a turn substituted. -/
def ProofBundle.withTurn (bundle : ProofBundle) (turn : StreamedTurn) : ProofBundle :=
  { bundle with
    challenge := turn.challenge, challengeAt := turn.challengeAt
    challengeSig := turn.challengeSig, sessionContext := turn.sessionContext
    streamId := turn.streamId, streamSeq := turn.streamSeq }

/-- The options that the fast path has. -/
def VerifyOptions.streamed (opts : VerifyOptions) : StreamedVerifyOptions :=
  ⟨opts.requiredScope, opts.challengeStore, opts.sessionContext, opts.stream⟩

/-- No revocation, policy or anchor providers. -/
structure VerifyOptions.WithoutProviders (opts : VerifyOptions) : Prop where
  isRevoked : opts.isRevoked = none
  revocation : opts.revocation = none
  policy : opts.policy = none
  anchorResolver : opts.anchorResolver = none

/-! ## The same course -/

section Presentations

variable {store : Bool} {challenge sessionContext : Bytes} {now : Int64}
  {before before' between between' : Except VerifyResult Unit} {after after' : VerifyResult}

/-- Two presentations whose checks pass together make the same calls, and both
come to their verdicts or both refuse. -/
theorem run_presentation (hbefore : Refuses before) (hbefore' : Refuses before')
    (hbetween : Refuses between) (hbetween' : Refuses between')
    (hb : before = .ok () ↔ before' = .ok ()) (hm : between = .ok () ↔ between' = .ok ())
    {σ : Type} (perform : σ → StoreCall → σ × Bool) (s : σ) :
    ∃ s' r r',
      (presentation store challenge sessionContext now before between after).run perform s
        = (s', r) ∧
      (presentation store challenge sessionContext now before' between' after').run perform s
        = (s', r') ∧
      (r = after ∧ r' = after' ∨ r.valid = false ∧ r'.valid = false) := by
  unfold presentation
  cases before with
  | error r =>
    cases before' with
    | ok u => cases hb.mpr rfl
    | error r' => exact ⟨_, _, _, rfl, rfl, .inr ⟨hbefore r rfl, hbefore' r' rfl⟩⟩
  | ok u =>
    cases before' with
    | error r' => cases hb.mp rfl
    | ok u' =>
      cases between with
      | error r =>
        cases between' with
        | ok u => cases hm.mpr rfl
        | error r' =>
          have hr := hbetween r rfl
          have hr' := hbetween' r' rfl
          cases store with
          | false => exact ⟨_, _, _, rfl, rfl, .inr ⟨hr, hr'⟩⟩
          | true =>
            simp only [if_true, Interaction.run]
            cases (perform s (.validate challenge sessionContext now)).2 with
            | false => exact ⟨_, _, _, rfl, rfl, .inr ⟨rfl, rfl⟩⟩
            | true => exact ⟨_, _, _, rfl, rfl, .inr ⟨hr, hr'⟩⟩
      | ok u =>
        cases between' with
        | error r' => cases hm.mp rfl
        | ok u' =>
          cases store with
          | false => exact ⟨_, _, _, rfl, rfl, .inl ⟨rfl, rfl⟩⟩
          | true =>
            simp only [if_true, Interaction.run]
            cases (perform s (.validate challenge sessionContext now)).2 with
            | false => exact ⟨_, _, _, rfl, rfl, .inr ⟨rfl, rfl⟩⟩
            | true =>
              simp only [Bool.not_true, Bool.false_eq_true, if_false, Interaction.run]
              cases (perform (perform s (.validate challenge sessionContext now)).1
                (.consume challenge sessionContext now)).2 with
              | false => exact ⟨_, _, _, rfl, rfl, .inr ⟨rfl, rfl⟩⟩
              | true => exact ⟨_, _, _, rfl, rfl, .inl ⟨rfl, rfl⟩⟩

end Presentations

/-! ## The same checks -/

/-- A turn does not change whose bundle it is. -/
theorem checkAgent_withTurn (bundle : ProofBundle) (turn : StreamedTurn) :
    checkAgent (bundle.withTurn turn) = checkAgent bundle := rfl

/-- Whose session context it is shows in the text of a failure only. -/
theorem checkSessionContext_ok_iff (what what' : String) (presented expected : Bytes) :
    checkSessionContext what presented expected = .ok () ↔
      checkSessionContext what' presented expected = .ok () := by
  unfold checkSessionContext
  repeat' split
  all_goals simp

theorem checkStream_ok_iff (what what' : String) (streamId : Bytes) (streamSeq : Int64)
    (stream : Option StreamContext) :
    checkStream what streamId streamSeq stream = .ok () ↔
      checkStream what' streamId streamSeq stream = .ok () := by
  unfold checkStream
  dsimp only
  repeat' split
  all_goals simp

/-- What an accepted chain still shows at another time: with every certificate in
its validity and no constraints, nothing else depends on the options. -/
theorem checkChain_of_accepted {opts₀ opts : VerifyOptions} {now₀ now : Int64}
    {humanId agentId : String} (hopts : opts.WithoutProviders) {i : Nat}
    {certs : List DelegationCert}
    (haccepted : checkChain P K opts₀ now₀ humanId agentId i certs = .ok ())
    (hcerts : ∀ cert ∈ certs, cert.issuedAt ≤ now ∧ now ≤ cert.expiresAt ∧ cert.constraints = []) :
    checkChain P K opts now humanId agentId i certs = .ok () := by
  have hcert : ∀ i cert, checkCert P K i cert opts₀ now₀ humanId agentId = .ok () →
      cert.issuedAt ≤ now ∧ now ≤ cert.expiresAt ∧ cert.constraints = [] →
      checkCert P K i cert opts now humanId agentId = .ok () := by
    rintro i cert h ⟨hissued, hexpires, hconstraints⟩
    unfold checkCert at h ⊢
    dsimp only at h ⊢
    split at h
    · cases h
    rename_i hversion
    rw [if_neg hversion]
    split at h
    · cases h
    rw [ok_bind] at h ⊢
    obtain ⟨-, h⟩ := bind_eq_ok_unit_iff.mp h
    obtain ⟨-, h⟩ := bind_eq_ok_unit_iff.mp h
    split at h
    · cases h
    have hvalidity : checkValidity i cert now humanId agentId = .ok () := by
      rw [checkValidity, if_neg (by simpa using hexpires), if_neg (by simpa using hissued)]
    have hrevocation : checkRevocation i cert opts humanId agentId = .ok () := by
      rw [checkRevocation, hopts.revocation, hopts.isRevoked]
    have hnone : checkConstraints P cert i opts now = .ok () := by
      rw [checkConstraints, evaluateCertConstraints, evaluateConstraints, hconstraints]
      rfl
    rw [hvalidity, hrevocation, ok_bind, ok_bind, ok_bind, hnone, ite_self]
  fun_induction checkChain P K opts₀ now₀ humanId agentId i certs with
  | case1 => rfl
  | case2 i cert =>
    rw [checkChain]
    exact hcert i cert haccepted (hcerts cert List.mem_cons_self)
  | case3 i cert next rest ih =>
    obtain ⟨hhead, htail⟩ := bind_eq_ok_unit_iff.mp haccepted
    obtain ⟨hlink, hrest⟩ := bind_eq_ok_unit_iff.mp htail
    rw [checkChain, hcert i cert hhead (hcerts cert List.mem_cons_self), hlink, ok_bind, ok_bind]
    exact ih hrest fun cert hcert => hcerts cert (List.mem_cons_of_mem _ hcert)

/-- The structure of an accepted bundle leaves the challenge and the session
context of a turn to check. -/
theorem checkStructure_withTurn_ok_iff {bundle : ProofBundle} {opts₀ opts : VerifyOptions}
    (haccepted : checkStructure bundle opts₀ = .ok ()) (turn : StreamedTurn) :
    checkStructure (bundle.withTurn turn) opts = .ok () ↔
      turn.challenge ≠ [] ∧
        checkSessionContext "bundle" turn.sessionContext opts.sessionContext = .ok () := by
  unfold checkStructure at haccepted ⊢
  dsimp only at haccepted ⊢
  split at haccepted
  · cases haccepted
  rename_i hne
  split at haccepted
  · cases haccepted
  rename_i hdepth
  split at haccepted
  · cases haccepted
  obtain ⟨hbounds, -⟩ := bind_eq_ok_unit_iff.mp haccepted
  rw [if_neg (show ¬ (bundle.withTurn turn).delegations = [] from hne),
    if_neg (show ¬ (bundle.withTurn turn).delegations.length > _ from hdepth)]
  by_cases hchallenge : (bundle.withTurn turn).challenge = []
  · rw [if_pos hchallenge]
    refine iff_of_false (fun h => ?_) fun h => h.1 hchallenge
    cases h
  · rw [if_neg hchallenge, bind_eq_ok_unit_iff]
    exact ⟨fun h => ⟨hchallenge, h.2⟩, fun h => ⟨hbounds, h.2⟩⟩

/-- So does a valid token. -/
theorem checkToken_ok_iff {token : SessionToken} {sessionSecret : Bytes} {now : Int64}
    (hvalid : verifySessionToken K token sessionSecret now = .ok ()) (turn : StreamedTurn)
    (opts : StreamedVerifyOptions) :
    checkToken K token sessionSecret turn opts now = .ok () ↔
      turn.challenge ≠ [] ∧
        checkSessionContext "turn" turn.sessionContext opts.sessionContext = .ok () := by
  unfold checkToken
  rw [hvalid]
  dsimp only
  rw [ok_bind]
  by_cases hchallenge : turn.challenge = []
  · rw [if_pos hchallenge]
    refine iff_of_false (fun h => ?_) fun h => h.1 hchallenge
    cases h
  · rw [if_neg hchallenge]
    exact ⟨fun h => ⟨hchallenge, h⟩, And.right⟩

/-- The presentation of an accepted bundle leaves the stream and the liveness of a
turn to check. -/
theorem checkPresentation_withTurn_ok_iff {bundle : ProofBundle} {opts₀ opts : VerifyOptions}
    {now₀ now : Int64} (hopts : opts.WithoutProviders)
    (hforce : opts.forceRevocationCheck = false)
    (haccepted : checkPresentation P K bundle opts₀ now₀ = .ok ())
    (hcerts : ∀ cert ∈ bundle.delegations,
      cert.issuedAt ≤ now ∧ now ≤ cert.expiresAt ∧ cert.constraints = [])
    (turn : StreamedTurn) :
    checkPresentation P K (bundle.withTurn turn) opts now = .ok () ↔
      checkStream "bundle" turn.streamId turn.streamSeq opts.stream = .ok () ∧
        checkLiveness K turn.tuple turn.challengeSig bundle.agentPubKey now = .ok () := by
  unfold checkPresentation at haccepted ⊢
  obtain ⟨-, haccepted⟩ := bind_eq_ok_unit_iff.mp haccepted
  obtain ⟨hagent, haccepted⟩ := bind_eq_ok_unit_iff.mp haccepted
  dsimp only at haccepted ⊢
  split at haccepted
  · cases haccepted
  obtain ⟨hchain, -⟩ := bind_eq_ok_unit_iff.mp haccepted
  have hchain' : checkChain P K opts now (bundle.withTurn turn).humanId
      (bundle.withTurn turn).agentId 0 (bundle.withTurn turn).delegations = .ok () :=
    checkChain_of_accepted hopts hchain hcerts
  rw [bind_eq_ok_unit_iff, checkAgent_withTurn, hagent, hchain', hforce]
  exact Iff.rfl

/-! ## The same settlement -/

/-- What an authorized bundle says. -/
theorem of_authorizeBundle {bundle : ProofBundle} {opts : VerifyOptions} {now : Int64}
    {r : VerifyResult} (h : authorizeBundle P K bundle opts now = .ok r) :
    r.humanId = bundle.humanId ∧ r.agentId = bundle.agentId ∧
      r.grantedScope = intersectScopes (bundle.delegations.map (·.scope)) := by
  unfold authorizeBundle at h
  dsimp only at h
  split at h
  · cases h
  · obtain ⟨-, h⟩ := bind_eq_ok_unit_iff.mp h
    obtain rfl := Except.ok.inj h
    exact ⟨rfl, rfl, rfl⟩

/-- Without providers and constraints the required scope decides alone. -/
theorem settleBundle_eq_settleTurn {bundle : ProofBundle} {opts : VerifyOptions} (now : Int64)
    (hopts : opts.WithoutProviders) (hverdict : opts.policyVerdict = none)
    (hcerts : ∀ cert ∈ bundle.delegations, cert.constraints = []) {token : SessionToken} (hhuman : token.humanId = bundle.humanId)
    (hagent : token.agentId = bundle.agentId)
    (hscope : token.grantedScope = intersectScopes (bundle.delegations.map (·.scope))) :
    (settleBundle P K bundle opts now).valid = (settleTurn token opts.streamed).valid ∧
      ((settleTurn token opts.streamed).valid = true →
        settleBundle P K bundle opts now = settleTurn token opts.streamed) := by
  have hdeferred : checkDeferredConstraints P bundle opts now = .ok () := by
    apply forM_eq_ok
    rintro ⟨cert, i⟩ hmem
    have hnone := hcerts cert (List.fst_mem_of_mem_zipIdx hmem)
    simp only [checkConstraints, evaluateCertConstraints, evaluateConstraints, hnone]
    rfl
  have hgate : checkPolicyGate P K bundle opts now = .ok () := by
    simp only [checkPolicyGate, hverdict, checkPolicy, hopts.policy]
  unfold settleBundle settleTurn
  simp only [hdeferred, ok_bind, ite_self, authorizeBundle, hgate, hopts.anchorResolver,
    VerifyOptions.streamed, hscope]
  by_cases hdenied : opts.requiredScope ≠ "" ∧
      opts.requiredScope ∉ intersectScopes (bundle.delegations.map (·.scope))
  · simp only [if_pos hdenied]
    exact ⟨rfl, fun h => by cases h⟩
  · simp only [if_neg hdenied, hhuman, hagent]
    exact ⟨rfl, fun _ => rfl⟩

/-! ## Tokens -/

/-- What a token that was issued says. -/
theorem of_issueSessionToken {bundle : ProofBundle} {result : VerifyResult} {sessionId : String}
    {issuedAt validUntil : Int64} {sessionSecret : Bytes} {token : SessionToken}
    (hissued : issueSessionToken P K bundle result sessionId issuedAt validUntil sessionSecret
      = .ok token) :
    sessionSecret ≠ [] ∧ token.version = 1 ∧
      token.chainHash = chainHash P K bundle.delegations ∧
      token.mac = K.hmacSha256 sessionSecret (sessionTokenSignBytes token) ∧
      token.humanId = result.humanId ∧ token.agentId = result.agentId ∧
      token.agentPubKey = bundle.agentPubKey ∧
      token.grantedScope = result.grantedScope.insertionSort (· ≤ ·) := by
  unfold issueSessionToken at hissued
  split at hissued
  · cases hissued
  rename_i hsecret
  split at hissued
  · cases hissued
  split at hissued
  · cases hissued
  obtain rfl := Except.ok.inj hissued
  -- The MAC does not cover itself.
  exact ⟨hsecret, rfl, rfl, rfl, rfl, rfl, rfl, rfl⟩

/-- A token that was issued is valid throughout its window. -/
theorem verifySessionToken_of_issued (hK : K.Sized) {bundle : ProofBundle} {result : VerifyResult}
    {sessionId : String} {issuedAt validUntil : Int64} {sessionSecret : Bytes}
    {token : SessionToken}
    (hissued : issueSessionToken P K bundle result sessionId issuedAt validUntil sessionSecret
      = .ok token) {now : Int64} (hfrom : token.issuedAt ≤ now) (huntil : now ≤ token.validUntil) :
    verifySessionToken K token sessionSecret now = .ok () := by
  obtain ⟨hsecret, hversion, hchain, hmac, -⟩ := of_issueSessionToken hissued
  have hchainLen : token.chainHash.length = 32 := hchain ▸ hK.sha256 _
  have hmacLen : token.mac.length = 32 := hmac ▸ hK.hmacSha256 _ _
  rw [verifySessionToken, if_neg hsecret, if_neg (not_not.mpr hversion),
    if_neg (not_not.mpr hchainLen), if_neg (not_not.mpr hmacLen), if_neg (not_not.mpr hmac.symm),
    if_neg (Int64.not_lt.mpr hfrom), if_neg (Int64.not_lt.mpr huntil)]

/-! ## Agreement -/

/-- The streamed fast path agrees with full verification.  For a bundle that was
accepted, a token issued from it, and a time in the token's window at which its
certificates are valid and carry no constraints, under options without
providers, a forced revocation check or a cached policy verdict: a turn against
the token and the bundle with the turn's fields substituted leave every challenge
store in the same state, one is valid exactly when the other is, and then with
the same human, agent and granted scope. -/
theorem verifyStreamedTurn_agrees (hK : K.Sized) {bundle : ProofBundle} {opts₀ : VerifyOptions}
    {now₀ : Int64} {log₀ : List (StoreCall × Bool)} {result : VerifyResult}
    (haccepted : (verifyBundleInner P K bundle opts₀ now₀).Leads log₀ (.ret result))
    (hresult : result.valid = true) {sessionId : String} {issuedAt validUntil : Int64}
    {sessionSecret : Bytes} {token : SessionToken}
    (hissued : issueSessionToken P K bundle result sessionId issuedAt validUntil sessionSecret
      = .ok token)
    {opts : VerifyOptions} (hopts : opts.WithoutProviders)
    (hforce : opts.forceRevocationCheck = false) (hverdict : opts.policyVerdict = none)
    {now : Int64} (hfrom : token.issuedAt ≤ now) (huntil : now ≤ token.validUntil)
    (hcerts : ∀ cert ∈ bundle.delegations,
      cert.issuedAt ≤ now ∧ now ≤ cert.expiresAt ∧ cert.constraints = [])
    (turn : StreamedTurn) {σ : Type} (perform : σ → StoreCall → σ × Bool) (store : σ) :
    ∃ store' streamed full,
      (verifyStreamedTurnWithOptions K token sessionSecret turn opts.streamed now).run perform store
        = (store', streamed) ∧
      (verifyBundleInner P K (bundle.withTurn turn) opts now).run perform store
        = (store', full) ∧
      (streamed.valid = true ↔ full.valid = true) ∧
      (streamed.valid = true → streamed.humanId = full.humanId ∧
        streamed.agentId = full.agentId ∧ streamed.grantedScope = full.grantedScope) := by
  obtain ⟨hstructure, hpresentation, rfl⟩ := of_presentation_valid haccepted
    (refuses_checkStructure _ _) (refuses_checkPresentation _ _ _) hresult
  obtain ⟨hhuman, hagent, hscope⟩ := of_authorizeBundle (authorizeBundle_of_settled hresult)
  obtain ⟨-, -, -, -, htokenHuman, htokenAgent, hkey, htokenScope⟩ := of_issueSessionToken hissued
  -- The effective scope is sorted already.
  rw [hscope, ((pairwise_intersectScopes _).imp le_of_lt).insertionSort_eq] at htokenScope
  have hbefore : checkToken K token sessionSecret turn opts.streamed now = .ok () ↔
      checkStructure (bundle.withTurn turn) opts = .ok () := by
    rw [checkToken_ok_iff (verifySessionToken_of_issued hK hissued hfrom huntil),
      checkStructure_withTurn_ok_iff hstructure]
    exact and_congr_right fun _ => checkSessionContext_ok_iff _ _ _ _
  have hbetween : checkTurn K token turn opts.streamed now = .ok () ↔
      checkPresentation P K (bundle.withTurn turn) opts now = .ok () := by
    rw [checkPresentation_withTurn_ok_iff hopts hforce hpresentation hcerts, checkTurn,
      bind_eq_ok_unit_iff, hkey]
    exact and_congr_left fun _ => checkStream_ok_iff _ _ _ _ _
  have hplain : ∀ cert ∈ (bundle.withTurn turn).delegations, cert.constraints = [] :=
    fun cert hcert => (hcerts cert hcert).2.2
  obtain ⟨hvalid, hsame⟩ := settleBundle_eq_settleTurn (P := P) (K := K) now hopts
    hverdict hplain (htokenHuman.trans hhuman) (htokenAgent.trans hagent) htokenScope
  obtain ⟨store', streamed, full, hstreamed, hfull, hends⟩ := run_presentation
    (refuses_checkToken _ _ _ _ _) (refuses_checkStructure _ _) (refuses_checkTurn _ _ _ _)
    (refuses_checkPresentation _ _ _) hbefore hbetween perform store
  refine ⟨store', streamed, full, hstreamed, hfull, ?_⟩
  obtain ⟨rfl, rfl⟩ | ⟨hs, hf⟩ := hends
  · rw [hvalid]
    refine ⟨Iff.rfl, fun h => ?_⟩
    rw [hsame h]
    exact ⟨rfl, rfl, rfl⟩
  · rw [hs, hf]
    exact ⟨Iff.rfl, fun h => absurd h Bool.false_ne_true⟩

/-! ## One turn -/

def attendCert : DelegationCert :=
  ⟨"cert", protocolVersion, "human", lenientKey, "agent", lenientKey, ["meeting:attend"], [], 900,
    2000, lenientSignature⟩

/-- A bundle that is accepted without a store. -/
def attendBundle : ProofBundle :=
  { agentId := "agent", agentPubKey := lenientKey, delegations := [attendCert], challenge := [5]
    challengeAt := 940, challengeSig := lenientSignature, sessionContext := [], streamId := []
    streamSeq := 0 }

/-- The token for it. -/
def attendToken : SessionToken :=
  { version := 1, sessionId := "s", agentId := "agent", agentPubKey := lenientKey
    humanId := "human", grantedScope := ["meeting:attend"], issuedAt := 950, validUntil := 2000
    chainHash := List.replicate 32 0, mac := List.replicate 32 0 }

def attendOptions : VerifyOptions :=
  { VerifyOptions.default with requiredScope := "meeting:attend", challengeStore := true }

def attendTurn : StreamedTurn := ⟨[7], 990, lenientSignature, [], [], 0⟩

theorem checkStructure_attendBundle : checkStructure attendBundle .default = .ok () := by
  simp [-List.reduceReplicate, checkStructure, attendBundle, VerifyOptions.default,
    checkSessionContext]
  decide

theorem checkAgent_attendBundle : checkAgent attendBundle = .ok () := by
  simp [-List.reduceReplicate, checkAgent, attendBundle, attendCert, validateHybridPubkeyLens,
    lenientKey, ed25519PublicKeySize, mldsa65PublicKeySize]

theorem checkPresentation_attendBundle :
    checkPresentation plainPlatform lenient attendBundle .default 945 = .ok () := by
  have hscopes : V2.validateScopes ["meeting:attend"] = none := by decide
  have hchain : checkChain plainPlatform lenient .default 945 attendBundle.humanId "agent" 0
      [attendCert] = .ok () := by
    simp [-List.reduceReplicate, checkChain, checkCert, attendCert, hscopes, checkValidity,
      checkRevocation, VerifyOptions.default, verifyDelegationSignature, verifyBoth_lenient,
      checkConstraints, evaluateCertConstraints, evaluateConstraints, evaluateConstraintsFrom]
  have hfresh : 0 ≤ (945 : Int64) - 940 ∧ (945 : Int64) - 940 ≤ challengeWindowSeconds := by decide
  have hliveness : checkLiveness lenient ⟨[5], 940, [], [], 0⟩ lenientSignature lenientKey 945
      = .ok () := by
    rw [checkLiveness, if_neg (not_not.mpr hfresh)]
    simp [verifyChallengeSignatureWithStream, verifyBoth_lenient]
  have hstream : checkStream "bundle" [] 0 none = .ok () := by simp [checkStream]
  refine bind_eq_ok_unit_iff.mpr ⟨hstream, bind_eq_ok_unit_iff.mpr
    ⟨checkAgent_attendBundle, bind_eq_ok_unit_iff.mpr ⟨hchain, hliveness⟩⟩⟩

/-- What full verification says of it. -/
def attendResult : VerifyResult := settleBundle plainPlatform lenient attendBundle .default 945

theorem attendResult_valid : attendResult.valid = true := by decide

theorem verifyBundleInner_attendBundle :
    (verifyBundleInner plainPlatform lenient attendBundle .default 945).Leads []
      (.ret attendResult) := by
  unfold verifyBundleInner presentation
  rw [checkStructure_attendBundle, checkPresentation_attendBundle]
  exact .nil _

theorem issueSessionToken_attendBundle :
    issueSessionToken plainPlatform lenient attendBundle attendResult "s" 950 2000 [1]
      = .ok attendToken := by
  rfl

/-- The store that issued the challenge of the turn. -/
def attendStore : MemoryChallengeStore := ((MemoryChallengeStore.new 1).issue [] 60 980 [7]).1

/-- The answer to a challenge of a store, on the fast path and in full. -/
theorem verifyStreamedTurn_agrees_attend :
    ∃ store' streamed full,
      (verifyStreamedTurnWithOptions lenient attendToken [1] attendTurn attendOptions.streamed
          1000).run MemoryChallengeStore.perform attendStore = (store', streamed) ∧
      (verifyBundleInner plainPlatform lenient (attendBundle.withTurn attendTurn) attendOptions
          1000).run MemoryChallengeStore.perform attendStore = (store', full) ∧
      (streamed.valid = true ↔ full.valid = true) := by
  have hopts : attendOptions.WithoutProviders := ⟨rfl, rfl, rfl, rfl⟩
  have hwindow : attendToken.issuedAt ≤ 1000 ∧ 1000 ≤ attendToken.validUntil := by decide
  have hsized : lenient.Sized := ⟨fun _ => List.length_replicate, fun _ _ => List.length_replicate⟩
  obtain ⟨store', streamed, full, hstreamed, hfull, hvalid, -⟩ := verifyStreamedTurn_agrees hsized
    verifyBundleInner_attendBundle attendResult_valid issueSessionToken_attendBundle hopts
    rfl rfl hwindow.1 hwindow.2 (by decide) attendTurn MemoryChallengeStore.perform attendStore
  exact ⟨store', streamed, full, hstreamed, hfull, hvalid⟩

/-! ## The two options apart -/

/-- A forced revocation check without a provider. -/
def forcedOptions : VerifyOptions := { attendOptions with forceRevocationCheck := true }

/-- A cached verdict that denies the scope. -/
def cachedDeny : PolicyVerdict :=
  { version := 1, verdictId := "v", agentId := "agent", scope := "meeting:attend", allow := false
    contextHash := List.replicate 32 0, issuedAt := 900, validUntil := 2000
    mac := List.replicate 32 0 }

def cachedOptions : VerifyOptions :=
  { attendOptions with policyVerdict := some cachedDeny, policySecret := some [2] }

theorem perform_attendStore :
    attendStore.perform (.validate [7] [] 1000) = (attendStore, true) ∧
      attendStore.perform (.consume [7] [] 1000) = (⟨.empty, 1⟩, true) :=
  ⟨Prod.ext rfl (by decide), Prod.ext rfl (by decide)⟩

theorem checkToken_attendTurn :
    checkToken lenient attendToken [1] attendTurn attendOptions.streamed 1000 = .ok () := by
  simp [-List.reduceReplicate, checkToken, verifySessionToken, lenient, attendToken, attendTurn,
    attendOptions, VerifyOptions.streamed, VerifyOptions.default, checkSessionContext]

theorem checkTurn_attendTurn :
    checkTurn lenient attendToken attendTurn attendOptions.streamed 1000 = .ok () := by
  have hfresh : (10 : Int64) ≤ challengeWindowSeconds := by decide
  simp [-List.reduceReplicate, checkTurn, checkStream, checkLiveness, attendToken, attendTurn,
    attendOptions, VerifyOptions.streamed, VerifyOptions.default,
    verifyChallengeSignatureWithStream, StreamedTurn.tuple, verifyBoth_lenient, hfresh]

/-- The fast path accepts the turn and burns its challenge. -/
theorem run_streamedTurn_attend :
    (verifyStreamedTurnWithOptions lenient attendToken [1] attendTurn attendOptions.streamed
        1000).run MemoryChallengeStore.perform attendStore
      = (⟨.empty, 1⟩, settleTurn attendToken attendOptions.streamed) := by
  obtain ⟨hvalidate, hconsume⟩ := perform_attendStore
  unfold verifyStreamedTurnWithOptions presentation
  rw [checkToken_attendTurn, checkTurn_attendTurn]
  simp only [attendOptions, VerifyOptions.streamed, VerifyOptions.default, attendTurn, if_true,
    Interaction.run, hvalidate, hconsume, Bool.not_true, Bool.false_eq_true, if_false]

theorem checkStructure_attendTurn :
    checkStructure (attendBundle.withTurn attendTurn) attendOptions = .ok () :=
  (checkStructure_withTurn_ok_iff checkStructure_attendBundle _).mpr ⟨by decide, rfl⟩

theorem checkPresentation_cached :
    checkPresentation plainPlatform lenient (attendBundle.withTurn attendTurn) cachedOptions 1000
      = .ok () :=
  have hopts : cachedOptions.WithoutProviders := ⟨rfl, rfl, rfl, rfl⟩
  (checkPresentation_withTurn_ok_iff hopts rfl checkPresentation_attendBundle (by decide) _).mpr
    (bind_eq_ok_unit_iff.mp checkTurn_attendTurn)

def forcedRefusal : VerifyResult :=
  invalid "force_revocation_no_callback"
    "force_revocation_check is true but neither is_revoked nor revocation provider is set"

/-- A forced revocation check refuses the turn before its challenge is consumed. -/
theorem checkPresentation_forced :
    checkPresentation plainPlatform lenient (attendBundle.withTurn attendTurn) forcedOptions 1000
      = .error forcedRefusal := by
  have hstream : checkStream "bundle" (attendBundle.withTurn attendTurn).streamId
      (attendBundle.withTurn attendTurn).streamSeq forcedOptions.stream = .ok () :=
    (bind_eq_ok_unit_iff.mp checkTurn_attendTurn).1
  unfold checkPresentation
  rw [hstream, checkAgent_withTurn, checkAgent_attendBundle, ok_bind, ok_bind]
  rfl

/-- A cached verdict refuses it afterwards. -/
theorem settleBundle_cached :
    (settleBundle plainPlatform lenient (attendBundle.withTurn attendTurn) cachedOptions
      1000).valid = false := by
  decide

theorem run_verifyBundle_forced :
    (verifyBundleInner plainPlatform lenient (attendBundle.withTurn attendTurn) forcedOptions
        1000).run MemoryChallengeStore.perform attendStore = (attendStore, forcedRefusal) := by
  obtain ⟨hvalidate, -⟩ := perform_attendStore
  have hstructure : checkStructure (attendBundle.withTurn attendTurn) forcedOptions = .ok () :=
    checkStructure_attendTurn
  unfold verifyBundleInner presentation
  rw [hstructure, checkPresentation_forced]
  simp only [forcedOptions, attendOptions, VerifyOptions.default, ProofBundle.withTurn, attendTurn,
    if_true, Interaction.run, hvalidate, Bool.not_true, Bool.false_eq_true, if_false]

theorem run_verifyBundle_cached :
    (verifyBundleInner plainPlatform lenient (attendBundle.withTurn attendTurn) cachedOptions
        1000).run MemoryChallengeStore.perform attendStore
      = (⟨.empty, 1⟩, settleBundle plainPlatform lenient (attendBundle.withTurn attendTurn)
          cachedOptions 1000) := by
  obtain ⟨hvalidate, hconsume⟩ := perform_attendStore
  have hstructure : checkStructure (attendBundle.withTurn attendTurn) cachedOptions = .ok () :=
    checkStructure_attendTurn
  unfold verifyBundleInner presentation
  rw [hstructure, checkPresentation_cached]
  generalize settleBundle plainPlatform lenient (attendBundle.withTurn attendTurn) cachedOptions
    1000 = r
  simp only [cachedOptions, attendOptions, VerifyOptions.default, ProofBundle.withTurn, attendTurn,
    if_true, Interaction.run, hvalidate, hconsume, Bool.not_true, Bool.false_eq_true, if_false]

/-- Without a provider either option makes full verification refuse a turn that
the fast path accepts; with a forced revocation check the challenge stays pending
on that path alone. -/
theorem verifyStreamedTurn_gated :
    ((verifyBundleInner plainPlatform lenient attendBundle .default 945).Leads []
        (.ret attendResult) ∧ attendResult.valid = true ∧
      issueSessionToken plainPlatform lenient attendBundle attendResult "s" 950 2000 [1]
        = .ok attendToken ∧
      (attendToken.issuedAt ≤ 1000 ∧ 1000 ≤ attendToken.validUntil) ∧
      (∀ cert ∈ attendBundle.delegations,
        cert.issuedAt ≤ 1000 ∧ 1000 ≤ cert.expiresAt ∧ cert.constraints = []) ∧
      forcedOptions.WithoutProviders ∧ cachedOptions.WithoutProviders) ∧
    (∃ streamed full,
      (verifyStreamedTurnWithOptions lenient attendToken [1] attendTurn forcedOptions.streamed
          1000).run MemoryChallengeStore.perform attendStore = (⟨.empty, 1⟩, streamed) ∧
      (verifyBundleInner plainPlatform lenient (attendBundle.withTurn attendTurn) forcedOptions
          1000).run MemoryChallengeStore.perform attendStore = (attendStore, full) ∧
      streamed.valid = true ∧ full.valid = false ∧ attendStore.records.size = 1) ∧
    ∃ streamed full,
      (verifyStreamedTurnWithOptions lenient attendToken [1] attendTurn cachedOptions.streamed
          1000).run MemoryChallengeStore.perform attendStore = (⟨.empty, 1⟩, streamed) ∧
      (verifyBundleInner plainPlatform lenient (attendBundle.withTurn attendTurn) cachedOptions
          1000).run MemoryChallengeStore.perform attendStore = (⟨.empty, 1⟩, full) ∧
      streamed.valid = true ∧ full.valid = false := by
  have haccepted : (settleTurn attendToken attendOptions.streamed).valid = true := by decide
  exact ⟨⟨verifyBundleInner_attendBundle, attendResult_valid, issueSessionToken_attendBundle,
      by decide, by decide, ⟨rfl, rfl, rfl, rfl⟩, rfl, rfl, rfl, rfl⟩,
    ⟨_, _, run_streamedTurn_attend, run_verifyBundle_forced, haccepted, rfl, rfl⟩,
    _, _, run_streamedTurn_attend, run_verifyBundle_cached, haccepted, settleBundle_cached⟩

end RatifyProtocol.V1
