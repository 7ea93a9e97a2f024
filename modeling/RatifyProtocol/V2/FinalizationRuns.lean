import RatifyProtocol.Foundation.Run
import RatifyProtocol.V2.Finalization
set_option autoImplicit false

/-!
# Claims: attempts to finalize

The evaluator token of a claim against a claim store that commits, refuses or
loses its reply.  A `TerminalStore` is what a store owes to one claim and its
owner; in a run the token makes its attempts while the store is used by others.
-/

namespace RatifyProtocol.V2

open Foundation

def Payload.bytes (p : Payload) : Bytes × Bytes := (p.terminalResult.1, p.receiptBody.1)

/-- A claim store as the owner of one claim meets it: the terminal payload of the
claim, what a finalization may do, and what may happen in between. -/
structure TerminalStore (σ : Type) (claimId : String) (ownerToken : Bytes) where
  /-- Whether the store has a `rate_at_finalization_view`. -/
  rateView : Bool
  outcome : σ → Option (Bytes × Bytes)
  finalizes : σ → Payload → Int → V2StoreResult Bool → σ → Prop
  other : σ → σ → Prop
  commits : ∀ {s t payload horizon}, finalizes s payload horizon (.ok true) t →
    outcome s = none ∧ outcome t = some payload.bytes
  repeats : ∀ {s t payload horizon}, finalizes s payload horizon (.ok false) t →
    outcome s = some payload.bytes ∧ outcome t = outcome s
  refuses : ∀ {s t payload horizon e}, finalizes s payload horizon (.error e) t →
    outcome s ≠ some payload.bytes ∧ outcome t = outcome s
  /-- The exact error proves that nothing is committed. -/
  rollsBack : ∀ {s t payload horizon}, finalizes s payload horizon (.error .rateLimitExceeded) t →
    outcome s = none
  keeps : ∀ {s t p}, other s t → outcome s = some p → outcome t = some p

/-! ## Runs -/

/-- A submission, the store's answer, and the reply that arrived. -/
structure Exchange where
  submission : Submission
  answer : V2StoreResult Bool
  reply : V2StoreResult Bool

/-- The store committed the submission. -/
def Exchange.commits (x : Exchange) : Bool :=
  match x.answer with
  | .ok true => true
  | _ => false

theorem Exchange.commits_iff {x : Exchange} : x.commits = true ↔ x.answer = .ok true := by
  unfold commits
  split
  · simp [*]
  · rename_i hne
    exact iff_of_false Bool.false_ne_true hne

/-- The answer arrives, or it is lost: then the caller sees some error, but never
the exact one. -/
def Delivered (answer reply : V2StoreResult Bool) : Prop :=
  reply = answer ∨ ∃ e, e ≠ .rateLimitExceeded ∧ reply = .error e

/-- One attempt to finalize. -/
structure Attempt where
  cancelled : Bool
  payload : Payload
  exchange : Option Exchange
  result : Except FinalizeFailure Bool

variable {σ : Type} {P : Primitives} {claimId : String} {ownerToken : Bytes}

/-- An attempt of the token, or something that others do to the store. -/
inductive FinalizeStep (P : Primitives) (S : TerminalStore σ claimId ownerToken) :
    TokenState × σ → Option Attempt → TokenState × σ → Prop
  | refused {token token' : TokenState} {s : σ} {cancelled : Bool} {payload : Payload}
      {result : Except FinalizeFailure Bool}
      (call : finalizeClaimProofBundleV2Inner P S.rateView cancelled token payload
        = .ret (result, token')) :
      FinalizeStep P S (token, s) (some ⟨cancelled, payload, none, result⟩) (token', s)
  | submitted {token token' : TokenState} {s t : σ} {cancelled : Bool} {payload : Payload}
      {submission : Submission}
      {next : V2StoreResult Bool → Interaction Submission (V2StoreResult Bool)
        (Except FinalizeFailure Bool × TokenState)}
      {answer reply : V2StoreResult Bool} {result : Except FinalizeFailure Bool}
      (call : finalizeClaimProofBundleV2Inner P S.rateView cancelled token payload
        = .call submission next)
      (store : S.finalizes s submission.payload submission.allowValidUntil answer t)
      (delivered : Delivered answer reply) (returned : next reply = .ret (result, token')) :
      FinalizeStep P S (token, s)
        (some ⟨cancelled, payload, some ⟨submission, answer, reply⟩, result⟩) (token', t)
  | other {token : TokenState} {s t : σ} (store : S.other s t) :
      FinalizeStep P S (token, s) none (token, t)

/-- The submissions of a run, in order. -/
def exchanges (events : List (Option Attempt)) : List Exchange :=
  events.filterMap fun a => a.bind (·.exchange)

@[simp] theorem exchanges_append (as bs : List (Option Attempt)) :
    exchanges (as ++ bs) = exchanges as ++ exchanges bs := List.filterMap_append

/-- The payloads that are attempted in a run. -/
def attemptedPayloads (events : List (Option Attempt)) : List Payload :=
  events.filterMap fun a => a.map (·.payload)

/-- SHA-256 has no collision among these payloads. -/
def DigestsDiffer (P : Primitives) (payloads : List Payload) : Prop :=
  ∀ p ∈ payloads, ∀ q ∈ payloads,
    P.sha256 (fieldBytes p.terminalResult ++ fieldBytes p.receiptBody)
        = P.sha256 (fieldBytes q.terminalResult ++ fieldBytes q.receiptBody) →
      fieldBytes p.terminalResult ++ fieldBytes p.receiptBody
        = fieldBytes q.terminalResult ++ fieldBytes q.receiptBody

/-- The lengths stand before the parts, so equal digests are equal payloads. -/
theorem DigestsDiffer.eq {payloads : List Payload} (h : DigestsDiffer P payloads) {p q : Payload}
    (hp : p ∈ payloads) (hq : q ∈ payloads)
    (hdigest : v2FinalizationPayloadDigest P p = v2FinalizationPayloadDigest P q) : p = q := by
  have hbytes := h p hp q hq hdigest
  have hfields := @fields_inj [p.terminalResult, p.receiptBody]
    [q.terminalResult, q.receiptBody] rfl
    (by simpa only [List.flatMap_cons, List.flatMap_nil, List.append_nil] using hbytes)
  simp only [List.cons.injEq, and_true] at hfields
  cases p
  cases q
  rw [Payload.mk.injEq]
  exact hfields

/-! ## One step -/

/-- What the token submits. -/
def TokenState.submission (token : TokenState) (p : Payload) : Submission :=
  ⟨token.claimId, token.ownerToken, p, token.m.allowValidUntil⟩

/-- The token after its submission has been answered. -/
def TokenState.answered (P : Primitives) (token : TokenState) (rateView : Bool)
    (payload : Payload) (decision : String) (reply : V2StoreResult Bool) : TokenState :=
  let m := token.m.start (v2FinalizationPayloadDigest P payload)
  { token with m := m.settle rateView decision reply }

/-- What one step can do. -/
inductive StepEffect (P : Primitives) (S : TerminalStore σ claimId ownerToken)
    (token : TokenState) (s : σ) : Option Attempt → TokenState × σ → Prop
  | other {t : σ} (store : S.other s t) : StepEffect P S token s none (token, t)
  | refused {cancelled : Bool} {payload : Payload} {e : FinalizeFailure}
      (check : checkFinalization P S.rateView cancelled token payload = .error e) :
      StepEffect P S token s (some ⟨cancelled, payload, none, .error e⟩) (token, s)
  | submitted {t : σ} {payload : Payload} {decision : String} {answer reply : V2StoreResult Bool}
      (admitted : Admitted P S.rateView token payload decision)
      (store : S.finalizes s payload token.m.allowValidUntil answer t)
      (delivered : Delivered answer reply) :
      StepEffect P S token s
        (some ⟨false, payload, some ⟨token.submission payload, answer, reply⟩,
          reply.mapError .store⟩)
        (token.answered P S.rateView payload decision reply, t)

theorem FinalizeStep.effect {S : TerminalStore σ claimId ownerToken} {token : TokenState} {s : σ}
    {label : Option Attempt} {after : TokenState × σ}
    (h : FinalizeStep P S (token, s) label after) : StepEffect P S token s label after := by
  cases h with
  | other store => exact .other store
  | @refused _ token' _ cancelled payload result call =>
    unfold finalizeClaimProofBundleV2Inner at call
    cases hcheck : checkFinalization P S.rateView cancelled token payload with
    | error e =>
      rw [hcheck] at call
      obtain ⟨rfl, rfl⟩ := Prod.mk.inj (Interaction.ret.inj call)
      exact .refused hcheck
    | ok decision =>
      rw [hcheck] at call
      cases call
  | @submitted _ token' _ t cancelled payload submission next answer reply result call store
      delivered returned =>
    unfold finalizeClaimProofBundleV2Inner at call
    cases hcheck : checkFinalization P S.rateView cancelled token payload with
    | error e =>
      rw [hcheck] at call
      cases call
    | ok decision =>
      rw [hcheck] at call
      obtain ⟨rfl, rfl⟩ := Interaction.call.inj call
      obtain ⟨rfl, rfl⟩ := Prod.mk.inj (Interaction.ret.inj returned)
      obtain ⟨rfl, hadmitted⟩ := checkFinalization_eq_ok_iff.mp hcheck
      exact .submitted hadmitted store delivered

/-- A payload that is admitted is submitted. -/
theorem FinalizeStep.of_admitted {S : TerminalStore σ claimId ownerToken} {token : TokenState}
    {s t : σ} {payload : Payload} {decision : String} {answer reply : V2StoreResult Bool}
    (admitted : Admitted P S.rateView token payload decision)
    (store : S.finalizes s payload token.m.allowValidUntil answer t)
    (delivered : Delivered answer reply) :
    FinalizeStep P S (token, s)
      (some ⟨false, payload, some ⟨token.submission payload, answer, reply⟩,
        reply.mapError .store⟩)
      (token.answered P S.rateView payload decision reply, t) := by
  have hcall : finalizeClaimProofBundleV2Inner P S.rateView false token payload
      = .call (token.submission payload) fun result =>
        .ret (result.mapError .store, token.answered P S.rateView payload decision result) := by
    rw [finalizeClaimProofBundleV2Inner, checkFinalization_eq_ok_iff.mpr ⟨rfl, admitted⟩]
    rfl
  exact .submitted hcall store delivered rfl

/-! ## The course of a token -/

section Course

variable {rateView : Bool} {token : TokenState} {p q : Payload} {decision : String}
  {first rest : List Exchange}

theorem TokenMut.settle_cases (m : TokenMut) (rateView : Bool) (decision : String)
    (reply : V2StoreResult Bool) :
    (m.settle rateView decision reply = .rolledBack ∧ reply = .error .rateLimitExceeded ∧
        m.rateAtFinalization = true ∧ decision = "allow") ∨
      m.settle rateView decision reply = m := by
  unfold settle
  split
  · split
    · rename_i hrate
      simp only [Bool.and_eq_true, beq_iff_eq] at hrate
      exact .inl ⟨rfl, rfl, hrate.1.1, hrate.1.2⟩
    · exact .inr rfl
  · exact .inr rfl

/-- A token that has submitted may submit the same again. -/
theorem Admitted.start (h : Admitted P rateView token p decision) :
    Admitted P rateView { token with m := token.m.start (v2FinalizationPayloadDigest P p) } p
      decision :=
  { capability := h.capability, complete := h.complete, terminal := h.terminal
    sealed := h.sealed, matched := h.matched, horizon := h.horizon, rate := h.rate
    same := fun _ => rfl }

/-- What it may still submit, it could have submitted from the start. -/
theorem Admitted.of_start {digest : Bytes} (hfresh : token.m.finalizationStarted = false)
    (h : Admitted P rateView { token with m := token.m.start digest } p decision) :
    Admitted P rateView token p decision ∧ digest = v2FinalizationPayloadDigest P p := by
  refine ⟨?_, h.same rfl⟩
  exact
    { capability := h.capability, complete := h.complete, terminal := h.terminal
      sealed := h.sealed, matched := h.matched, horizon := h.horizon, rate := h.rate
      same := fun hstarted => absurd (hfresh.symm.trans hstarted) Bool.false_ne_true }

/-- All of `xs` submit one payload with one horizon. -/
def Carries (token : TokenState) (p : Payload) (horizon : Int) (xs : List Exchange) : Prop :=
  ∀ x ∈ xs, x.submission = ⟨token.claimId, token.ownerToken, p, horizon⟩

theorem Carries.snoc {horizon : Int} {xs : List Exchange} (h : Carries token p horizon xs)
    {x : Exchange} (hx : x.submission = ⟨token.claimId, token.ownerToken, p, horizon⟩) :
    Carries token p horizon (xs ++ [x]) := by
  intro y hy
  obtain hy | hy := List.mem_append.mp hy
  · exact h y hy
  · exact List.mem_singleton.mp hy ▸ hx

/-- An allow with rate admission at finalization was answered with the exact
error, and nothing of it was committed. -/
structure RolledBack (P : Primitives) (rateView : Bool) (token : TokenState) (p : Payload)
    (first : List Exchange) : Prop where
  carries : Carries token p token.m.allowValidUntil first
  allow : Admitted P rateView token p "allow"
  rate : token.m.rateAtFinalization = true
  refused : ∃ before x, first = before ++ [x] ∧ x.reply = .error .rateLimitExceeded
  nothing : ∀ x ∈ first, x.commits = false

/-- The submissions of a token so far, and its state: one payload, and after a
rollback one denial. -/
inductive Course (P : Primitives) (rateView : Bool) (token : TokenState) :
    List Exchange → TokenMut → Prop
  | fresh : Course P rateView token [] token.m
  | started {first : List Exchange} {p : Payload} {decision : String} (some : first ≠ [])
      (carries : Carries token p token.m.allowValidUntil first)
      (admitted : Admitted P rateView token p decision) :
      Course P rateView token first (token.m.start (v2FinalizationPayloadDigest P p))
  | rolledBack {first : List Exchange} {p : Payload} (back : RolledBack P rateView token p first) :
      Course P rateView token first .rolledBack
  | denied {first rest : List Exchange} {p q : Payload}
      (back : RolledBack P rateView token p first) (some : rest ≠ [])
      (carries : Carries token q 0 rest)
      (admitted : Admitted P rateView { token with m := .rolledBack } q "deny") :
      Course P rateView token (first ++ rest)
        (TokenMut.rolledBack.start (v2FinalizationPayloadDigest P q))

/-- A denied claim has one decision. -/
theorem Admitted.deny (h : Admitted P rateView { token with m := .rolledBack } q decision) :
    decision = "deny" := by
  have hterminal : terminalDecisionForV2Evaluation "constraint_denied" "constraint_denied"
      = some decision := h.terminal
  have hdeny : terminalDecisionForV2Evaluation "constraint_denied" "constraint_denied"
      = some "deny" := by decide
  exact (Option.some.inj (hdeny.symm.trans hterminal)).symm

/-- One more submission of the first payload. -/
theorem Course.submit_first (hcarries : Carries token p token.m.allowValidUntil first)
    (hadmitted : Admitted P rateView token p decision) {answer reply : V2StoreResult Bool}
    (hnothing : reply = .error .rateLimitExceeded → answer ≠ .ok true ∧
      ∀ x ∈ first, x.commits = false) :
    Course P rateView token (first ++ [⟨token.submission p, answer, reply⟩])
      ((token.m.start (v2FinalizationPayloadDigest P p)).settle rateView decision reply) := by
  have hall := hcarries.snoc (x := ⟨token.submission p, answer, reply⟩) rfl
  obtain ⟨hback, hreply, hrate, rfl⟩ | hkept := TokenMut.settle_cases
    (token.m.start (v2FinalizationPayloadDigest P p)) rateView decision reply
  · rw [hback]
    obtain ⟨hanswer, hbefore⟩ := hnothing hreply
    refine .rolledBack
      { carries := hall, allow := hadmitted, rate := hrate
        refused := ⟨first, _, rfl, hreply⟩
        nothing := ?_ }
    intro x hx
    obtain hx | hx := List.mem_append.mp hx
    · exact hbefore x hx
    · obtain rfl := List.mem_singleton.mp hx
      exact Bool.eq_false_iff.mpr fun hcommits => hanswer (Exchange.commits_iff.mp hcommits)
  · rw [hkept]
    exact .started (List.append_ne_nil_of_right_ne_nil _ (List.cons_ne_nil _ _)) hall hadmitted

/-- One more submission after a rollback. -/
theorem Course.submit_rest (hback : RolledBack P rateView token p first)
    (hcarries : Carries token q 0 rest)
    (hadmitted : Admitted P rateView { token with m := .rolledBack } q decision)
    {answer reply : V2StoreResult Bool} :
    Course P rateView token
      (first ++ rest ++ [⟨⟨token.claimId, token.ownerToken, q, 0⟩, answer, reply⟩])
      ((TokenMut.rolledBack.start (v2FinalizationPayloadDigest P q)).settle rateView decision
        reply) := by
  obtain rfl := hadmitted.deny
  obtain ⟨-, -, hrate, -⟩ | hkept := TokenMut.settle_cases
    (TokenMut.rolledBack.start (v2FinalizationPayloadDigest P q)) rateView "deny" reply
  · cases hrate
  · rw [hkept, List.append_assoc]
    exact .denied hback (List.append_ne_nil_of_right_ne_nil _ (List.cons_ne_nil _ _))
      (hcarries.snoc rfl) hadmitted

end Course

/-! ## Every run -/

section Runs

variable {token : TokenState} {S : TerminalStore σ claimId ownerToken} {s₀ : σ}
  {events : List (Option Attempt)} {t : TokenState × σ}

/-- The loss of a reply is never taken for a rollback. -/
theorem Delivered.rollsBack {answer reply : V2StoreResult Bool} (h : Delivered answer reply)
    (hreply : reply = .error .rateLimitExceeded) : answer = .error .rateLimitExceeded := by
  obtain rfl | ⟨e, he, rfl⟩ := h
  · exact hreply
  · exact absurd (Except.error.inj hreply) he

/-- What holds throughout a run. -/
structure TokenKept (P : Primitives) (S : TerminalStore σ claimId ownerToken) (token : TokenState)
    (events : List (Option Attempt)) (t : TokenState × σ) : Prop where
  sameToken : t.1 = { token with m := t.1.m }
  course : Course P S.rateView token (exchanges events) t.1.m
  attempted : ∀ x ∈ exchanges events, x.submission.payload ∈ attemptedPayloads events
  committed : ∀ x ∈ exchanges events, x.commits = true →
    S.outcome t.2 = some x.submission.payload.bytes
  once : (exchanges events).countP Exchange.commits ≤ 1

theorem TokenKept.nothing (h : TokenKept P S token events t) (hnone : S.outcome t.2 = none) :
    ∀ x ∈ exchanges events, x.commits = false := by
  intro x hx
  rw [Bool.eq_false_iff]
  intro hcommits
  cases hnone.symm.trans (h.committed x hx hcommits)

theorem attemptedPayloads_append (as bs : List (Option Attempt)) :
    attemptedPayloads (as ++ bs) = attemptedPayloads as ++ attemptedPayloads bs := List.filterMap_append

/-- The course of the token after one more submission. -/
theorem TokenKept.course_submitted (h : TokenKept P S token events t)
    (hfresh : token.m.finalizationStarted = false) {payload : Payload} {decision : String}
    {answer reply : V2StoreResult Bool} {u : σ}
    (hadmitted : Admitted P S.rateView t.1 payload decision)
    (hstore : S.finalizes t.2 payload t.1.m.allowValidUntil answer u)
    (hdelivered : Delivered answer reply)
    (hdiffer : DigestsDiffer P (payload :: attemptedPayloads events)) :
    Course P S.rateView token (exchanges events ++ [⟨t.1.submission payload, answer, reply⟩])
      (t.1.answered P S.rateView payload decision reply).m := by
  have hnothing : reply = .error .rateLimitExceeded → answer ≠ .ok true ∧
      ∀ x ∈ exchanges events, x.commits = false := by
    intro hreply
    obtain rfl := hdelivered.rollsBack hreply
    exact ⟨nofun, h.nothing (S.rollsBack hstore)⟩
  obtain ⟨token₁, s⟩ := t
  obtain ⟨m, rfl⟩ : ∃ m, token₁ = { token with m := m } := ⟨_, h.sameToken⟩
  -- A payload that is admitted after another one is that one.
  have hequal : ∀ {p : Payload} {horizon : Int} {ys : List Exchange}, Carries token p horizon ys →
      ys ≠ [] → ys ⊆ exchanges events →
      v2FinalizationPayloadDigest P p = v2FinalizationPayloadDigest P payload → p = payload := by
    intro p horizon ys hcarries hne hsub hdigest
    obtain ⟨x, hx⟩ := List.exists_mem_of_ne_nil ys hne
    have hmem := h.attempted x (hsub hx)
    rw [hcarries x hx] at hmem
    exact hdiffer.eq (List.mem_cons_of_mem _ hmem) List.mem_cons_self hdigest
  have hcourse := h.course
  dsimp only at hcourse
  generalize exchanges events = xs at hcourse hequal hnothing ⊢
  cases hcourse with
  | fresh => exact .submit_first (fun x hx => absurd hx List.not_mem_nil) hadmitted hnothing
  | started hne hcarries hadmitted₀ =>
    obtain ⟨hadmitted, hdigest⟩ := hadmitted.of_start hfresh
    obtain rfl := hequal hcarries hne (List.Subset.refl _) hdigest
    exact .submit_first hcarries hadmitted hnothing
  | rolledBack hback =>
    have hempty : Carries token payload 0 [] := fun x hx => absurd hx List.not_mem_nil
    have hrest := @Course.submit_rest P S.rateView token _ payload decision xs [] hback hempty
      hadmitted answer reply
    rw [List.append_nil] at hrest
    exact hrest
  | denied hback hne hcarries hadmitted₀ =>
    have hrolledBack : { token with m := TokenMut.rolledBack }.m.finalizationStarted = false := rfl
    obtain ⟨hadmitted, hdigest⟩ := hadmitted.of_start hrolledBack
    obtain rfl := hequal hcarries hne (List.subset_append_right _ _) hdigest
    exact .submit_rest hback hcarries hadmitted

/-- A step that submits nothing. -/
theorem TokenKept.quiet (h : TokenKept P S token events t) {label : Option Attempt}
    (hlabel : exchanges [label] = []) {u : σ}
    (houtcome : ∀ p, S.outcome t.2 = some p → S.outcome u = some p) :
    TokenKept P S token (events ++ [label]) (t.1, u) := by
  have hexchanges : exchanges (events ++ [label]) = exchanges events := by
    rw [exchanges_append, hlabel, List.append_nil]
  refine
    { sameToken := h.sameToken, course := ?_, attempted := ?_, committed := ?_, once := ?_ }
  · rw [hexchanges]
    exact h.course
  · rw [hexchanges, attemptedPayloads_append]
    exact fun x hx => List.mem_append_left _ (h.attempted x hx)
  · rw [hexchanges]
    exact fun x hx hcommits => houtcome _ (h.committed x hx hcommits)
  · rw [hexchanges]
    exact h.once

/-- A submission. -/
theorem TokenKept.submitted (h : TokenKept P S token events t)
    (hfresh : token.m.finalizationStarted = false) {payload : Payload} {decision : String}
    {answer reply : V2StoreResult Bool} {result : Except FinalizeFailure Bool} {u : σ}
    (hadmitted : Admitted P S.rateView t.1 payload decision)
    (hstore : S.finalizes t.2 payload t.1.m.allowValidUntil answer u)
    (hdelivered : Delivered answer reply)
    (hdiffer : DigestsDiffer P (payload :: attemptedPayloads events)) :
    TokenKept P S token
      (events ++ [some ⟨false, payload, some ⟨t.1.submission payload, answer, reply⟩, result⟩])
      (t.1.answered P S.rateView payload decision reply, u) := by
  have hexchanges : exchanges
      (events ++ [some ⟨false, payload, some ⟨t.1.submission payload, answer, reply⟩, result⟩])
      = exchanges events ++ [⟨t.1.submission payload, answer, reply⟩] := by
    rw [exchanges_append]
    rfl
  refine
    { sameToken := ?_, course := ?_, attempted := ?_, committed := ?_, once := ?_ }
  · rw [TokenState.answered, h.sameToken]
  · rw [hexchanges]
    exact h.course_submitted hfresh hadmitted hstore hdelivered hdiffer
  · rw [hexchanges, attemptedPayloads_append]
    intro x hx
    obtain hx | hx := List.mem_append.mp hx
    · exact List.mem_append_left _ (h.attempted x hx)
    · obtain rfl := List.mem_singleton.mp hx
      exact List.mem_append_right _ List.mem_cons_self
  · rw [hexchanges]
    intro x hx hcommits
    obtain hx | hx := List.mem_append.mp hx
    · -- What was committed before has stayed.
      have hbefore := h.committed x hx hcommits
      match answer, hstore with
      | .ok true, hstore => cases (S.commits hstore).1.symm.trans hbefore
      | .ok false, hstore => exact (S.repeats hstore).2.trans hbefore
      | .error e, hstore => exact (S.refuses hstore).2.trans hbefore
    · obtain rfl := List.mem_singleton.mp hx
      obtain rfl : answer = .ok true := Exchange.commits_iff.mp hcommits
      exact (S.commits hstore).2
  · rw [hexchanges, List.countP_append]
    by_cases hcommits : answer = .ok true
    · subst hcommits
      have hzero : (exchanges events).countP Exchange.commits = 0 := by
        rw [List.countP_eq_zero]
        intro x hx
        rw [h.nothing (S.commits hstore).1 x hx]
        exact Bool.false_ne_true
      rw [hzero]
      exact Nat.le_refl 1
    · have hlast : Exchange.commits ⟨t.1.submission payload, answer, reply⟩ = false :=
        Bool.eq_false_iff.mpr fun hc => hcommits (Exchange.commits_iff.mp hc)
      rw [List.countP_singleton, hlast]
      exact h.once

theorem TokenKept.step (h : TokenKept P S token events t) (hfresh : token.m.finalizationStarted = false)
    {label : Option Attempt} {u : TokenState × σ} (hstep : FinalizeStep P S t label u)
    (hdiffer : DigestsDiffer P (attemptedPayloads (events ++ [label]))) :
    TokenKept P S token (events ++ [label]) u := by
  obtain ⟨token₁, s⟩ := t
  cases hstep.effect with
  | other store => exact h.quiet rfl fun p hp => S.keeps store hp
  | refused check => exact h.quiet rfl fun p hp => hp
  | @submitted _ payload _ _ _ admitted store delivered =>
    apply h.submitted hfresh admitted store delivered
    rw [attemptedPayloads_append] at hdiffer
    intro p hp q hq
    have hmem : ∀ p ∈ payload :: attemptedPayloads events,
        p ∈ attemptedPayloads events ++ [payload] := by
      intro p hp
      rw [List.mem_append, List.mem_singleton]
      exact (List.mem_cons.mp hp).symm
    exact hdiffer p (hmem p hp) q (hmem q hq)

theorem DigestsDiffer.of_append {as bs : List (Option Attempt)}
    (h : DigestsDiffer P (attemptedPayloads (as ++ bs))) : DigestsDiffer P (attemptedPayloads as) := by
  rw [attemptedPayloads_append] at h
  exact fun p hp q hq => h p (List.mem_append_left _ hp) q (List.mem_append_left _ hq)

theorem kept_of_run (hfresh : token.m.finalizationStarted = false)
    (hrun : Run (FinalizeStep P S) (token, s₀) events t)
    (hdiffer : DigestsDiffer P (attemptedPayloads events)) : TokenKept P S token events t := by
  have key : DigestsDiffer P (attemptedPayloads events) → TokenKept P S token events t := by
    refine Run.history (fun events t => DigestsDiffer P (attemptedPayloads events) →
      TokenKept P S token events t) ?_ ?_ hrun
    · intro _
      exact
        { sameToken := rfl, course := .fresh, attempted := fun x hx => absurd hx List.not_mem_nil
          committed := fun x hx => absurd hx List.not_mem_nil, once := Nat.zero_le 1 }
    · intro is t i u _ hkept hstep hdiffer
      exact (hkept hdiffer.of_append).step hfresh hstep hdiffer
  exact key hdiffer

/-- A committed payload could be submitted again, with the same submission. -/
theorem TokenKept.admits_again (h : TokenKept P S token events t) {x : Exchange}
    (hx : x ∈ exchanges events) (hcommits : x.commits = true) :
    t.1.submission x.submission.payload = x.submission ∧
      ∃ decision, Admitted P S.rateView t.1 x.submission.payload decision := by
  obtain ⟨token₁, s⟩ := t
  obtain ⟨m, rfl⟩ : ∃ m, token₁ = { token with m := m } := ⟨_, h.sameToken⟩
  have hcourse := h.course
  dsimp only at hcourse ⊢
  generalize exchanges events = xs at hcourse hx
  cases hcourse with
  | fresh => cases hx
  | started _ hcarries hadmitted =>
    rw [hcarries x hx]
    exact ⟨rfl, _, hadmitted.start⟩
  | rolledBack hback => exact absurd (hback.nothing x hx ▸ hcommits) Bool.false_ne_true
  | denied hback _ hcarries hadmitted =>
    obtain hx | hx := List.mem_append.mp hx
    · exact absurd (hback.nothing x hx ▸ hcommits) Bool.false_ne_true
    · rw [hcarries x hx]
      exact ⟨rfl, _, hadmitted.start⟩

/-- A retry of what was committed is answered without another commit. -/
theorem TokenKept.retried (h : TokenKept P S token events t) {a : Attempt} {u : TokenState × σ}
    (hstep : FinalizeStep P S t (some a) u) {x : Exchange} (hx : x ∈ exchanges events)
    (hcommits : x.commits = true) (hpayload : a.payload = x.submission.payload)
    (hcancelled : a.cancelled = false) :
    ∃ reply, Delivered (.ok false) reply ∧ a.exchange = some ⟨x.submission, .ok false, reply⟩ ∧
      a.result = reply.mapError .store := by
  obtain ⟨hsubmission, decision, hadmitted⟩ := h.admits_again hx hcommits
  have houtcome := h.committed x hx hcommits
  obtain ⟨token₁, s⟩ := t
  cases hstep.effect with
  | @refused cancelled payload e check =>
    obtain rfl : cancelled = false := hcancelled
    obtain rfl : payload = x.submission.payload := hpayload
    cases check.symm.trans (checkFinalization_eq_ok_iff.mpr ⟨rfl, hadmitted⟩)
  | @submitted t payload _ answer reply _ store delivered =>
    obtain rfl : payload = x.submission.payload := hpayload
    match answer, store with
    | .ok true, store => cases (S.commits store).1.symm.trans houtcome
    | .error e, store => exact absurd houtcome (S.refuses store).1
    | .ok false, store =>
      refine ⟨reply, delivered, ?_, rfl⟩
      dsimp only at hsubmission ⊢
      rw [hsubmission]

/-- The decision that a matched body states. -/
theorem bodyOutcome_of_matches {terminal body : Bytes} {decision reason : String}
    (h : terminalPayloadMatchesV2 terminal body decision reason = true) :
    ∃ identity, bodyOutcome body = some (decision, reason, identity) := by
  unfold terminalPayloadMatchesV2 at h
  split at h
  · rename_i d r identity hbody
    simp only [Bool.and_eq_true, beq_iff_eq] at h
    obtain ⟨⟨rfl, rfl⟩, -⟩ := h
    exact ⟨identity, hbody⟩
  · cases h

/-- An allow carries the positive horizon of the evaluation. -/
theorem TokenKept.allow_horizon (h : TokenKept P S token events t) {x : Exchange}
    (hx : x ∈ exchanges events) {reason identity : String}
    (hallow : bodyOutcome x.submission.payload.receiptBody.1 = some ("allow", reason, identity)) :
    x.submission.allowValidUntil = token.m.allowValidUntil ∧ 0 < token.m.allowValidUntil := by
  have hfirst : ∀ {p : Payload} {decision : String} {ys : List Exchange},
      Carries token p token.m.allowValidUntil ys → Admitted P S.rateView token p decision →
      x ∈ ys → x.submission.allowValidUntil = token.m.allowValidUntil ∧
        0 < token.m.allowValidUntil := by
    intro p decision ys hcarries hadmitted hx
    obtain ⟨identity', hbody⟩ := bodyOutcome_of_matches hadmitted.matched
    rw [hcarries x hx] at hallow ⊢
    obtain ⟨rfl, -⟩ := Prod.mk.inj (Option.some.inj (hbody.symm.trans hallow))
    exact ⟨rfl, hadmitted.horizon⟩
  have hcourse := h.course
  generalize exchanges events = xs at hcourse hx
  generalize t.1.m = m at hcourse
  cases hcourse with
  | fresh => cases hx
  | started _ hcarries hadmitted => exact hfirst hcarries hadmitted hx
  | rolledBack hback => exact hfirst hback.carries hback.allow hx
  | denied hback _ hcarries hadmitted =>
    obtain hx | hx := List.mem_append.mp hx
    · exact hfirst hback.carries hback.allow hx
    · obtain ⟨identity', hbody⟩ := bodyOutcome_of_matches hadmitted.matched
      rw [hcarries x hx] at hallow
      obtain ⟨hdecision, -⟩ := Prod.mk.inj (Option.some.inj (hbody.symm.trans hallow))
      exact absurd hdecision (by decide)

end Runs

end RatifyProtocol.V2
