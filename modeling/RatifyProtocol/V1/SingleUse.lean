import RatifyProtocol.V1.Refusal
set_option autoImplicit false

/-!
# V1: single use of challenges

Verifications of bundles and turns run against one `MemoryChallengeStore`,
interleaved with each other and with issues and direct calls.  The invariant
counts: the successful consumptions of a challenge and its pending record
together are at most the times it was issued.
-/

namespace RatifyProtocol.V1

open Foundation

/-! ## The store -/

namespace MemoryChallengeStore

theorem key_injective : Function.Injective key := by
  intro a b h
  exact Base64.encodeChars_injective (String.ofList_injective h)

/-- A record is pending for the challenge. -/
def Pending (s : MemoryChallengeStore) (challenge : Bytes) : Prop :=
  s.records.get? (key challenge) ≠ none

instance (s : MemoryChallengeStore) (challenge : Bytes) : Decidable (s.Pending challenge) :=
  inferInstanceAs (Decidable (_ ≠ _))

theorem get?_expire (records : OrderedMap String Record) (now : Int64) (k : String) :
    (expire records now).get? k
      = (records.get? k).filter fun r => decide (r.expiresAt ≥ now) :=
  OrderedMap.get?_filter _ _ _

theorem get?_of_expire {records : OrderedMap String Record} {now : Int64} {k : String}
    (h : (expire records now).get? k ≠ none) : records.get? k ≠ none := by
  intro hnone
  rw [get?_expire, hnone] at h
  exact h rfl

theorem get?_expire_of_unexpired {records : OrderedMap String Record} {now : Int64} {k : String}
    {r : Record} (h : records.get? k = some r) (hunexpired : r.expiresAt ≥ now) :
    (expire records now).get? k = some r := by
  rw [get?_expire, h, Option.filter_some, if_pos (decide_eq_true hunexpired)]

theorem size_expire_le (records : OrderedMap String Record) (now : Int64) :
    (expire records now).size ≤ records.size :=
  OrderedMap.size_filter_le _ _

/-- A lookup prunes; it finds no key but that of the challenge. -/
theorem lookup_cases (records : OrderedMap String Record) (challenge sessionContext : Bytes)
    (now : Int64) :
    lookup records challenge sessionContext now = (expire records now, none) ∨
    (lookup records challenge sessionContext now = (expire records now, some (key challenge)) ∧
      (expire records now).get? (key challenge) ≠ none) := by
  unfold lookup
  dsimp only
  cases hget : (expire records now).get? (key challenge) with
  | none => exact .inl rfl
  | some r =>
    dsimp only
    split
    · exact .inr ⟨rfl, by simp⟩
    · exact .inl rfl

/-- A validation only prunes. -/
theorem validate_fst (s : MemoryChallengeStore) (challenge sessionContext : Bytes)
    (now : Int64) :
    (s.validate challenge sessionContext now).1 = ⟨expire s.records now, s.maxSize⟩ := by
  unfold validate
  obtain h | ⟨h, -⟩ := lookup_cases s.records challenge sessionContext now <;> rw [h]

/-- A consumption prunes, and removes the record of the challenge if it succeeds. -/
theorem consume_cases (s : MemoryChallengeStore) (challenge sessionContext : Bytes)
    (now : Int64) :
    s.consume challenge sessionContext now
        = (⟨expire s.records now, s.maxSize⟩, .error unknownChallengeText) ∨
    (s.consume challenge sessionContext now
        = (⟨(expire s.records now).erase (key challenge), s.maxSize⟩, .ok ()) ∧
      (expire s.records now).get? (key challenge) ≠ none) := by
  unfold consume
  obtain h | ⟨h, hpending⟩ := lookup_cases s.records challenge sessionContext now
  · rw [h]
    exact .inl rfl
  · rw [h]
    exact .inr ⟨rfl, hpending⟩

/-! ## What an operation leaves -/

/-- Operations add no record and keep every record of another challenge that has
not expired. -/
theorem pending_of_expire {s : MemoryChallengeStore} {now : Int64} {c : Bytes}
    (h : Pending ⟨expire s.records now, s.maxSize⟩ c) : s.Pending c :=
  get?_of_expire h

theorem not_pending_erase (records : OrderedMap String Record) (maxSize : Nat) (c : Bytes) :
    ¬ Pending ⟨records.erase (key c), maxSize⟩ c := by
  unfold Pending
  rw [OrderedMap.get?_erase, if_pos rfl]
  exact fun h => h rfl

theorem pending_of_erase {records : OrderedMap String Record} {maxSize : Nat} {k : String}
    {c : Bytes} (h : Pending ⟨records.erase k, maxSize⟩ c) : Pending ⟨records, maxSize⟩ c := by
  unfold Pending at h ⊢
  rw [OrderedMap.get?_erase] at h
  split at h
  · exact absurd rfl h
  · exact h

theorem size_erase_expire_le (records : OrderedMap String Record) (now : Int64) (k : String) :
    ((expire records now).erase k).size ≤ records.size :=
  (OrderedMap.size_filter_le _ _).trans (size_expire_le _ _)

/-- An issue prunes; if it succeeds there was room, and one record is added. -/
theorem issue_cases (s : MemoryChallengeStore) (sessionContext : Bytes) (ttlSeconds now : Int64)
    (challenge : Bytes) :
    (∃ e, s.issue sessionContext ttlSeconds now challenge = (s, .error e)) ∨
    (∃ e, s.issue sessionContext ttlSeconds now challenge
      = (⟨expire s.records now, s.maxSize⟩, .error e)) ∨
    ((expire s.records now).size < s.maxSize ∧
      ∃ r expiresAt, s.issue sessionContext ttlSeconds now challenge
        = (⟨(expire s.records now).insert (key challenge) r, s.maxSize⟩,
          .ok (challenge, expiresAt))) := by
  unfold issue
  split
  · exact .inl ⟨_, rfl⟩
  split
  · exact .inl ⟨_, rfl⟩
  dsimp only
  split
  · exact .inr (.inl ⟨_, rfl⟩)
  · rename_i hroom
    exact .inr (.inr ⟨Nat.lt_of_not_le hroom, _, _, rfl⟩)

end MemoryChallengeStore

/-! ## Verifications against one store -/

section Service

variable (P : Platform) (K : Primitives)

/-- A verification of a bundle or of a streamed turn. -/
inductive Presentation where
  | bundle (bundle : ProofBundle) (opts : VerifyOptions) (now : Int64)
  | turn (token : SessionToken) (sessionSecret : Bytes) (turn : StreamedTurn)
      (opts : StreamedVerifyOptions) (now : Int64)

namespace Presentation

/-- The verification consults the store. -/
def usesStore : Presentation → Bool
  | bundle _ opts _ => opts.challengeStore
  | turn _ _ _ opts _ => opts.challengeStore

def challenge : Presentation → Bytes
  | bundle b _ _ => b.challenge
  | turn _ _ t _ _ => t.challenge

def sessionContext : Presentation → Bytes
  | bundle _ opts _ => opts.sessionContext
  | turn _ _ _ opts _ => opts.sessionContext

def now : Presentation → Int64
  | bundle _ _ now => now
  | turn _ _ _ _ now => now

/-- The checks before the store is asked. -/
def before : Presentation → Except VerifyResult Unit
  | bundle b opts _ => checkStructure b opts
  | turn token secret t opts now => checkToken K token secret t opts now

/-- The checks before the consumption, the signature over the challenge last. -/
def between : Presentation → Except VerifyResult Unit
  | bundle b opts now => checkPresentation P K b opts now
  | turn token _ t opts now => checkTurn K token t opts now

/-- The verdict once the challenge is consumed. -/
def verdict : Presentation → VerifyResult
  | bundle b opts now => settleBundle P K b opts now
  | turn token _ _ opts _ => settleTurn token opts

def program : Presentation → Interaction StoreCall Bool VerifyResult
  | bundle b opts now => verifyBundleInner P K b opts now
  | turn token secret t opts now => verifyStreamedTurnWithOptions K token secret t opts now

theorem program_eq (v : Presentation) :
    v.program P K = presentation v.usesStore v.challenge v.sessionContext v.now (v.before K)
      (v.between P K) (v.verdict P K) := by
  cases v <;> rfl

end Presentation

/-- Verifications that share a store. -/
def challengeService : Service IssuingStore Presentation StoreCall Bool StoreEvent VerifyResult :=
  { program := Presentation.program P K
    perform := fun s call => (⟨(s.store.perform call).1, s.issued⟩, (s.store.perform call).2)
    outside := IssuingStore.handle }

/-- An empty store. -/
def IssuingStore.new (maxSize : Nat) : IssuingStore := ⟨.new maxSize, []⟩

end Service

abbrev Verifications : Type := Pool IssuingStore Presentation StoreCall Bool VerifyResult

/-- The call is a consumption of the challenge, and it succeeded. -/
def consumes (challenge : Bytes) (call : Call StoreCall Bool) : Bool :=
  match call.request with
  | .consume c _ _ => call.answer && decide (c = challenge)
  | .validate _ _ _ => false

/-- The successful consumptions of a challenge so far. -/
def Verifications.consumed (s : Verifications) (challenge : Bytes) : Nat :=
  s.history.countP (consumes challenge)

/-! ## The invariant -/

/-- Capacity, and the count of every challenge. -/
structure Accounted (maxSize : Nat) (s : Verifications) : Prop where
  maxSize_eq : s.shared.store.maxSize = maxSize
  size_le : s.shared.store.records.size ≤ maxSize
  count_le : ∀ c, s.consumed c + (if s.shared.store.Pending c then 1 else 0)
    ≤ s.shared.issued.count c

namespace Accounted

open MemoryChallengeStore

variable {P : Platform} {K : Primitives} {maxSize : Nat} {s t : Verifications}

theorem init : Accounted maxSize (Pool.init (IssuingStore.new maxSize)) := by
  refine ⟨rfl, Nat.zero_le _, fun c => ?_⟩
  have hempty : ¬ (Pool.init (IssuingStore.new maxSize) : Verifications).shared.store.Pending c :=
    fun h => h rfl
  rw [if_neg hempty]
  exact Nat.zero_le _

/-- A store with at most the records of the old one, and no new consumption. -/
theorem of_fewer (h : Accounted maxSize s) (store : MemoryChallengeStore)
    (hmax : store.maxSize = s.shared.store.maxSize)
    (hsize : store.records.size ≤ s.shared.store.records.size)
    (hpending : ∀ c, store.Pending c → s.shared.store.Pending c) (hstore : t.shared.store = store)
    (hissued : t.shared.issued = s.shared.issued) (hconsumed : ∀ c, t.consumed c = s.consumed c) :
    Accounted maxSize t := by
  subst hstore
  refine ⟨hmax.trans h.maxSize_eq, hsize.trans h.size_le, fun c => ?_⟩
  have hc := h.count_le c
  rw [hconsumed, hissued]
  by_cases hnow : t.shared.store.Pending c
  · rw [if_pos (hpending c hnow)] at hc
    rwa [if_pos hnow]
  · rw [if_neg hnow]
    omega

/-- What happens to the store from outside keeps the account. -/
theorem handle (h : Accounted maxSize s) (e : StoreEvent) :
    Accounted maxSize { s with shared := s.shared.handle e } := by
  cases e with
  | issue sessionContext ttl clock challenge =>
    obtain ⟨e, hissue⟩ | ⟨e, hissue⟩ | ⟨hroom, r, at_, hissue⟩ :=
      issue_cases s.shared.store sessionContext ttl clock challenge
    · exact h.of_fewer _ rfl le_rfl (fun _ hc => hc) (by simp [IssuingStore.handle, hissue])
        (by simp [IssuingStore.handle, hissue]) fun _ => rfl
    · exact h.of_fewer ⟨expire s.shared.store.records clock, s.shared.store.maxSize⟩
        rfl (size_expire_le _ _) (fun _ hc => pending_of_expire hc)
        (by simp [IssuingStore.handle, hissue]) (by simp [IssuingStore.handle, hissue]) fun _ => rfl
    · -- One more issue of this challenge pays for its record.
      have hmax := h.maxSize_eq
      simp only [IssuingStore.handle, hissue]
      refine ⟨hmax, ?_, fun c => ?_⟩
      · have hsize := OrderedMap.size_insert_le (expire s.shared.store.records clock)
          (key challenge) r
        exact hsize.trans (by omega)
      · have hc := h.count_le c
        simp only [Verifications.consumed, List.count_append, List.count_singleton] at hc ⊢
        by_cases hsame : c = challenge
        · subst hsame
          simp only [BEq.rfl, if_true]
          split <;> omega
        · have hkey : key c ≠ key challenge := fun hk => hsame (key_injective hk)
          have hpending : MemoryChallengeStore.Pending
              ⟨(expire s.shared.store.records clock).insert (key challenge) r,
                s.shared.store.maxSize⟩ c → s.shared.store.Pending c := by
            intro hp
            unfold MemoryChallengeStore.Pending at hp
            rw [OrderedMap.get?_insert_of_ne _ _ hkey] at hp
            exact get?_of_expire hp
          split
          · rename_i hp
            rw [if_pos (hpending hp)] at hc
            omega
          · omega
  | validate challenge sessionContext now =>
    exact h.of_fewer ⟨expire s.shared.store.records now, s.shared.store.maxSize⟩ rfl
      (size_expire_le _ _) (fun _ hc => pending_of_expire hc) (validate_fst _ _ _ _) rfl fun _ => rfl
  | consume challenge sessionContext now =>
    obtain hconsume | ⟨hconsume, -⟩ := consume_cases s.shared.store challenge sessionContext now
    · exact h.of_fewer ⟨expire s.shared.store.records now, s.shared.store.maxSize⟩ rfl
        (size_expire_le _ _) (fun _ hc => pending_of_expire hc)
        (by simp [IssuingStore.handle, hconsume]) rfl fun _ => rfl
    · exact h.of_fewer ⟨(expire s.shared.store.records now).erase (key challenge),
          s.shared.store.maxSize⟩ rfl (size_erase_expire_le _ _ _)
        (fun _ hc => pending_of_expire (pending_of_erase hc))
        (by simp [IssuingStore.handle, hconsume]) rfl fun _ => rfl

theorem consumed_append (s : Verifications) (call : Call StoreCall Bool) (shared : IssuingStore)
    (clients : List (Presentation × Interaction StoreCall Bool VerifyResult)) (c : Bytes) :
    Verifications.consumed ⟨shared, clients, s.history ++ [call]⟩ c
      = s.consumed c + (if consumes c call then 1 else 0) := by
  simp [Verifications.consumed, List.countP_append, List.countP_singleton]

/-- A call that does not consume keeps the account; one that does trades the
record for the consumption. -/
theorem advance (h : Accounted maxSize s) (n : Nat) (call : StoreCall)
    (clients : List (Presentation × Interaction StoreCall Bool VerifyResult)) :
    Accounted maxSize
      ⟨((challengeService P K).perform s.shared call).1, clients,
        s.history ++ [⟨n, call, ((challengeService P K).perform s.shared call).2⟩]⟩ := by
  cases call with
  | validate challenge sessionContext now =>
    exact h.of_fewer ⟨expire s.shared.store.records now, s.shared.store.maxSize⟩ rfl
      (size_expire_le _ _) (fun _ hc => pending_of_expire hc) (validate_fst _ _ _ _) rfl
      fun c => (consumed_append s _ _ _ c).trans (by simp [consumes])
  | consume challenge sessionContext now =>
    obtain hconsume | ⟨hconsume, hpending⟩ :=
      consume_cases s.shared.store challenge sessionContext now
    · exact h.of_fewer ⟨expire s.shared.store.records now, s.shared.store.maxSize⟩ rfl
        (size_expire_le _ _) (fun _ hc => pending_of_expire hc)
        (by simp [challengeService, perform, hconsume]) rfl
        fun c => (consumed_append s _ _ _ c).trans
          (by simp [consumes, challengeService, perform, hconsume, succeeded])
    · refine ⟨?_, ?_, fun c => ?_⟩
      · simpa [challengeService, perform, hconsume] using h.maxSize_eq
      · have hsize := size_erase_expire_le s.shared.store.records now (key challenge)
        simpa [challengeService, perform, hconsume] using hsize.trans h.size_le
      · have hc := h.count_le c
        rw [consumed_append]
        simp only [challengeService, perform, hconsume, consumes, succeeded, Bool.true_and,
          decide_eq_true_eq]
        by_cases hsame : challenge = c
        · subst hsame
          have hold : s.shared.store.Pending challenge := get?_of_expire hpending
          rw [if_pos hold] at hc
          rw [if_pos rfl, if_neg (not_pending_erase _ _ _)]
          omega
        · rw [if_neg hsame]
          split
          · rename_i hp
            have hold : s.shared.store.Pending c := get?_of_expire (pending_of_erase hp)
            rw [if_pos hold] at hc
            omega
          · omega

/-- Every reachable state is accounted for. -/
theorem of_run {labels : List (Action Presentation StoreEvent)}
    (hrun : Run (Pool.Step (challengeService P K)) (Pool.init (IssuingStore.new maxSize)) labels s) :
    Accounted maxSize s := by
  apply Run.invariant (Accounted maxSize) init _ hrun
  intro s a s' hs hstep
  cases hstep with
  | start c => exact ⟨hs.maxSize_eq, hs.size_le, hs.count_le⟩
  | @advance n c call next hat => exact hs.advance n call _
  | outside e => exact hs.handle e

end Accounted

/-! ## One verification -/

/-- The consumption that a verification makes, answered with success. -/
def Presentation.consumption (v : Presentation) : StoreCall × Bool :=
  (.consume v.challenge v.sessionContext v.now, true)

section Presentations

variable {P : Platform} {K : Primitives}

/-- The verdict is not one of those that stand for an unknown challenge. -/
def Settled (r : VerifyResult) : Prop :=
  r.identityStatus ≠ .invalid ∨ r.errorReason.toList.head? = some 'p'

theorem Settled.ne_unknownChallenge {r : VerifyResult} (h : Settled r) : r ≠ unknownChallenge := by
  rintro rfl
  obtain h | h := h
  · exact h rfl
  · revert h
    decide

theorem settled_of_checkConstraints {cert : DelegationCert} {i : Nat} {opts : VerifyOptions}
    {now : Int64} {r : VerifyResult} (h : checkConstraints P cert i opts now = .error r) :
    Settled r := by
  unfold checkConstraints evaluateCertConstraints at h
  cases hc : evaluateConstraints P cert opts.context now opts.constraintEvaluators with
  | ok _ =>
    rw [hc] at h
    cases h
  | error e =>
    rw [hc] at h
    obtain rfl := Except.error.inj h
    unfold constraintStatus
    split
    · exact .inl (by simp [failWithStatus, IdentityStatus.fromWire])
    split
    · exact .inl (by simp [failWithStatus, IdentityStatus.fromWire])
    · exact .inl (by simp [failWithStatus, IdentityStatus.fromWire])

theorem settled_of_checkPolicy {bundle : ProofBundle} {opts : VerifyOptions} {r : VerifyResult}
    (h : checkPolicy bundle opts = .error r) : Settled r := by
  unfold checkPolicy at h
  split at h
  · cases h
  split at h
  · obtain rfl := Except.error.inj h
    exact .inr (by simp [invalid, toString])
  · obtain rfl := Except.error.inj h
    exact .inl (by simp [failWithStatus, IdentityStatus.fromWire])
  · cases h

theorem settled_of_checkPolicyGate {bundle : ProofBundle} {opts : VerifyOptions} {now : Int64}
    {r : VerifyResult} (h : checkPolicyGate P K bundle opts now = .error r) : Settled r := by
  unfold checkPolicyGate at h
  split at h
  · split at h
    · split at h
      · cases h
      · split at h
        · obtain rfl := Except.error.inj h
          exact .inl (by simp [failWithStatus, IdentityStatus.fromWire])
        · exact settled_of_checkPolicy h
    · exact settled_of_checkPolicy h
  · exact settled_of_checkPolicy h

theorem settled_of_authorizeBundle {bundle : ProofBundle} {opts : VerifyOptions} {now : Int64}
    {r : VerifyResult} (h : authorizeBundle P K bundle opts now = .error r) : Settled r := by
  unfold authorizeBundle at h
  dsimp only at h
  split at h
  · obtain rfl := Except.error.inj h
    exact .inl (by simp [failWithStatus, IdentityStatus.fromWire])
  · obtain hgate | ⟨u, -, hok⟩ := bind_eq_error_iff.mp h
    · exact settled_of_checkPolicyGate hgate
    · cases hok

theorem settled_of_authorizeBundle_ok {bundle : ProofBundle} {opts : VerifyOptions} {now : Int64}
    {r : VerifyResult} (h : authorizeBundle P K bundle opts now = .ok r) : Settled r := by
  unfold authorizeBundle at h
  dsimp only at h
  split at h
  · cases h
  · obtain ⟨u, -, hok⟩ := bind_eq_ok_iff.mp h
    obtain rfl := Except.ok.inj hok
    exact .inl (by simp)

theorem settled_settleBundle (bundle : ProofBundle) (opts : VerifyOptions) (now : Int64) :
    Settled (settleBundle P K bundle opts now) := by
  have hauthorize : Settled (settle (authorizeBundle P K bundle opts now)) := by
    cases h : authorizeBundle P K bundle opts now with
    | ok r => exact settled_of_authorizeBundle_ok h
    | error r => exact settled_of_authorizeBundle h
  unfold settleBundle
  split
  · cases hdeferred : checkDeferredConstraints P bundle opts now with
    | ok _ => exact hauthorize
    | error r =>
      obtain ⟨c, -, hc⟩ := exists_of_forM_eq_error hdeferred
      exact settled_of_checkConstraints hc
  · exact hauthorize

theorem settled_settleTurn (token : SessionToken) (opts : StreamedVerifyOptions) :
    Settled (settleTurn token opts) := by
  unfold settleTurn
  split
  · exact .inl (by simp [failWithStatus, IdentityStatus.fromWire])
  · exact .inl (by simp)

theorem Presentation.settled_verdict (v : Presentation) : Settled (v.verdict P K) := by
  cases v with
  | bundle b opts now => exact settled_settleBundle b opts now
  | turn token secret t opts now => exact settled_settleTurn token opts

/-! ## The course of a verification -/

theorem Presentation.refuses_before (v : Presentation) : Refuses (v.before K) := by
  cases v with
  | bundle b opts now => exact refuses_checkStructure b opts
  | turn token secret t opts now => exact refuses_checkToken token secret t opts now

theorem Presentation.refuses_between (v : Presentation) : Refuses (v.between P K) := by
  cases v with
  | bundle b opts now => exact refuses_checkPresentation b opts now
  | turn token secret t opts now => exact refuses_checkTurn token t opts now

variable {v : Presentation} {log : List (StoreCall × Bool)}

/-- How a verification with a store ends: with the verdict and its consumption
behind it, or before that. -/
theorem Presentation.leads_ret {r : VerifyResult} (hstore : v.usesStore = true)
    (h : (v.program P K).Leads log (.ret r)) :
    (v.consumption ∈ log ∧ v.before K = .ok () ∧ v.between P K = .ok () ∧ r = v.verdict P K) ∨
    (v.consumption ∉ log ∧
      (v.before K = .error r ∨ v.between P K = .error r ∨ r = unknownChallenge)) := by
  rw [program_eq, hstore] at h
  unfold presentation at h
  cases hbefore : v.before K with
  | error e =>
    rw [hbefore] at h
    obtain ⟨rfl, hr⟩ := Interaction.Leads.ret_iff.mp h
    cases hr
    exact .inr ⟨by simp, .inl rfl⟩
  | ok u =>
    rw [hbefore] at h
    simp only [if_true] at h
    obtain ⟨-, hr⟩ | ⟨found, rest, rfl, hfound⟩ := Interaction.Leads.call_iff.mp h
    · cases hr
    cases found with
    | false =>
      obtain ⟨rfl, hr⟩ := Interaction.Leads.ret_iff.mp hfound
      cases hr
      exact .inr ⟨by simp [consumption], .inr (.inr rfl)⟩
    | true =>
      simp only [Bool.not_true, Bool.false_eq_true, if_false] at hfound
      cases hbetween : v.between P K with
      | error e =>
        rw [hbetween] at hfound
        obtain ⟨rfl, hr⟩ := Interaction.Leads.ret_iff.mp hfound
        cases hr
        exact .inr ⟨by simp [consumption], .inr (.inl rfl)⟩
      | ok u =>
        rw [hbetween] at hfound
        obtain ⟨-, hr⟩ | ⟨consumed, rest, rfl, hconsumed⟩ := Interaction.Leads.call_iff.mp hfound
        · cases hr
        cases consumed with
        | false =>
          obtain ⟨rfl, hr⟩ := Interaction.Leads.ret_iff.mp hconsumed
          cases hr
          exact .inr ⟨by simp [consumption], .inr (.inr rfl)⟩
        | true =>
          obtain ⟨rfl, hr⟩ := Interaction.Leads.ret_iff.mp hconsumed
          cases hr
          exact .inl ⟨by simp [consumption], rfl, rfl, rfl⟩

/-- The calls a verification makes are about its own challenge at its own time. -/
theorem Presentation.leads_call {call : StoreCall}
    {next : Bool → Interaction StoreCall Bool VerifyResult}
    (h : (v.program P K).Leads log (.call call next)) :
    call = .validate v.challenge v.sessionContext v.now ∨
      call = .consume v.challenge v.sessionContext v.now := by
  rw [program_eq] at h
  unfold presentation at h
  split at h
  · cases (Interaction.Leads.ret_iff.mp h).2
  split at h
  · obtain ⟨-, hr⟩ | ⟨found, rest, rfl, hfound⟩ := Interaction.Leads.call_iff.mp h
    · exact .inl (Interaction.call.inj hr).1
    · split at hfound
      · cases (Interaction.Leads.ret_iff.mp hfound).2
      split at hfound
      · cases (Interaction.Leads.ret_iff.mp hfound).2
      obtain ⟨-, hr⟩ | ⟨consumed, rest, rfl, hconsumed⟩ := Interaction.Leads.call_iff.mp hfound
      · exact .inr (Interaction.call.inj hr).1
      · split at hconsumed
        · cases (Interaction.Leads.ret_iff.mp hconsumed).2
        · cases (Interaction.Leads.ret_iff.mp hconsumed).2
  · split at h
    · cases (Interaction.Leads.ret_iff.mp h).2
    · cases (Interaction.Leads.ret_iff.mp h).2

end Presentations

/-! ## All verifications -/

section Runs

open MemoryChallengeStore

variable {P : Platform} {K : Primitives} {maxSize : Nat} {s t u : Verifications}
  {labels : List (Action Presentation StoreEvent)}

/-- A challenge that was issued once is consumed by one client at most. -/
theorem client_unique (h : Accounted maxSize s) (hdistinct : s.shared.issued.Nodup) {c : Bytes}
    {a b : Call StoreCall Bool} (ha : a ∈ s.history) (hb : b ∈ s.history)
    (hca : consumes c a = true) (hcb : consumes c b = true) : a.client = b.client := by
  have hone : (s.history.filter (consumes c)).length ≤ 1 := by
    rw [← List.countP_eq_length_filter]
    have hcount := h.count_le c
    have hissued := List.nodup_iff_count_le_one.mp hdistinct c
    exact (Nat.le_of_add_right_le hcount).trans hissued
  have hfa : a ∈ s.history.filter (consumes c) := List.mem_filter.mpr ⟨ha, hca⟩
  have hfb : b ∈ s.history.filter (consumes c) := List.mem_filter.mpr ⟨hb, hcb⟩
  match hlist : s.history.filter (consumes c) with
  | [] =>
    rw [hlist] at hfa
    cases hfa
  | [x] =>
    rw [hlist] at hfa hfb
    rw [List.mem_singleton.mp hfa, List.mem_singleton.mp hfb]
  | x :: y :: rest =>
    rw [hlist] at hone
    simp at hone

/-- A consumed challenge has no record, and it was issued. -/
theorem not_pending_of_consumes (h : Accounted maxSize s) (hdistinct : s.shared.issued.Nodup)
    {c : Bytes} {a : Call StoreCall Bool} (ha : a ∈ s.history) (hca : consumes c a = true) :
    ¬ s.shared.store.Pending c ∧ c ∈ s.shared.issued := by
  have hpos : 0 < s.consumed c := List.countP_pos_iff.mpr ⟨a, ha, hca⟩
  have hcount := h.count_le c
  have hissued := List.nodup_iff_count_le_one.mp hdistinct c
  refine ⟨fun hpending => ?_, List.count_pos_iff.mp (by omega)⟩
  rw [if_pos hpending] at hcount
  omega

theorem consumes_of_mem_log {n : Nat} {v : Presentation} (h : v.consumption ∈ s.log n) :
    ∃ a ∈ s.history, a.client = n ∧ consumes v.challenge a = true :=
  ⟨_, Pool.mem_log_iff.mp h, rfl, by simp [consumes]⟩

/-- A call at `now` that is not a successful consumption keeps what is unexpired then. -/
theorem get?_perform {store : MemoryChallengeStore} {v : Presentation} {call : StoreCall}
    (hcall : call = .validate v.challenge v.sessionContext v.now ∨
      call = .consume v.challenge v.sessionContext v.now)
    (hno : (call, (store.perform call).2) ≠ v.consumption) {k : String} {r : Record}
    (hget : store.records.get? k = some r) (hunexpired : r.expiresAt ≥ v.now) :
    (store.perform call).1.records.get? k = some r := by
  have hkept := get?_expire_of_unexpired hget hunexpired
  obtain rfl | rfl := hcall
  · have hfst := validate_fst store v.challenge v.sessionContext v.now
    simpa only [perform, hfst] using hkept
  · obtain hconsume | ⟨hconsume, -⟩ :=
      consume_cases store v.challenge v.sessionContext v.now
    · simpa only [perform, hconsume] using hkept
    · exact absurd (by simp [perform, hconsume, succeeded, Presentation.consumption]) hno

/-- A verification that runs alone and passes its checks, when both calls succeed. -/
theorem run_alone {P : Platform} {K : Primitives} {v : Presentation} {s : IssuingStore}
    {store₁ store₂ : MemoryChallengeStore} (hstore : v.usesStore = true)
    (hbefore : v.before K = .ok ()) (hbetween : v.between P K = .ok ())
    (hvalidate : s.store.perform (.validate v.challenge v.sessionContext v.now) = (store₁, true))
    (hconsume : store₁.perform (.consume v.challenge v.sessionContext v.now) = (store₂, true)) :
    ∃ t : Verifications, t.At 0 v (.ret (v.verdict P K)) ∧ t.shared = ⟨store₂, s.issued⟩ ∧
      Run (Pool.Step (challengeService P K)) (Pool.init s) [.start v, .advance 0, .advance 0] t := by
  have hprogram : v.program P K
      = .call (.validate v.challenge v.sessionContext v.now) fun found =>
        if !found then .ret unknownChallenge
        else .call (.consume v.challenge v.sessionContext v.now) fun consumed =>
          if !consumed then .ret unknownChallenge else .ret (v.verdict P K) := by
    rw [Presentation.program_eq]
    unfold presentation
    rw [hbefore, hbetween, hstore]
    rfl
  have hstart := Run.single (Pool.Step.start (S := challengeService P K) (Pool.init s) v)
  have hfirst := hstart.snoc (.advance_to (n := 0) (congrArg some (Prod.ext rfl hprogram))
    (show _ = (IssuingStore.mk store₁ s.issued, true) by
      simp [challengeService, Pool.init, hvalidate]) rfl)
  have hsecond := hfirst.snoc (.advance_to (n := 0) rfl
    (show _ = (IssuingStore.mk store₂ s.issued, true) by simp [challengeService, hconsume]) rfl)
  refine ⟨_, ?_, ?_, hsecond⟩
  · rfl
  · rfl

/-- Primitives that accept what has the right lengths. -/
def lenient : Primitives :=
  { sha256 := fun _ => List.replicate 32 0, hmacSha256 := fun _ _ => List.replicate 32 0
    edKeyParses := fun _ => true, edSignatureParses := fun _ => true
    edVerify := fun _ _ _ => true, mlKeyParses := fun _ => true
    mlVerify := fun _ _ _ _ => true }

def lenientKey : V2.HybridPublicKey := ⟨List.replicate 32 0, List.replicate 1952 0⟩

def lenientSignature : V2.HybridSignature := ⟨List.replicate 64 0, List.replicate 3309 0⟩

/-- A turn that answers the challenge `[7]` at 1000. -/
def lenientTurn : Presentation :=
  .turn ⟨1, "s", "agent", lenientKey, "human", ["meeting:attend"], 900, 2000,
      List.replicate 32 0, List.replicate 32 0⟩ [1]
    ⟨[7], 990, lenientSignature, [], [], 0⟩ ⟨"meeting:attend", true, [], none⟩ 1000

theorem verifyBoth_lenient (msg : Bytes) :
    verifyBoth lenient msg lenientSignature lenientKey = .ok () := by
  simp [-List.reduceReplicate, verifyBoth, lenient, lenientKey, lenientSignature, V2.mlDsaPkLen,
    V2.mlDsaSigLen]

theorem before_lenientTurn : lenientTurn.before lenient = .ok () := by
  simp [lenientTurn, Presentation.before, checkToken, verifySessionToken, lenient,
    checkSessionContext]

theorem between_lenientTurn : lenientTurn.between plainPlatform lenient = .ok () := by
  have hfresh : (10 : Int64) ≤ challengeWindowSeconds := by decide
  simp [lenientTurn, Presentation.between, checkTurn, checkStream, checkLiveness,
    verifyChallengeSignatureWithStream, StreamedTurn.tuple, verifyBoth_lenient, hfresh]

/-- Single use.  Whatever verifications, issues and direct calls run interleaved
against one store, at whatever clock readings, if the challenges issued are
distinct: no two verifications with a store accept one challenge, and what is
accepted was issued; a verification that fails before its consumption leaves, at
each of its calls, every record that is unexpired at its time; a presentation
that passes every check including the signature is answered with the verdict on
its constraints, scope and policy, or as unknown, and with the former its
challenge is spent whatever the verdict; and the pending records fit. -/
theorem memoryChallengeStore_singleUse
    (hrun : Run (Pool.Step (challengeService P K)) (Pool.init (IssuingStore.new maxSize)) labels s)
    (hdistinct : s.shared.issued.Nodup) :
    (∀ m n v w r r', s.At m v (.ret r) → s.At n w (.ret r') → v.usesStore = true →
      w.usesStore = true → r.valid = true → r'.valid = true → v.challenge = w.challenge → m = n) ∧
    (∀ n v r, s.At n v (.ret r) → v.usesStore = true → r.valid = true →
      v.challenge ∈ s.shared.issued) ∧
    (∀ is js t u n v r, labels = is ++ .advance n :: js →
      Run (Pool.Step (challengeService P K)) (Pool.init (IssuingStore.new maxSize)) is t →
      Pool.Step (challengeService P K) t (.advance n) u →
      Run (Pool.Step (challengeService P K)) u js s → s.At n v (.ret r) → v.usesStore = true →
      (v.before K = .error r ∨ v.between P K = .error r ∨ r = unknownChallenge) →
      ∀ k record, t.shared.store.records.get? k = some record → record.expiresAt ≥ v.now →
        u.shared.store.records.get? k = some record) ∧
    (∀ n v r, s.At n v (.ret r) → v.usesStore = true → v.before K = .ok () →
      v.between P K = .ok () → r ≠ unknownChallenge →
      r = v.verdict P K ∧ s.shared.store.records.get? (key v.challenge) = none ∧
      ∀ m w r', m ≠ n → s.At m w (.ret r') → w.usesStore = true → w.challenge = v.challenge →
        r'.valid = false) ∧
    s.shared.store.records.size ≤ maxSize := by
  have haccount := Accounted.of_run hrun
  -- A verification that accepts has consumed its challenge.
  have haccepted : ∀ n v r, s.At n v (.ret r) → v.usesStore = true → r.valid = true →
      v.consumption ∈ s.log n := by
    intro n v r hat hstore hvalid
    obtain ⟨hmem, -⟩ | ⟨-, hfails⟩ := v.leads_ret hstore (Pool.leads hrun hat)
    · exact hmem
    · exfalso
      obtain hbefore | hbetween | rfl := hfails
      · exact Bool.false_ne_true ((v.refuses_before r hbefore).symm.trans hvalid)
      · exact Bool.false_ne_true ((v.refuses_between r hbetween).symm.trans hvalid)
      · cases hvalid
  refine ⟨?_, ?_, ?_, ?_, haccount.size_le⟩
  · intro m n v w r r' hv hw hvs hws hr hr' hsame
    obtain ⟨a, ha, rfl, hca⟩ := consumes_of_mem_log (haccepted m v r hv hvs hr)
    obtain ⟨b, hb, rfl, hcb⟩ := consumes_of_mem_log (haccepted n w r' hw hws hr')
    rw [← hsame] at hcb
    exact client_unique haccount hdistinct ha hb hca hcb
  · intro n v r hv hvs hr
    obtain ⟨a, ha, -, hca⟩ := consumes_of_mem_log (haccepted n v r hv hvs hr)
    exact (not_pending_of_consumes haccount hdistinct ha hca).2
  · intro is js t u n v r _ hbefore hstep hafter hat hstore hfails k record hget hunexpired
    cases hstep with
    | @advance _ v' call next hpending =>
      have hlater : Run (Pool.Step (challengeService P K)) t (.advance n :: js) s :=
        (Run.single (.advance hpending)).append hafter
      obtain ⟨q, hq⟩ := Pool.client_stays hlater hpending
      obtain ⟨rfl, -⟩ := Prod.mk.inj (Option.some.inj (hq.symm.trans hat))
      have hnone : v'.consumption ∉ s.log n := by
        obtain ⟨-, hok, hok', rfl⟩ | ⟨hnone, -⟩ := v'.leads_ret hstore (Pool.leads hrun hat)
        · obtain h | h | h := hfails
          · rw [hok] at h
            cases h
          · rw [hok'] at h
            cases h
          · exact absurd h v'.settled_verdict.ne_unknownChallenge
        · exact hnone
      apply get?_perform (Presentation.leads_call (Pool.leads hbefore hpending)) _ hget hunexpired
      intro hconsumption
      have hmem := (Pool.history_prefix hafter).subset
        (List.mem_append_right t.history (List.mem_singleton.mpr rfl))
      apply hnone
      rw [← hconsumption]
      exact Pool.mem_log_iff.mpr hmem
  · intro n v r hat hstore hok hok' hr
    obtain ⟨hmem, -, -, hverdict⟩ | ⟨-, hfails⟩ := v.leads_ret hstore (Pool.leads hrun hat)
    · obtain ⟨a, ha, rfl, hca⟩ := consumes_of_mem_log hmem
      refine ⟨hverdict, not_not.mp (not_pending_of_consumes haccount hdistinct ha hca).1, ?_⟩
      intro m w r' hmn hw hws hsame
      by_contra hvalid
      obtain ⟨b, hb, rfl, hcb⟩ := consumes_of_mem_log
        (haccepted m w r' hw hws (Bool.eq_true_of_not_eq_false hvalid))
      rw [hsame] at hcb
      exact hmn (client_unique haccount hdistinct hb ha hcb hca)
    · exfalso
      obtain h | h | h := hfails
      · rw [hok] at h
        cases h
      · rw [hok'] at h
        cases h
      · exact hr h

/-- One challenge, issued and accepted. -/
theorem memoryChallengeStore_singleUse_turn :
    ∃ s : Verifications, ∃ r, s.At 0 lenientTurn (.ret r) ∧ r.valid = true ∧
      lenientTurn.challenge ∈ s.shared.issued ∧ s.shared.store.records.size ≤ 1 := by
  have hissue := Run.single (Pool.Step.outside (S := challengeService plainPlatform lenient)
    (Pool.init (IssuingStore.new 1)) (.issue [] 60 980 [7]))
  obtain ⟨s, hat, hshared, hrun⟩ := run_alone
    (s := (IssuingStore.new 1).handle (.issue [] 60 980 [7])) rfl before_lenientTurn
    between_lenientTurn (Prod.ext rfl (by decide)) (Prod.ext rfl (by decide))
  have hvalid : (lenientTurn.verdict plainPlatform lenient).valid = true := by decide
  have hdistinct : s.shared.issued.Nodup := by
    rw [hshared]
    decide
  obtain ⟨-, hmem, -, -, hsize⟩ := memoryChallengeStore_singleUse (hissue.append hrun) hdistinct
  exact ⟨s, _, hat, hvalid, hmem 0 lenientTurn _ hat rfl hvalid, hsize⟩

end Runs

end RatifyProtocol.V1
