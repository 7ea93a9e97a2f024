import RatifyProtocol.V2.Reference.LogIntegrity
import Mathlib.Data.List.Induction
set_option autoImplicit false

/-!
# Reference store: signed rate limits over whole runs

With rate admission at finalization, the allows of one counter that are
committed inside a window never outnumber the limit their batches carry.
-/

namespace RatifyProtocol.V2

open Foundation

variable {ω : Type} {P : Primitives} {anchor : StoreAnchor ω}

/-! ## Counting allows -/

/-- The terminal receipt body of a record says allow. -/
def ClaimRecord.isAllow (r : ClaimRecord) : Bool :=
  match decodeVerificationReceiptBodyV2 r.receiptBody with
  | .ok body => body.decision == "allow"
  | .error _ => false

/-- The sealed batch of a record draws on the counter `k`. -/
def ClaimRecord.draws (k : RateKey) (r : ClaimRecord) : Bool :=
  r.claim.rateBatch.any fun item => decide (item.key = k)

/-- The claims committed so far, in commit order. -/
def commitLog (s : StoreState) : List String := s.outbox.map (·.claimId)

/-- The claim is an allow on the counter `k`, committed at a time `p` holds of. -/
def rateAllow (s : StoreState) (k : RateKey) (p : Int → Bool) (id : String) : Bool :=
  (s.claims.get? id).any fun r => r.isAllow && r.draws k && p r.finalizedAt

/-- The admitted times of a counter. -/
def rateTimes (s : StoreState) (k : RateKey) : List Int := (s.rateCommits.get? k).getD []

/-- The times of the window `(t - w, t]`. -/
def inWindow (t w at_ : Int) : Bool := decide (t - w < at_) && decide (at_ ≤ t)

/-! ## Admission -/

theorem countP_rateTimes_insert (m : OrderedMap RateKey (List Int)) (k k' : RateKey)
    (at_ : Int) (p : Int → Bool) :
    (((m.insert k' ((m.get? k').getD [] ++ [at_])).get? k).getD []).countP p
      = ((m.get? k).getD []).countP p + if k' = k && p at_ then 1 else 0 := by
  rw [OrderedMap.get?_insert]
  by_cases hk : k = k'
  · subst hk
    rw [if_pos rfl, Option.getD_some, List.countP_append, List.countP_singleton]
    simp
  · rw [if_neg hk]
    simp [Ne.symm hk]

/-- What admission adds to a counter, time by time. -/
theorem countP_admitted (finalAt : Int) (batch : List V2RateReservation)
    (m : OrderedMap RateKey (List Int)) (k : RateKey) (p : Int → Bool) :
    (((batch.foldl (fun m item =>
        m.insert item.key ((m.get? item.key).getD [] ++ [finalAt])) m).get? k).getD []).countP p
      = ((m.get? k).getD []).countP p
        + batch.countP fun item => decide (item.key = k) && p finalAt := by
  induction batch generalizing m with
  | nil => rfl
  | cons item batch ih =>
    rw [List.foldl_cons, ih, countP_rateTimes_insert, List.countP_cons]
    omega

theorem countP_rateTimes_admitBatch (finalAt : Int) (batch : List V2RateReservation)
    (s : StoreState) (k : RateKey) (p : Int → Bool) :
    (rateTimes (admitBatch finalAt batch s) k).countP p
      = (rateTimes s k).countP p + batch.countP fun item => decide (item.key = k) && p finalAt :=
  countP_admitted finalAt batch s.rateCommits k p

/-! ## The invariant -/

/-- What holds of the counters in every state. -/
structure RatesKept (s : StoreState) : Prop where
  enabled : s.rateAtFinalization = true
  ordered : ∀ (i j : Nat) (a b : String) (x y : ClaimRecord), i < j →
    (commitLog s)[i]? = some a → (commitLog s)[j]? = some b → s.claims.get? a = some x →
    s.claims.get? b = some y → x.finalizedAt ≤ y.finalizedAt
  counted : ∀ k p, (commitLog s).countP (rateAllow s k p) ≤ (rateTimes s k).countP p
  limited : ∀ (i : Nat) (id : String) (r : ClaimRecord) (item : V2RateReservation),
    (commitLog s)[i]? = some id → s.claims.get? id = some r → r.isAllow = true →
    item ∈ r.claim.rateBatch →
    (((commitLog s).take (i + 1)).countP
      (rateAllow s item.key (inWindow r.finalizedAt item.windowS)) : Int) ≤ item.limit

/-- Every committed claim is the same claim before and after. -/
def CommittedKept (s t : StoreState) : Prop :=
  ∀ id ∈ commitLog s, ∃ r r', s.claims.get? id = some r ∧ t.claims.get? id = some r'
    ∧ SameClaim r r'

theorem CommittedKept.rateAllow {s t : StoreState} (h : CommittedKept s t) {id : String}
    (hid : id ∈ commitLog s) (k : RateKey) (p : Int → Bool) :
    V2.rateAllow t k p id = V2.rateAllow s k p id := by
  obtain ⟨r, r', hr, hr', hsame⟩ := h id hid
  rw [V2.rateAllow, V2.rateAllow, hr, hr', hsame]
  rfl

theorem LogIntact.recorded {s : StoreState} (h : LogIntact P s) {id : String}
    (hid : id ∈ commitLog s) : ∃ r, s.claims.get? id = some r ∧ r.state = .terminal := by
  obtain ⟨e, he, rfl⟩ := List.mem_map.mp hid
  obtain ⟨i, hi⟩ := List.mem_iff_getElem?.mp he
  obtain ⟨r, hr⟩ := h.committed i e hi
  exact ⟨r, hr.found, hr.terminal⟩

theorem ClaimsKept.committedKept {s t : StoreState} (h : ClaimsKept s t) (hlog : LogIntact P s) :
    CommittedKept s t := by
  intro id hid
  obtain ⟨r, hr, -⟩ := hlog.recorded hid
  obtain ⟨r', hr', hsame⟩ := h.after hr
  exact ⟨r, r', hr, hr', hsame⟩

theorem countP_rateAllow {s t : StoreState} (h : CommittedKept s t) (k : RateKey)
    (p : Int → Bool) {ids : List String} (hids : ∀ id ∈ ids, id ∈ commitLog s) :
    ids.countP (rateAllow t k p) = ids.countP (rateAllow s k p) :=
  List.countP_congr fun id hid => by rw [h.rateAllow (hids id hid)]

/-- A step that neither commits nor admits. -/
theorem RatesKept.kept {s t : StoreState} (h : RatesKept s) (hlog : commitLog t = commitLog s)
    (hclaims : CommittedKept s t) (hrates : t.rateCommits = s.rateCommits)
    (henabled : t.rateAtFinalization = true) : RatesKept t := by
  refine { enabled := henabled, ordered := ?_, counted := ?_, limited := ?_ }
  · intro i j a b x y hij ha hb hx hy
    rw [hlog] at ha hb
    obtain ⟨x₀, x', hx₀, hx', hsx⟩ := hclaims a (List.mem_of_getElem? ha)
    obtain ⟨y₀, y', hy₀, hy', hsy⟩ := hclaims b (List.mem_of_getElem? hb)
    obtain rfl : x' = x := Option.some.inj (hx'.symm.trans hx)
    obtain rfl : y' = y := Option.some.inj (hy'.symm.trans hy)
    rw [hsx.sameTerminal.finalizedAt, hsy.sameTerminal.finalizedAt]
    exact h.ordered i j a b x₀ y₀ hij ha hb hx₀ hy₀
  · intro k p
    rw [hlog, countP_rateAllow hclaims k p fun _ hid => hid, rateTimes, hrates]
    exact h.counted k p
  · intro i id r item hid hr hallow hitem
    rw [hlog] at hid ⊢
    obtain ⟨r₀, r', hr₀, hr', hsame⟩ := hclaims id (List.mem_of_getElem? hid)
    obtain rfl : r' = r := Option.some.inj (hr'.symm.trans hr)
    rw [countP_rateAllow hclaims _ _ fun _ hid => List.mem_of_mem_take hid,
      hsame.sameTerminal.finalizedAt]
    refine h.limited i id r₀ item hid hr₀ ?_ (hsame.claim ▸ hitem)
    rw [← hallow, hsame]
    rfl

/-! ## A terminal commit -/

theorem countP_inWindow_le_active (s : StoreState) (item : V2RateReservation) :
    (rateTimes s item.key).countP (inWindow s.now item.windowS)
      ≤ activeCommits s s.now item := by
  rw [activeCommits, ← List.countP_eq_length_filter]
  refine List.countP_mono_left fun t _ ht => ?_
  rw [inWindow, Bool.and_eq_true] at ht
  simpa using of_decide_eq_true ht.1

/-- A commit keeps the counters when every item of an allow was admitted with
capacity left. -/
theorem RatesKept.afterCommitted {claimId : String} {record : ClaimRecord}
    {terminal body : Bytes} {horizon : Int} {admitted : Bool} {s t : StoreState}
    (h : RatesKept s) (hlog : LogIntact P s) (htimes : TimesKept s)
    (hnew : TerminalCommitted claimId record terminal body horizon admitted s t)
    (hadmission : (record.commit terminal body horizon s.now s.outbox.length).isAllow = true →
      ∀ item ∈ record.claim.rateBatch,
        admitted = true ∧ rateExhausted s s.now item = false) : RatesKept t := by
  obtain rfl := hnew.state
  generalize hr' : record.commit terminal body horizon s.now s.outbox.length = r' at hadmission
  have hnotIn : claimId ∉ commitLog s := by
    intro hid
    obtain ⟨r, hr, hterminal⟩ := hlog.recorded hid
    rw [hnew.found] at hr
    cases hr
    rw [hnew.evaluating] at hterminal
    cases hterminal
  generalize ht : committedState claimId record terminal body horizon admitted s = t
  have hself : t.claims.get? claimId = some r' := by
    rw [← ht, ← hr']
    exact OrderedMap.get?_insert_self _ _ _
  have hother : ∀ id ∈ commitLog s, t.claims.get? id = s.claims.get? id := by
    intro id hid
    rw [← ht]
    apply OrderedMap.get?_insert_of_ne
    rintro rfl
    exact hnotIn hid
  have hkept : CommittedKept s t := by
    intro id hid
    obtain ⟨r, hr, -⟩ := hlog.recorded hid
    exact ⟨r, r, hr, (hother id hid).trans hr, .refl r⟩
  have hcommitLog : commitLog t = commitLog s ++ [claimId] := by
    rw [← ht]
    exact List.map_append
  have hrateTimes : ∀ k p, (rateTimes t k).countP p = (rateTimes s k).countP p
      + if admitted then record.claim.rateBatch.countP (fun item => decide (item.key = k) && p s.now)
        else 0 := by
    intro k p
    rw [← ht]
    cases admitted
    · rfl
    · exact countP_rateTimes_admitBatch s.now record.claim.rateBatch s k p
  have hallowNew : ∀ k p, rateAllow t k p claimId = true → r'.isAllow = true
      ∧ (∃ item ∈ record.claim.rateBatch, item.key = k) ∧ p s.now = true := by
    intro k p hallow
    rw [rateAllow, hself, Option.any_some, Bool.and_eq_true, Bool.and_eq_true] at hallow
    obtain ⟨⟨hallow, hdraws⟩, hp⟩ := hallow
    obtain ⟨item, hitem, hkey⟩ := List.any_eq_true.mp hdraws
    rw [← hr'] at hitem hp
    exact ⟨hallow, ⟨item, hitem, of_decide_eq_true hkey⟩, hp⟩
  refine { enabled := ?_, ordered := ?_, counted := ?_, limited := ?_ }
  · rw [← ht]
    exact h.enabled
  · intro i j a b x y hij ha hb hx hy
    rw [hcommitLog] at ha hb
    have ha₀ : (commitLog s)[i]? = some a := by
      rcases getElem?_append_singleton ha with ⟨-, ha₀⟩ | ⟨hi, -⟩
      · exact ha₀
      · rcases getElem?_append_singleton hb with ⟨hj, -⟩ | ⟨hj, -⟩ <;> omega
    rw [hother a (List.mem_of_getElem? ha₀)] at hx
    rcases getElem?_append_singleton hb with ⟨-, hb₀⟩ | ⟨-, rfl⟩
    · rw [hother b (List.mem_of_getElem? hb₀)] at hy
      exact h.ordered i j a b x y hij ha₀ hb₀ hx hy
    · obtain ⟨r, hr, hterminal⟩ := hlog.recorded (List.mem_of_getElem? ha₀)
      obtain rfl : r = x := Option.some.inj (hr.symm.trans hx)
      obtain rfl : r' = y := Option.some.inj (hself.symm.trans hy)
      rw [← hr']
      exact le_trans ((htimes a r hr).finalized hterminal).2 hnew.ready.notRegressed
  · intro k p
    have hold := h.counted k p
    rw [hcommitLog, List.countP_append, countP_rateAllow hkept k p fun _ hid => hid,
      List.countP_singleton, hrateTimes]
    split
    · rename_i hallow
      obtain ⟨hallow, ⟨item, hitem, hkey⟩, hp⟩ := hallowNew k p hallow
      rw [(hadmission hallow item hitem).1, if_pos rfl]
      have hpos : 0 < record.claim.rateBatch.countP
          (fun item => decide (item.key = k) && p s.now) :=
        List.countP_pos_iff.mpr ⟨item, hitem, by rw [hkey, hp]; simp⟩
      omega
    · omega
  · intro i id r item hid hr hallow hitem
    rw [hcommitLog] at hid ⊢
    rcases getElem?_append_singleton hid with ⟨hi, hid₀⟩ | ⟨hi, rfl⟩
    · rw [hother id (List.mem_of_getElem? hid₀)] at hr
      rw [List.take_append_of_le_length (by omega),
        countP_rateAllow hkept _ _ fun _ hid => List.mem_of_mem_take hid]
      exact h.limited i id r item hid₀ hr hallow hitem
    · rw [hself] at hr
      cases hr
      obtain ⟨-, hcapacity⟩ := hadmission hallow item (by rw [← hr'] at hitem; exact hitem)
      rw [rateExhausted, decide_eq_false_iff_not, not_le] at hcapacity
      have hactive := countP_inWindow_le_active s item
      have hold := h.counted item.key (inWindow s.now item.windowS)
      have hfinal : r'.finalizedAt = s.now := by
        rw [← hr']
        rfl
      rw [List.take_of_length_le (by rw [List.length_append, hi]; exact le_refl _),
        List.countP_append, List.countP_singleton,
        countP_rateAllow hkept _ _ fun _ hid => hid, hfinal]
      split <;> omega

/-! ## Steps and runs -/

theorem FinalizeCommitted.admitted {claimId : String} {token terminal body : Bytes}
    {horizon : Int} {record : ClaimRecord} {receipt : VerificationReceiptV2} {s t : StoreState}
    (h : FinalizeCommitted P claimId token terminal body horizon record receipt s t)
    (henabled : s.rateAtFinalization = true)
    (hallow : (record.commit terminal body horizon s.now s.outbox.length).isAllow = true) :
    ∀ item ∈ record.claim.rateBatch,
      admitsRate s record horizon = true ∧ rateExhausted s s.now item = false := by
  intro item hitem
  have hdecision : receipt.decision = "allow" := by
    have hdecoded : decodeVerificationReceiptBodyV2
        (record.commit terminal body horizon s.now s.outbox.length).receiptBody = .ok receipt :=
      h.decoded
    rw [ClaimRecord.isAllow, hdecoded] at hallow
    simpa using hallow
  have hpos : 0 < horizon := by
    have hhorizon := h.horizonMatches
    rw [hdecision] at hhorizon
    exact horizonOk_allow hhorizon
  have hadmits : admitsRate s record horizon = true := by
    have hne : record.claim.rateBatch ≠ [] := List.ne_nil_of_mem hitem
    simp [admitsRate, hpos, henabled, hne]
  exact ⟨hadmits, h.capacity hadmits item hitem⟩

theorem RecoverCommitted.notAllow {claimId : String} {terminal body : Bytes}
    {record : ClaimRecord} {receipt : VerificationReceiptV2} {s t : StoreState}
    (h : RecoverCommitted claimId terminal body record receipt s t) :
    (record.commit terminal body 0 s.now s.outbox.length).isAllow = false := by
  have hdecoded : decodeVerificationReceiptBodyV2
      (record.commit terminal body 0 s.now s.outbox.length).receiptBody = .ok receipt := h.decoded
  rw [ClaimRecord.isAllow, hdecoded]
  simp only [h.decision]
  decide

theorem CallEffect.commitLog {call : StoreCall} {r : V2StoreResult StoreReply}
    {s t : StoreState} (h : CallEffect P call s r t) :
    V2.commitLog t = V2.commitLog s ++ (committedClaim (call, r)).toList :=
  h.map_claimId

/-- Every call keeps the counters. -/
theorem RatesKept.step {call : StoreCall} {r : V2StoreResult StoreReply} {s t : StoreState}
    (h : RatesKept s) (hlog : LogIntact P s) (htimes : TimesKept s)
    (heffect : CallEffect P call s r t) : RatesKept t := by
  have hkept : ∀ {u : StoreState}, V2.commitLog u = V2.commitLog s → ClaimsKept s u →
      u.rateCommits = s.rateCommits → u.rateAtFinalization = true → RatesKept u :=
    fun hids hclaims hrates henabled => h.kept hids (hclaims.committedKept hlog) hrates henabled
  have hids := heffect.commitLog
  cases heffect with
  | quiet hquiet hreply =>
    rw [committedClaim_of_stale hreply, Option.toList_none, List.append_nil] at hids
    refine hkept hids (.of_claims_eq hquiet.claims) hquiet.rateCommits ?_
    rcases hquiet with rfl | ⟨-, rfl⟩ <;> exact h.enabled
  | created hnew =>
    obtain rfl := hnew.state
    refine h.kept rfl ?_ rfl h.enabled
    intro id hid
    obtain ⟨r, hr, -⟩ := hlog.recorded hid
    refine ⟨r, r, hr, ?_, .refl r⟩
    rw [← hr]
    apply OrderedMap.get?_insert_of_ne
    rintro rfl
    exact absurd (hr.symm.trans hnew.unused) nofun
  | progressed hnew =>
    obtain rfl := hnew.state
    refine hkept rfl (.of_insert hnew.found ?_ rfl) rfl h.enabled
    rfl
  | finalized hnew =>
    exact h.afterCommitted hlog htimes hnew.terminal (hnew.admitted h.enabled)
  | recovered hnew =>
    refine h.afterCommitted hlog htimes hnew.committed fun hallow => ?_
    rw [hnew.notAllow] at hallow
    cases hallow
  | released hnew =>
    obtain rfl := hnew.state
    refine hkept rfl (.of_insert hnew.found ?_ rfl) rfl h.enabled
    rfl
  | appended hnew hsubmitted =>
    obtain rfl := hnew.state
    rcases hsubmitted with rfl | hack
    · exact hkept (hids.trans (List.append_nil _)) (.of_claims_eq rfl) rfl h.enabled
    · refine hkept (hids.trans (List.append_nil _)) (.of_claims_eq hack.claims)
        hack.rateCommits ?_
      obtain rfl := hack.state
      exact h.enabled
  | acknowledged hnew =>
    obtain rfl := hnew.state
    exact hkept (hids.trans (List.append_nil _)) (.of_claims_eq rfl) rfl h.enabled
  | forked => exact hkept rfl (.of_claims_eq rfl) rfl h.enabled
  | timeSet => exact hkept rfl (.of_claims_eq rfl) rfl h.enabled
  | signerSet => exact hkept rfl (.of_claims_eq rfl) rfl h.enabled
  | withheldSet hsubmitted =>
    rcases hsubmitted with rfl | hack
    · exact hkept rfl (.of_claims_eq rfl) rfl h.enabled
    · refine hkept (hids.trans (List.append_nil _)) (.of_claims_eq hack.claims)
        hack.rateCommits ?_
      obtain rfl := hack.state
      exact h.enabled
  | rateEnabled => exact hkept rfl (.of_claims_eq rfl) rfl rfl
  | abandoned => exact hkept rfl (claimsKept_abandonPending s) rfl h.enabled

end RatifyProtocol.V2
