import RatifyProtocol.V2.Release
set_option autoImplicit false

/-!
# Release: what a call knows

A call that records an outcome or returns a decision has passed steps 1 to 6.
`Grounds` gathers what it was answered on the way and what it checked of it.
-/

namespace RatifyProtocol.V2

open Foundation

variable {P : Primitives}

/-! ## Early results -/

/-- An early result is never a release. -/
def StopsShort {α : Type} (x : Except V2ReleaseResult α) : Prop :=
  ∀ r, x = .error r → r.status ≠ .released

namespace StopsShort

variable {α β : Type}

theorem ok (a : α) : StopsShort (.ok a) := by
  intro r h
  cases h

theorem error {r : V2ReleaseResult} (h : r.status ≠ .released) :
    StopsShort (.error r : Except V2ReleaseResult α) := by
  intro r' hr
  obtain rfl := Except.error.inj hr
  exact h

theorem bind {x : Except V2ReleaseResult α} {f : α → Except V2ReleaseResult β}
    (hx : StopsShort x) (hf : ∀ a, StopsShort (f a)) : StopsShort (x >>= f) := by
  intro r h
  obtain h | ⟨a, -, h⟩ := bind_eq_error_iff.mp h
  · exact hx r h
  · exact hf a r h

theorem stopIf (c : Bool) {r : V2ReleaseResult} (h : r.status ≠ .released) :
    StopsShort (stopIf c r) := by
  unfold V2.stopIf
  split
  · exact error h
  · exact ok ()

theorem okOr {ε : Type} (x : Except ε α) {r : V2ReleaseResult} (h : r.status ≠ .released) :
    StopsShort (okOr x r) := by
  cases x with
  | error e => exact error h
  | ok a => exact ok a

end StopsShort

theorem stopIf_eq_ok_iff {c : Bool} {r : V2ReleaseResult} : stopIf c r = .ok () ↔ c = false := by
  cases c <;> simp [stopIf]

theorem okOr_eq_ok_iff {α ε : Type} {x : Except ε α} {r : V2ReleaseResult} {a : α} :
    okOr x r = .ok a ↔ x = .ok a :=
  mapError_eq_ok_iff

theorem stopIf_bind_iff {α : Type} {c : Bool} {r : V2ReleaseResult}
    {f : Unit → Except V2ReleaseResult α} {a : α} :
    (stopIf c r >>= f) = .ok a ↔ c = false ∧ f () = .ok a := by
  cases c <;> simp [stopIf]

theorem okOr_bind_iff {α β ε : Type} {x : Except ε α} {r : V2ReleaseResult}
    {f : α → Except V2ReleaseResult β} {b : β} :
    (okOr x r >>= f) = .ok b ↔ ∃ a, x = .ok a ∧ f a = .ok b := by
  rw [bind_eq_ok_iff]
  exact exists_congr fun a => and_congr_left fun _ => okOr_eq_ok_iff

theorem releasePreflight_stops (request : ReleaseRequest) :
    StopsShort (releasePreflight request) :=
  (StopsShort.stopIf _ (by decide)).bind fun _ => .stopIf _ (by decide)

theorem releaseLoad_stops (answer : V2StoreResult StoreReply) :
    StopsShort (releaseLoad answer) := by
  unfold releaseLoad
  split
  · exact .ok _
  split
  · exact .error (by decide)
  · exact .error (by decide)

theorem releaseState_stops (request : ReleaseRequest) (record : V2TerminalClaimRecord) :
    StopsShort (releaseState P request record) := by
  refine (StopsShort.stopIf _ (by decide)).bind fun _ => (StopsShort.stopIf _ (by decide)).bind
    fun _ => ?_
  split
  · exact .ok ()
  · exact (StopsShort.stopIf _ (by decide)).bind fun _ =>
      .stopIf _ (fun h => V2ReleaseStatus.noConfusion h)

theorem releaseReceipt_stops (request : ReleaseRequest) (record : V2TerminalClaimRecord) :
    StopsShort (releaseReceipt P request record) := by
  unfold releaseReceipt
  split
  · exact .error (by decide)
  · refine (StopsShort.okOr _ (by decide)).bind fun _ => (StopsShort.stopIf _ (by decide)).bind
      fun _ => (StopsShort.okOr _ (by decide)).bind fun _ => (StopsShort.stopIf _ (by decide)).bind
      fun _ => (StopsShort.okOr _ (by decide)).bind fun _ => (StopsShort.stopIf _ (by decide)).bind
      fun _ => .ok _

theorem releaseLoaded_stops (request : ReleaseRequest) (answer : V2StoreResult StoreReply) :
    StopsShort (releaseLoaded P request answer) :=
  (releaseLoad_stops answer).bind fun record => (releaseState_stops request record).bind
    fun _ => (releaseReceipt_stops request record).bind fun _ => .ok _

theorem releasePredecessor_stops (receipt : VerificationReceiptV2)
    (answer : V2StoreResult StoreReply) : StopsShort (releasePredecessor receipt answer) :=
  (StopsShort.okOr _ (by decide)).bind fun _ => .stopIf _ (by decide)

theorem releaseAcknowledged_stops (record : V2TerminalClaimRecord)
    (published : PublishedReceipt) (answer : V2StoreResult StoreReply) :
    StopsShort (releaseAcknowledged record published answer) :=
  (StopsShort.okOr _ (by decide)).bind fun _ => (StopsShort.stopIf _ (by decide)).bind
    fun _ => (StopsShort.stopIf _ (by decide)).bind fun _ => .ok _

theorem releaseClock_stops (committed : CommittedV2Outcome) (record : V2TerminalClaimRecord)
    (receipt : VerificationReceiptV2) (ackTimestamp : Int) (answer : V2StoreResult StoreReply) :
    StopsShort (releaseClock committed record receipt ackTimestamp answer) := by
  unfold releaseClock
  split
  · exact .ok _
  split
  · exact .ok _
  · exact .error (by decide)

/-! ## What the steps check -/

theorem replyOf_eq_ok_iff {α : Type} {f : StoreReply → Option α}
    {answer : V2StoreResult StoreReply} {a : α} :
    replyOf f answer = .ok a ↔ ∃ reply, answer = .ok reply ∧ f reply = some a := by
  unfold replyOf
  rw [bind_eq_ok_iff]
  refine exists_congr fun reply => and_congr_right fun _ => ?_
  cases f reply <;> simp

theorem terminalClaim?_eq_some_iff {reply : StoreReply} {record : V2TerminalClaimRecord} :
    reply.terminalClaim? = some record ↔ reply = .terminalClaim record := by
  cases reply <;> simp [StoreReply.terminalClaim?]

theorem acknowledgement?_eq_some_iff {reply : StoreReply} {ack : V2CheckpointAcknowledgement} :
    reply.acknowledgement? = some ack ↔ reply = .acknowledged ack := by
  cases reply <;> simp [StoreReply.acknowledgement?]

theorem time?_eq_some_iff {reply : StoreReply} {now : Int} :
    reply.time? = some now ↔ reply = .time now := by
  cases reply <;> simp [StoreReply.time?]

theorem releaseLoad_eq_ok_iff {answer : V2StoreResult StoreReply}
    {record : V2TerminalClaimRecord} :
    releaseLoad answer = .ok record ↔ answer = .ok (.terminalClaim record) := by
  have hreply : replyOf StoreReply.terminalClaim? answer = .ok record
      ↔ answer = .ok (.terminalClaim record) := by
    simp only [replyOf_eq_ok_iff, terminalClaim?_eq_some_iff, exists_eq_right]
  rw [← hreply]
  unfold releaseLoad
  cases replyOf StoreReply.terminalClaim? answer with
  | ok r => simp
  | error e =>
    dsimp only
    split <;> simp

/-- Step 1 passes on a live terminal claim that is the handoff's. -/
structure StateChecked (P : Primitives) (request : ReleaseRequest)
    (record : V2TerminalClaimRecord) : Prop where
  kept : record.receiptAbandoned = false
  terminal : record.terminal = true
  digest : record.receiptOutboxDigest = request.committed.receiptBodyDigest P
  expires : record.challengeExpiresAt = request.committed.challengeExpiresAt
  horizon : record.allowHorizon = request.committed.allowHorizon
  verifier : keyIdV2 P request.config.verifierPublicKey = .ok request.committed.verifierId
  prior : ∀ x, record.release = some x →
    x.claimId = request.committed.claimId ∧ x.outcome = .released ∧ x.reason = ""

theorem outcome_of_valid {outcome : V2ReleaseStatus} {reason : String}
    (h : validV2ReleaseRecordOutcome outcome reason = true) (hkept : outcome ≠ .withheld) :
    outcome = .released ∧ reason = "" := by
  cases outcome with
  | released => exact ⟨rfl, beq_iff_eq.mp h⟩
  | withheld => exact absurd rfl hkept
  | pending => cases h
  | rejected => cases h

theorem stateChecked {request : ReleaseRequest} {record : V2TerminalClaimRecord}
    (h : releaseState P request record = .ok ()) : StateChecked P request record := by
  simp only [releaseState, stopIf_bind_iff, Bool.or_eq_false_iff, bne_eq_false_iff_eq,
    Bool.not_eq_false'] at h
  obtain ⟨hkept, ⟨⟨⟨⟨hterminal, hdigest⟩, hexpires⟩, hhorizon⟩, hverifier⟩, hprior⟩ := h
  have hkey : keyIdV2 P request.config.verifierPublicKey = .ok request.committed.verifierId := by
    cases hid : keyIdV2 P request.config.verifierPublicKey with
    | error e =>
      rw [hid] at hverifier
      cases hverifier
    | ok id =>
      rw [hid] at hverifier
      exact congrArg Except.ok (Option.some.inj hverifier)
  refine
    { kept := hkept, terminal := hterminal, digest := hdigest, expires := hexpires
      horizon := hhorizon, verifier := hkey, prior := ?_ }
  intro x hx
  simp only [hx, stopIf_bind_iff, stopIf_eq_ok_iff, Bool.or_eq_false_iff, bne_eq_false_iff_eq,
    Bool.not_eq_false', beq_eq_false_iff_ne] at hprior
  obtain ⟨⟨hid, hvalid⟩, houtcome⟩ := hprior
  exact ⟨hid, outcome_of_valid hvalid houtcome⟩

/-- Steps 2 to 4 pass on a verified receipt with the committed body. -/
structure ReceiptChecked (P : Primitives) (request : ReleaseRequest)
    (record : V2TerminalClaimRecord) (published : PublishedReceipt) : Prop where
  presented : request.signedReceipt = some published.wire
  decoded : decodeVerificationReceiptV2 published.wire = .ok published.receipt
  log : published.receipt.logId = request.config.logId
  body : verificationReceiptV2Body published.receipt = .ok request.committed.receiptBody
  entryHash : verificationReceiptV2Digest P published.receipt = .ok published.entryHash
  prior : ∀ x, record.release = some x → x.entryHash = published.entryHash

theorem receiptChecked {request : ReleaseRequest} {record : V2TerminalClaimRecord}
    {published : PublishedReceipt} (h : releaseReceipt P request record = .ok published) :
    ReceiptChecked P request record published := by
  unfold releaseReceipt at h
  split at h
  · cases h
  rename_i wire hwire
  obtain ⟨hpresented, -⟩ := Option.filter_eq_some_iff.mp hwire
  simp only [okOr_bind_iff, stopIf_bind_iff, bne_eq_false_iff_eq] at h
  obtain ⟨receipt, hverified, -, body, hbody, hsame, entryHash, hdigest, hprior, h⟩ := h
  obtain rfl := Except.ok.inj h
  unfold verifyPublishedV2Receipt at hverified
  obtain ⟨receipt', hdecoded, hverified⟩ := bind_eq_ok_iff.mp hverified
  split at hverified
  · cases hverified
  rename_i hlog
  obtain ⟨signable, -, hverified⟩ := bind_eq_ok_iff.mp hverified
  obtain ⟨-, hverified⟩ := bind_eq_ok_unit_iff.mp hverified
  obtain rfl := Except.ok.inj hverified
  refine
    { presented := hpresented, decoded := hdecoded, log := not_not.mp hlog, body := hsame ▸ hbody
      entryHash := hdigest, prior := ?_ }
  intro x hx
  rw [hx] at hprior
  exact bne_eq_false_iff_eq.mp hprior

/-- Step 6 passes on the acknowledgement of the entry. -/
structure AcknowledgementChecked (record : V2TerminalClaimRecord) (published : PublishedReceipt)
    (ack : V2CheckpointAcknowledgement) : Prop where
  log : ack.logId = published.receipt.logId
  sequence : ack.sequence = published.receipt.sequence
  entryHash : ack.entryHash = published.entryHash
  prior : ∀ x, record.release = some x → x.ackTimestamp = ack.timestamp

theorem acknowledgementChecked {record : V2TerminalClaimRecord} {published : PublishedReceipt}
    {answer : V2StoreResult StoreReply} {ack : V2CheckpointAcknowledgement}
    (h : releaseAcknowledged record published answer = .ok ack) :
    answer = .ok (.acknowledged ack) ∧ AcknowledgementChecked record published ack := by
  simp only [releaseAcknowledged, okOr_bind_iff, stopIf_bind_iff, replyOf_eq_ok_iff,
    acknowledgement?_eq_some_iff, exists_eq_right, Bool.or_eq_false_iff, bne_eq_false_iff_eq] at h
  obtain ⟨ack', hanswer, ⟨⟨hlog, hsequence⟩, hentry⟩, hprior, h⟩ := h
  obtain rfl := Except.ok.inj h
  refine ⟨hanswer, { log := hlog, sequence := hsequence, entryHash := hentry, prior := ?_ }⟩
  intro x hx
  rw [hx] at hprior
  exact bne_eq_false_iff_eq.mp hprior

/-- A decision that is not withheld at `now` is inside its deadlines. -/
theorem withheldAt_eq_none {committed : CommittedV2Outcome} {record : V2TerminalClaimRecord}
    {receipt : VerificationReceiptV2} {ackTimestamp now : Int}
    (h : withheldAt committed record receipt ackTimestamp now = none) :
    record.finalizedAt ≤ ackTimestamp ∧ ackTimestamp ≤ now ∧ now < committed.challengeExpiresAt
      ∧ (receipt.decision = "allow" → now < committed.allowHorizon) := by
  unfold withheldAt at h
  split at h
  · cases h
  rename_i htimes
  split at h
  · cases h
  rename_i hexpired
  split at h
  · cases h
  rename_i hpassed
  simp only [Bool.or_eq_true, decide_eq_true_eq, not_or, not_lt] at htimes
  obtain ⟨⟨-, hfinal⟩, hack⟩ := htimes
  refine ⟨hfinal, hack, ?_, fun hallow => ?_⟩
  · by_contra hlate
    exact hexpired (.inr (not_lt.mp hlate))
  · by_contra hlate
    exact hpassed ⟨hallow, .inr (.inr (not_lt.mp hlate))⟩

/-! ## Grounds -/

/-- What steps 1 to 6 were answered, in `log`, and what they checked. -/
structure Grounds (P : Primitives) (request : ReleaseRequest) (record : V2TerminalClaimRecord)
    (published : PublishedReceipt) (ack : V2CheckpointAcknowledgement)
    (log : List (StoreCall × V2StoreResult StoreReply)) : Prop where
  loaded : (.loadTerminal request.committed.claimId, .ok (.terminalClaim record)) ∈ log
  state : StateChecked P request record
  receipt : ReceiptChecked P request record published
  answered : (.getAcknowledgement published.receipt.logId published.receipt.sequence,
    .ok (.acknowledged ack)) ∈ log
  acknowledged : AcknowledgementChecked record published ack

/-- No outcome is recorded in `log`. -/
def Unrecorded (log : List (StoreCall × V2StoreResult StoreReply)) : Prop :=
  ∀ x answer, (.recordRelease x, answer) ∉ log

theorem Unrecorded.nil : Unrecorded [] := fun _ _ => List.not_mem_nil

theorem Unrecorded.cons {log : List (StoreCall × V2StoreResult StoreReply)} (h : Unrecorded log)
    {call : StoreCall} (hcall : ∀ x, call ≠ .recordRelease x)
    (answer : V2StoreResult StoreReply) : Unrecorded ((call, answer) :: log) := by
  intro x answer' hmem
  obtain heq | hmem := List.mem_cons.mp hmem
  · exact hcall x (Prod.mk.inj heq).1.symm
  · exact h x answer' hmem

/-- A call that has neither recorded nor released anything. -/
structure Idle (log : List (StoreCall × V2StoreResult StoreReply))
    (q : StoreInteraction V2ReleaseResult) : Prop where
  unrecorded : Unrecorded log
  unreleased : ∀ result, q = .ret result → result.status ≠ .released

theorem Idle.cons {log : List (StoreCall × V2StoreResult StoreReply)}
    {q : StoreInteraction V2ReleaseResult} (h : Idle log q) {call : StoreCall}
    (hcall : ∀ x, call ≠ .recordRelease x) (answer : V2StoreResult StoreReply) :
    Idle ((call, answer) :: log) q :=
  ⟨h.unrecorded.cons hcall answer, h.unreleased⟩

theorem Idle.stopped {α : Type} {x : Except V2ReleaseResult α} (h : StopsShort x)
    {r : V2ReleaseResult} (hr : x = .error r) : Idle [] (.ret r) := by
  refine ⟨.nil, fun result hresult => ?_⟩
  obtain rfl := Interaction.ret.inj hresult
  exact h _ hr

theorem Idle.calling (i : StoreCall)
    (next : V2StoreResult StoreReply → StoreInteraction V2ReleaseResult) :
    Idle [] (.call i next) := by
  refine ⟨.nil, fun result hresult => ?_⟩
  cases hresult

/-- The release that step 9 records. -/
def releasedRecord (committed : CommittedV2Outcome) (published : PublishedReceipt)
    (ack : V2CheckpointAcknowledgement) : V2ReleaseRecord :=
  { claimId := committed.claimId, entryHash := published.entryHash
    ackTimestamp := ack.timestamp, outcome := .released, reason := "" }

/-- The clock was read, in `log`, inside every deadline. -/
def InTime (committed : CommittedV2Outcome) (record : V2TerminalClaimRecord)
    (published : PublishedReceipt) (ack : V2CheckpointAcknowledgement)
    (log : List (StoreCall × V2StoreResult StoreReply)) : Prop :=
  ∃ now, (.authoritativeTime, .ok (.time now)) ∈ log
    ∧ withheldAt committed record published.receipt ack.timestamp now = none

/-- What steps 7 to 10 do: they record an outcome of this entry where there is none,
and return a decision only inside every deadline and with a release on record. -/
structure Settles (committed : CommittedV2Outcome) (record : V2TerminalClaimRecord)
    (published : PublishedReceipt) (ack : V2CheckpointAcknowledgement)
    (log : List (StoreCall × V2StoreResult StoreReply)) (q : StoreInteraction V2ReleaseResult) :
    Prop where
  recorded : ∀ x answer, (.recordRelease x, answer) ∈ log → record.release = none
    ∧ x.claimId = committed.claimId ∧ (x.outcome = .released →
      x = releasedRecord committed published ack ∧ InTime committed record published ack log)
  released : ∀ result, q = .ret result → result.status = .released →
    result = releasedResult committed published ack.timestamp
      ∧ InTime committed record published ack log
      ∧ (record.release = none → ∃ reply,
        (.recordRelease (releasedRecord committed published ack), .ok reply) ∈ log)

variable {committed : CommittedV2Outcome} {request : ReleaseRequest}
  {record : V2TerminalClaimRecord} {published : PublishedReceipt}
  {ack : V2CheckpointAcknowledgement} {log : List (StoreCall × V2StoreResult StoreReply)}
  {q : StoreInteraction V2ReleaseResult}

theorem Idle.settles (h : Idle log q) : Settles committed record published ack log q :=
  { recorded := fun x answer hmem => absurd hmem (h.unrecorded x answer)
    released := fun result hq hstatus => absurd hstatus (h.unreleased result hq) }

/-- An outcome is recorded only where there was none, and the wanted result follows
a record that stands. -/
theorem recordOutcome_leads {release : V2ReleaseRecord} {result unavailable : V2ReleaseResult}
    (hunavailable : unavailable.status ≠ .released)
    (h : (recordOutcome record release result unavailable).Leads log q) :
    (∀ x answer, (.recordRelease x, answer) ∈ log → x = release ∧ record.release = none)
      ∧ ∀ r, q = .ret r → r.status = .released → r = result
        ∧ (record.release = none → ∃ reply, (.recordRelease release, .ok reply) ∈ log) := by
  unfold recordOutcome at h
  split at h
  · rename_i x hx
    obtain ⟨rfl, rfl⟩ := Interaction.Leads.ret_iff.mp h
    refine ⟨fun _ _ hmem => absurd hmem List.not_mem_nil, fun r hr _ => ⟨?_, fun hnone => ?_⟩⟩
    · exact (Interaction.ret.inj hr).symm
    · rw [hx] at hnone
      cases hnone
  · rename_i hnone
    obtain ⟨rfl, rfl⟩ | ⟨answer, rest, rfl, hrest⟩ := Interaction.Leads.call_iff.mp h
    · refine ⟨fun x answer hmem => absurd hmem List.not_mem_nil, fun r hr _ => ?_⟩
      cases hr
    · have hend : rest = [] ∧ ∃ r, q = .ret r
          ∧ (r.status = .released → r = result ∧ ∃ reply, answer = .ok reply) := by
        split at hrest
        · rename_i reply
          obtain ⟨rfl, rfl⟩ := Interaction.Leads.ret_iff.mp hrest
          exact ⟨rfl, result, rfl, fun _ => ⟨rfl, reply, rfl⟩⟩
        · obtain ⟨rfl, rfl⟩ := Interaction.Leads.ret_iff.mp hrest
          exact ⟨rfl, _, rfl, fun hstatus => absurd hstatus (by decide)⟩
        · obtain ⟨rfl, rfl⟩ := Interaction.Leads.ret_iff.mp hrest
          exact ⟨rfl, _, rfl, fun hstatus => absurd hstatus hunavailable⟩
      obtain ⟨rfl, r, rfl, hr⟩ := hend
      refine ⟨fun x answer' hmem => ?_, fun r' hr' hstatus => ?_⟩
      · obtain ⟨heq, -⟩ := Prod.mk.inj (List.mem_singleton.mp hmem)
        exact ⟨StoreCall.recordRelease.inj heq, hnone⟩
      · obtain rfl := Interaction.ret.inj hr'
        obtain ⟨rfl, reply, rfl⟩ := hr hstatus
        exact ⟨rfl, fun _ => ⟨reply, List.mem_singleton.mpr rfl⟩⟩

/-- A clock answer that allows the release is a reading inside every deadline. -/
theorem releaseClock_eq_none {receipt : VerificationReceiptV2} {ackTimestamp : Int}
    {answer : V2StoreResult StoreReply}
    (h : releaseClock committed record receipt ackTimestamp answer = .ok none) :
    ∃ now, answer = .ok (.time now)
      ∧ withheldAt committed record receipt ackTimestamp now = none := by
  unfold releaseClock at h
  split at h
  · rename_i now hread
    unfold readV2AuthoritativeTime at hread
    split at hread
    · cases hread
    rename_i now' hanswer
    split at hread
    · obtain rfl := Except.ok.inj hread
      simp only [replyOf_eq_ok_iff, time?_eq_some_iff, exists_eq_right] at hanswer
      exact ⟨now', hanswer, Except.ok.inj h⟩
    · cases hread
  · split at h <;> cases h

theorem releaseAtTime_leads (h : (releaseAtTime committed record published ack).Leads log q) :
    Settles committed record published ack log q := by
  obtain ⟨rfl, rfl⟩ | ⟨answer, rest, rfl, hrest⟩ := Interaction.Leads.call_iff.mp h
  · exact (Idle.calling _ _).settles
  obtain ⟨r, hr, rfl, rfl⟩ | ⟨reason, hclock, hthen⟩ := Interaction.Leads.orElse_iff.mp hrest
  · exact ((Idle.stopped (releaseClock_stops _ _ _ _ _) hr).cons (by simp) answer).settles
  cases reason with
  | some reason =>
    obtain ⟨hrecords, hreturns⟩ := recordOutcome_leads (fun h => V2ReleaseStatus.noConfusion h) hthen
    refine { recorded := fun x answer' hmem => ?_, released := fun result hq hstatus => ?_ }
    · obtain heq | hmem := List.mem_cons.mp hmem
      · cases heq
      · obtain ⟨rfl, hnone⟩ := hrecords x answer' hmem
        exact ⟨hnone, rfl, fun h => V2ReleaseStatus.noConfusion h⟩
    · obtain ⟨rfl, -⟩ := hreturns result hq hstatus
      cases hstatus
  | none =>
    obtain ⟨now, rfl, hnow⟩ := releaseClock_eq_none hclock
    have hintime : InTime committed record published ack
        ((.authoritativeTime, .ok (.time now)) :: rest) := ⟨now, List.mem_cons_self, hnow⟩
    obtain ⟨hrecords, hreturns⟩ := recordOutcome_leads (by decide) hthen
    refine { recorded := fun x answer' hmem => ?_, released := fun result hq hstatus => ?_ }
    · obtain heq | hmem := List.mem_cons.mp hmem
      · cases heq
      · obtain ⟨rfl, hnone⟩ := hrecords x answer' hmem
        exact ⟨hnone, rfl, fun _ => ⟨rfl, hintime⟩⟩
    · obtain ⟨rfl, hrecord⟩ := hreturns result hq hstatus
      refine ⟨rfl, hintime, fun hnone => ?_⟩
      obtain ⟨reply, hmem⟩ := hrecord hnone
      exact ⟨reply, List.mem_cons_of_mem _ hmem⟩

theorem releaseAcknowledgement_leads
    (h : (releaseAcknowledgement committed record published).Leads log q) :
    Idle log q ∨ ∃ ack rest,
      log = (.getAcknowledgement published.receipt.logId published.receipt.sequence,
        .ok (.acknowledged ack)) :: rest
      ∧ AcknowledgementChecked record published ack
      ∧ Settles committed record published ack rest q := by
  obtain ⟨rfl, rfl⟩ | ⟨answer, rest, rfl, hrest⟩ := Interaction.Leads.call_iff.mp h
  · exact .inl (.calling _ _)
  obtain ⟨r, hr, rfl, rfl⟩ | ⟨ack, hack, hthen⟩ := Interaction.Leads.orElse_iff.mp hrest
  · exact .inl ((Idle.stopped (releaseAcknowledged_stops _ _ _) hr).cons (by simp) answer)
  · obtain ⟨rfl, hchecked⟩ := acknowledgementChecked hack
    exact .inr ⟨ack, rest, rfl, hchecked, releaseAtTime_leads hthen⟩

theorem releasePublished_leads
    (h : (releasePublished committed record published).Leads log q) :
    Idle log q ∨ ∃ ack before rest, log = before ++ rest ∧ Unrecorded before
      ∧ (.getAcknowledgement published.receipt.logId published.receipt.sequence,
        .ok (.acknowledged ack)) ∈ before
      ∧ AcknowledgementChecked record published ack
      ∧ Settles committed record published ack rest q := by
  have hlast : ∀ {log}, (releaseAcknowledgement committed record published).Leads log q →
      Idle log q ∨ ∃ ack before rest, log = before ++ rest ∧ Unrecorded before
        ∧ (.getAcknowledgement published.receipt.logId published.receipt.sequence,
          .ok (.acknowledged ack)) ∈ before
        ∧ AcknowledgementChecked record published ack
        ∧ Settles committed record published ack rest q := by
    intro log hleads
    obtain hidle | ⟨ack, rest, rfl, hchecked, hsettles⟩ := releaseAcknowledgement_leads hleads
    · exact .inl hidle
    · exact .inr ⟨ack, [_], rest, rfl, Unrecorded.nil.cons (by simp) _, List.mem_cons_self,
        hchecked, hsettles⟩
  unfold releasePublished at h
  split at h
  · obtain ⟨rfl, rfl⟩ | ⟨answer, rest, rfl, hrest⟩ := Interaction.Leads.call_iff.mp h
    · exact .inl (.calling _ _)
    obtain ⟨r, hr, rfl, rfl⟩ | ⟨-, -, hthen⟩ := Interaction.Leads.orElse_iff.mp hrest
    · exact .inl ((Idle.stopped (releasePredecessor_stops _ _) hr).cons (by simp) answer)
    obtain hidle | ⟨ack, before, rest, rfl, hunrecorded, hmem, hchecked, hsettles⟩ := hlast hthen
    · exact .inl (hidle.cons (by simp) answer)
    · exact .inr ⟨ack, _ :: before, rest, rfl, hunrecorded.cons (by simp) answer,
        List.mem_cons_of_mem _ hmem, hchecked, hsettles⟩
  · exact hlast h

/-- A call is idle, or it has passed steps 1 to 6 and settles the claim. -/
theorem releaseV2Decision_leads (h : (releaseV2Decision P request).Leads log q) :
    Idle log q ∨ ∃ record published ack before rest, log = before ++ rest ∧ Unrecorded before
      ∧ Grounds P request record published ack before
      ∧ Settles request.committed record published ack rest q := by
  obtain ⟨r, hr, rfl, rfl⟩ | ⟨-, -, h⟩ := Interaction.Leads.orElse_iff.mp h
  · exact .inl (.stopped (releasePreflight_stops _) hr)
  obtain ⟨rfl, rfl⟩ | ⟨answer, rest, rfl, hrest⟩ := Interaction.Leads.call_iff.mp h
  · exact .inl (.calling _ _)
  obtain ⟨r, hr, rfl, rfl⟩ | ⟨⟨record, published⟩, hloaded, hthen⟩ :=
    Interaction.Leads.orElse_iff.mp hrest
  · exact .inl ((Idle.stopped (releaseLoaded_stops _ _) hr).cons (by simp) answer)
  obtain ⟨record', hload, hloaded⟩ := bind_eq_ok_iff.mp hloaded
  obtain ⟨hstate, hloaded⟩ := bind_eq_ok_unit_iff.mp hloaded
  obtain ⟨published', hreceipt, hloaded⟩ := bind_eq_ok_iff.mp hloaded
  obtain ⟨rfl, rfl⟩ := Prod.mk.inj (Except.ok.inj hloaded)
  obtain rfl := releaseLoad_eq_ok_iff.mp hload
  obtain hidle | ⟨ack, before, rest, rfl, hunrecorded, hmem, hchecked, hsettles⟩ :=
    releasePublished_leads hthen
  · exact .inl (hidle.cons (by simp) _)
  · refine .inr ⟨record', published', ack, _ :: before, rest, rfl,
      hunrecorded.cons (by simp) _, ?_, hsettles⟩
    exact
      { loaded := List.mem_cons_self, state := stateChecked hstate
        receipt := receiptChecked hreceipt, answered := List.mem_cons_of_mem _ hmem
        acknowledged := hchecked }

/-! ## One load -/

/-- After its load a call never loads again. -/
theorem releasePublished_only (committed : CommittedV2Outcome) (record : V2TerminalClaimRecord)
    (published : PublishedReceipt) :
    (releasePublished committed record published).Only fun i => ∀ id, i ≠ .loadTerminal id := by
  have hrecord : ∀ (release : V2ReleaseRecord) (result unavailable : V2ReleaseResult),
      (recordOutcome record release result unavailable).Only
        fun i => ∀ id, i ≠ .loadTerminal id := by
    intro release result unavailable
    unfold recordOutcome
    split
    · trivial
    · refine ⟨by simp, fun answer => ?_⟩
      dsimp only
      split <;> trivial
  have hlast : (releaseAcknowledgement committed record published).Only
      fun i => ∀ id, i ≠ .loadTerminal id := by
    refine ⟨by simp, fun answer => .orElse fun ack => ⟨by simp, fun answer => .orElse ?_⟩⟩
    intro reason
    cases reason with
    | some reason => exact hrecord _ _ _
    | none => exact hrecord _ _ _
  unfold releasePublished
  split
  · exact ⟨by simp, fun answer => .orElse fun _ => hlast⟩
  · exact hlast

/-- A call is answered to one load only. -/
theorem releaseV2Decision_load_unique (h : (releaseV2Decision P request).Leads log q)
    {id id' : String} {answer answer' : V2StoreResult StoreReply}
    (ha : (.loadTerminal id, answer) ∈ log) (hb : (.loadTerminal id', answer') ∈ log) :
    answer = answer' := by
  obtain ⟨r, -, rfl, -⟩ | ⟨-, -, h⟩ := Interaction.Leads.orElse_iff.mp h
  · exact absurd ha List.not_mem_nil
  obtain ⟨rfl, -⟩ | ⟨first, rest, rfl, hrest⟩ := Interaction.Leads.call_iff.mp h
  · exact absurd ha List.not_mem_nil
  have honce : ∀ id answer, (.loadTerminal id, answer) ∉ rest := by
    intro id answer hmem
    exact hrest.only (.orElse fun _ => releasePublished_only _ _ _) _ hmem id rfl
  have hfirst : ∀ {id answer}, (.loadTerminal id, answer)
      ∈ (StoreCall.loadTerminal request.committed.claimId, first) :: rest → answer = first := by
    intro id answer hmem
    obtain heq | hmem := List.mem_cons.mp hmem
    · exact (Prod.mk.inj heq).2
    · exact absurd hmem (honce id answer)
  exact (hfirst ha).trans (hfirst hb).symm

end RatifyProtocol.V2
