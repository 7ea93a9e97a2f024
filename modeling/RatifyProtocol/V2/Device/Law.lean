import RatifyProtocol.V2.Device.Uplink
set_option autoImplicit false

/-!
# Device component and uplink: the law of a run

The component's records grow by one linked entry at a time and survive every retry,
conflict and power loss.  The uplink sends the receipts of its primary in log order;
they are the recorded ones exactly when the primary's entries were the recorded ones
at every receipt it sent.
-/

namespace RatifyProtocol.V2

open Foundation

variable {P : Primitives} {D : DeviceCheckpoint}

/-! ## Growth -/

/-- What a run leaves of an earlier state. -/
structure DeviceGrows (s t : DeviceState) : Prop where
  records : s.component.records <+: t.component.records
  collected : s.uplink.collected <+: t.uplink.collected

theorem DeviceGrows.refl (s : DeviceState) : DeviceGrows s s :=
  { records := List.prefix_rfl, collected := List.prefix_rfl }

theorem DeviceGrows.trans {s t u : DeviceState} (h₁ : DeviceGrows s t) (h₂ : DeviceGrows t u) :
    DeviceGrows s u :=
  { records := h₁.records.trans h₂.records, collected := h₁.collected.trans h₂.collected }

theorem DeviceEffect.grows {s t : DeviceState} {e : DeviceEvent P} {r : DeviceReply}
    (h : DeviceEffect D s e r t) : DeviceGrows s t := by
  refine { records := h.step.recordsGrow, collected := ?_ }
  cases h with
  | sent _ _ => exact List.prefix_append _ _
  | _ => exact List.prefix_rfl

theorem DeviceRun.grows {events : List (DeviceEvent P × DeviceReply)} {s t : DeviceState}
    (run : Run (DevicePerforms D) s events t) : DeviceGrows s t :=
  run.invariant (DeviceGrows s) (.refl s)
    fun _ _ _ h hstep => h.trans (devicePerforms_effect D hstep).grows

theorem DeviceRun.recordsSound {events : List (DeviceEvent P × DeviceReply)} {s t : DeviceState}
    (run : Run (DevicePerforms D) s events t) (h : RecordsSound D.component s.component) :
    RecordsSound D.component t.component :=
  run.invariant (fun s => RecordsSound D.component s.component) h
    fun _ _ _ h hstep => h.step (devicePerforms_effect D hstep).step

/-! ## A frozen component -/

/-- A frozen component is left as it is. -/
structure FrozenSame (s t : DeviceState) : Prop where
  frozen : t.component.frozen = true
  records : t.component.records = s.component.records
  state : t.component.state = s.component.state

theorem DeviceEffect.frozenSame {s t : DeviceState} {e : DeviceEvent P} {r : DeviceReply}
    (h : DeviceEffect D s e r t) (hsound : RecordsSound D.component s.component)
    (hfrozen : s.component.frozen = true) : FrozenSame s t := by
  obtain ⟨hstill, hrecords⟩ := h.step.frozen hfrozen
  refine { frozen := hstill, records := hrecords, state := ?_ }
  cases h with
  | submitted _ effect =>
    cases effect with
    | extended _ hnew =>
      rw [hnew.state]
    | _ => rfl
  | provisioned _ hempty => exact absurd hempty (hsound.recorded hfrozen)
  | anchored hlive _ =>
    rw [hfrozen] at hlive
    cases hlive
  | _ => rfl

/-- What a frozen component answers. -/
structure Refused (D : DeviceCheckpoint) (e : DeviceEvent P) (r : DeviceReply) : Prop where
  submission : ∀ sub, e.submission = some sub → r = e.answer D (.error .frozen)
  anchor : ∀ previous next, e = .anchor previous next → r = .anchored (.error .frozen)

theorem refused_of_frozen {s t : DeviceState} {e : DeviceEvent P} {r : DeviceReply}
    (h : DevicePerforms D s (e, r) t) (hfrozen : s.component.frozen = true) : Refused D e r := by
  constructor
  · intro sub hsub
    rw [(performs_submission D h hsub).1, commitAt_frozen D.component sub hfrozen]
  · rintro previous next rfl
    simp only [DevicePerforms, DeviceEvent.perform, onComponent, anchorState_frozen _ _ hfrozen,
      Prod.mk.injEq] at h
    exact h.1.symm

theorem DeviceRun.frozenSame {events : List (DeviceEvent P × DeviceReply)} {s t : DeviceState}
    (run : Run (DevicePerforms D) s events t) (hsound : RecordsSound D.component s.component)
    (hfrozen : s.component.frozen = true) :
    FrozenSame s t ∧ ∀ i ∈ events, Refused D i.1 i.2 := by
  induction run with
  | nil => exact ⟨⟨hfrozen, rfl, rfl⟩, fun i hi => absurd hi List.not_mem_nil⟩
  | @snoc is u v i run last ih =>
    obtain ⟨hsame, hrefused⟩ := ih
    have hlast := (devicePerforms_effect D last).frozenSame (DeviceRun.recordsSound run hsound)
      hsame.frozen
    refine ⟨⟨hlast.frozen, hlast.records.trans hsame.records, hlast.state.trans hsame.state⟩, ?_⟩
    intro j hj
    rw [List.mem_append, List.mem_singleton] at hj
    rcases hj with hj | rfl
    · exact hrefused j hj
    · exact refused_of_frozen last hsame.frozen

/-! ## Where the records came from -/

/-- Record `r` was added at position `i` by a submission of the run that named the
entry before it and the digest anchored at that moment. -/
def RecordedBy (D : DeviceCheckpoint) (events : List (DeviceEvent P × DeviceReply))
    (records : List DeviceAcknowledgement) (i : Nat) (r : DeviceAcknowledgement) : Prop :=
  ∃ before event after u sub, events = before ++ event :: after ∧ DeviceRun D before u
    ∧ event.1.submission = some sub ∧ u.component.records = records.take i
    ∧ u.component.frozen = false ∧ u.component.state = some r.stateDigest
    ∧ sub.previousEntryHash = previousEntry records i ∧ sub.now = .ok r.timestamp
    ∧ r = D.component.acknowledgement sub r.timestamp

theorem RecordedBy.append {events : List (DeviceEvent P × DeviceReply)}
    {records records' : List DeviceAcknowledgement} {i : Nat} {r : DeviceAcknowledgement}
    (h : RecordedBy D events records i r) (hgrow : records <+: records') (hi : i ≤ records.length)
    (last : DeviceEvent P × DeviceReply) : RecordedBy D (events ++ [last]) records' i r := by
  obtain ⟨before, event, after, u, sub, rfl, hu, hsub, hrecords, hlive, hstate, hprevious, hnow,
    hr⟩ := h
  refine ⟨before, event, after ++ [last], u, sub, by simp, hu, hsub, ?_, hlive, hstate, ?_, hnow,
    hr⟩
  · obtain ⟨rest, rfl⟩ := hgrow
    rw [hrecords, List.take_append_of_le_length hi]
  · rw [hprevious, previousEntry_grow hgrow hi]

theorem DeviceRun.recordedBy {events : List (DeviceEvent P × DeviceReply)} {s : DeviceState}
    (run : DeviceRun D events s) (i : Nat) (r : DeviceAcknowledgement)
    (hr : s.component.records[i]? = some r) : RecordedBy D events s.component.records i r := by
  induction run generalizing i r with
  | nil => simp [DeviceState.new, ComponentState.new] at hr
  | @snoc is u v event run last ih =>
    have heffect := devicePerforms_effect D last
    have hkept : ∀ j r, u.component.records[j]? = some r →
        RecordedBy D (is ++ [event]) v.component.records j r := by
      intro j r hj
      have hlt : j < u.component.records.length := (List.getElem?_eq_some_iff.mp hj).1
      exact (ih j r hj).append heffect.step.recordsGrow hlt.le event
    cases hlt : u.component.records[i]? with
    | some r' =>
      have hsame : v.component.records[i]? = some r' := by
        obtain ⟨rest, hrest⟩ := heffect.step.recordsGrow
        have hbound := (List.getElem?_eq_some_iff.mp hlt).1
        rw [← hrest, List.getElem?_append_left hbound, hlt]
      obtain rfl : r' = r := Option.some.inj (hsame.symm.trans hr)
      exact hkept i r' hlt
    | none =>
      -- The record is the one this event added.
      rcases heffect.added with hsame | ⟨sub, now, hsub, hnew⟩
      · rw [hsame, hlt] at hr
        cases hr
      · have hrecords : v.component.records
            = u.component.records ++ [D.component.acknowledgement sub now] := by
          rw [hnew.state]
        have hi : i = u.component.records.length := by
          have hge : u.component.records.length ≤ i := List.getElem?_eq_none_iff.mp hlt
          have hbound := (List.getElem?_eq_some_iff.mp hr).1
          rw [hrecords, List.length_append, List.length_singleton] at hbound
          omega
        subst hi
        have hlast : r = D.component.acknowledgement sub now := by
          rw [hrecords, List.getElem?_concat_length] at hr
          exact (Option.some.inj hr).symm
        subst hlast
        refine ⟨is, event, [], u, sub, rfl, run, hsub, ?_, hnew.live, hnew.anchored, ?_,
          hnew.clock, rfl⟩
        · rw [hrecords, List.take_left' rfl]
        · rw [hrecords, hnew.linked, headEntry_eq,
            previousEntry_grow (List.prefix_append _ _) (le_refl _)]

/-! ## Uploads -/

/-- What holds of the uplink in every state. -/
structure UploadsSound (P : Primitives) (s : DeviceState) : Prop where
  counted : s.uplink.collected.length = s.uplink.uploaded
  withinHead : s.uplink.uploaded ≤ s.component.records.length
  headRecorded : s.head ≤ s.component.records.length
  placed : ∀ (k : Nat) (wire : Bytes), s.uplink.collected[k]? = some wire →
    ∃ receipt, decodeVerificationReceiptV2 wire = .ok receipt ∧ receipt.sequence = (k : Int) + 1

/-- The entry a primary shows as appended. -/
theorem appendedWire_eq_some {s : StoreState} {n : Nat} {wire : Bytes}
    (h : appendedWire s ((n : Int) + 1) = some wire) :
    ∃ e, s.outbox[n]? = some e ∧ e.wire = some wire
      ∧ appendedEntry s ((n : Int) + 1) = some e.digest := by
  have hpos : ¬ ((n : Int) + 1 < 1) := by omega
  have hindex : ((n : Int) + 1 - 1).toNat = n := by omega
  rw [appendedWire, if_neg hpos, hindex] at h
  cases hentry : s.outbox[n]? with
  | none =>
    rw [hentry] at h
    cases h
  | some e =>
    rw [hentry] at h
    have hwire : e.wire = some wire := h
    refine ⟨e, rfl, hwire, ?_⟩
    rw [appendedEntry, if_neg hpos, hindex, hentry]
    simp [hwire]

theorem appendedEntry_eq_none {s : StoreState} {n : Nat}
    (h : appendedWire s ((n : Int) + 1) = none) : appendedEntry s ((n : Int) + 1) = none := by
  have hpos : ¬ ((n : Int) + 1 < 1) := by omega
  rw [appendedWire, if_neg hpos, Option.bind_eq_none_iff] at h
  rw [appendedEntry, if_neg hpos, Option.map_eq_none_iff, Option.filter_eq_none_iff]
  intro e he
  simp [h e he]

/-- The receipt at a position of an intact log, as its wire tells it. -/
theorem LoggedPrimary.receipt (primary : LoggedPrimary P) {n : Nat} {wire : Bytes}
    (h : appendedWire primary.store ((n : Int) + 1) = some wire) :
    ∃ receipt entry, decodeVerificationReceiptV2 wire = .ok receipt
      ∧ receipt.sequence = (n : Int) + 1
      ∧ appendedEntry primary.store ((n : Int) + 1) = some entry
      ∧ verificationReceiptV2Digest P receipt = .ok entry := by
  obtain ⟨e, he, hwire, hentry⟩ := appendedWire_eq_some h
  obtain ⟨receipt, hreceipt⟩ := primary.intact.chained n e wire he hwire
  exact ⟨receipt, e.digest, decodeVerificationReceiptV2_encode hreceipt.encoded,
    hreceipt.sequence, hentry, hreceipt.digest⟩

theorem UploadsSound.initial : UploadsSound P .new :=
  { counted := rfl, withinHead := le_refl _, headRecorded := le_refl _
    placed := by
      intro k wire h
      simp [DeviceState.new, UplinkState.new] at h }

theorem UploadsSound.effect {s t : DeviceState} {e : DeviceEvent P} {r : DeviceReply}
    (h : UploadsSound P s) (heffect : DeviceEffect D s e r t) : UploadsSound P t := by
  have hlength := heffect.step.recordsGrow.length_le
  cases heffect with
  | began =>
    exact { counted := h.counted, withinHead := h.withinHead, headRecorded := le_refl _
            placed := h.placed }
  | @sent primary wire hroom happended =>
    refine { counted := ?_, withinHead := ?_, headRecorded := h.headRecorded, placed := ?_ }
    · rw [List.length_append, List.length_singleton, h.counted]
    · have := h.headRecorded
      simp only at *
      omega
    · intro k w hk
      rcases lt_trichotomy k s.uplink.collected.length with hlt | rfl | hgt
      · simp only [List.getElem?_append_left hlt] at hk
        exact h.placed k w hk
      · simp only [List.getElem?_concat_length, Option.some.injEq] at hk
        subst hk
        rw [h.counted]
        obtain ⟨receipt, -, hdecoded, hsequence, -⟩ := primary.receipt happended
        exact ⟨receipt, hdecoded, hsequence⟩
      · rw [List.getElem?_eq_none (by simp; omega)] at hk
        cases hk
  | _ =>
    exact { counted := h.counted, withinHead := h.withinHead.trans hlength
            headRecorded := h.headRecorded.trans hlength, placed := h.placed }

theorem DeviceRun.uploadsSound {events : List (DeviceEvent P × DeviceReply)} {s : DeviceState}
    (run : DeviceRun D events s) : UploadsSound P s :=
  run.invariant (UploadsSound P) .initial
    fun _ _ _ h hstep => h.effect (devicePerforms_effect D hstep)

/-- The uplink sends the sequences 1, 2, 3, … once each. -/
theorem DeviceRun.sentSequences {events : List (DeviceEvent P × DeviceReply)} {s : DeviceState}
    (run : DeviceRun D events s) :
    V2.sentSequences events = (List.range s.uplink.uploaded).map fun n : Nat => (n : Int) + 1 := by
  induction run with
  | nil => rfl
  | @snoc is u v event run last ih =>
    obtain ⟨e, r⟩ := event
    rw [sentSequences_append, ih]
    cases devicePerforms_effect D last with
    | submitted hsub effect =>
      cases e <;> simp [V2.sentSequences, DeviceEvent.answer]
    | quiet _ hunsent =>
      cases r with
      | sent sequence =>
        cases sequence with
        | none => simp [V2.sentSequences]
        | some n => exact absurd rfl (hunsent n)
      | _ => simp [V2.sentSequences]
    | sent _ _ => simp [V2.sentSequences, List.range_succ]
    | _ => simp [V2.sentSequences]

/-- Every uploaded receipt is the one the component recorded at its sequence. -/
def UploadsRecorded (P : Primitives) (s : DeviceState) : Prop :=
  ∀ (k : Nat) (wire : Bytes), s.uplink.collected[k]? = some wire →
    ∃ receipt record, decodeVerificationReceiptV2 wire = .ok receipt
      ∧ s.component.records[k]? = some record
      ∧ verificationReceiptV2Digest P receipt = .ok record.entryHash

/-- The primary's next entry to upload is the one the component recorded. -/
def EntryAgrees (primary : StoreState) (s : DeviceState) : Prop :=
  ∀ entry, s.uplink.uploaded < s.head →
    appendedEntry primary ((s.uplink.uploaded : Int) + 1) = some entry →
    ∃ record, s.component.records[s.uplink.uploaded]? = some record ∧ record.entryHash = entry

/-- At every step of an upload the entry agrees. -/
def EntriesAgree (D : DeviceCheckpoint) (events : List (DeviceEvent P × DeviceReply)) : Prop :=
  ∀ before primary reply after u, events = before ++ (.uploadNext primary, reply) :: after →
    DeviceRun D before u → EntryAgrees primary.store u

/-- An upload step adds a recorded receipt exactly when its entry agrees. -/
theorem uploadsRecorded_step_iff {s t : DeviceState} {e : DeviceEvent P} {r : DeviceReply}
    (h : DevicePerforms D s (e, r) t) (hsound : UploadsSound P s) :
    UploadsRecorded P t ↔ UploadsRecorded P s
      ∧ ∀ primary, e = .uploadNext primary → EntryAgrees primary.store s := by
  have hgrows := (devicePerforms_effect D h).grows
  have hkept : UploadsRecorded P t → UploadsRecorded P s := by
    intro ht k wire hk
    have hlt := (List.getElem?_eq_some_iff.mp hk).1
    obtain ⟨rest, hrest⟩ := hgrows.collected
    obtain ⟨receipt, record, hdecoded, hrecord, hdigest⟩ := ht k wire (by
      rw [← hrest, List.getElem?_append_left hlt, hk])
    refine ⟨receipt, record, hdecoded, ?_, hdigest⟩
    obtain ⟨more, hmore⟩ := hgrows.records
    have hbound : k < s.component.records.length := by
      have h₁ := hsound.counted
      have h₂ := hsound.withinHead
      omega
    rwa [← hmore, List.getElem?_append_left hbound] at hrecord
  have hsame : t.uplink.collected = s.uplink.collected → UploadsRecorded P s →
      UploadsRecorded P t := by
    intro hcollected hs k wire hk
    rw [hcollected] at hk
    obtain ⟨receipt, record, hdecoded, hrecord, hdigest⟩ := hs k wire hk
    refine ⟨receipt, record, hdecoded, ?_, hdigest⟩
    obtain ⟨more, hmore⟩ := hgrows.records
    rw [← hmore, List.getElem?_append_left (List.getElem?_eq_some_iff.mp hrecord).1, hrecord]
  cases devicePerforms_effect D h with
  | @sent primary wire hroom happended =>
    obtain ⟨receipt, entry, hdecoded, -, hentry, hdigest⟩ := primary.receipt happended
    have hlast : (s.uplink.collected ++ [wire])[s.uplink.uploaded]? = some wire := by
      rw [← hsound.counted, List.getElem?_concat_length]
    constructor
    · intro ht
      refine ⟨hkept ht, ?_⟩
      rintro primary' heq entry' - hentry'
      cases heq
      obtain rfl : entry = entry' := Option.some.inj (hentry.symm.trans hentry')
      obtain ⟨receipt', record, hdecoded', hrecord, hdigest'⟩ := ht _ wire hlast
      obtain rfl : receipt = receipt' := Except.ok.inj (hdecoded.symm.trans hdecoded')
      exact ⟨record, hrecord, Except.ok.inj (hdigest'.symm.trans hdigest)⟩
    · rintro ⟨hs, hagrees⟩ k w hk
      obtain ⟨record, hrecord, rfl⟩ := hagrees primary rfl entry hroom hentry
      rcases lt_trichotomy k s.uplink.collected.length with hlt | rfl | hgt
      · simp only [List.getElem?_append_left hlt] at hk
        exact hs k w hk
      · simp only [List.getElem?_concat_length, Option.some.injEq] at hk
        subst hk
        rw [hsound.counted]
        exact ⟨receipt, record, hdecoded, hrecord, hdigest⟩
      · rw [List.getElem?_eq_none (by simp; omega)] at hk
        cases hk
  | @quiet e r hsub hunsent =>
    refine ⟨fun ht => ⟨ht, ?_⟩, fun hs => hs.1⟩
    rintro primary rfl entry hroom hentry
    -- A quiet step of an upload found nothing to send.
    exfalso
    cases happended : appendedWire primary.store ((s.uplink.uploaded : Int) + 1) with
    | none =>
      rw [appendedEntry_eq_none happended] at hentry
      cases hentry
    | some wire =>
      simp only [DevicePerforms, DeviceEvent.perform, sendNext, V2.uploadNext, happended,
        if_pos hroom, Option.map_some, Prod.mk.injEq] at h
      exact hunsent _ h.1.symm
  | submitted hsub effect =>
    refine ⟨fun ht => ⟨hkept ht, ?_⟩, fun hs => hsame rfl hs.1⟩
    rintro primary rfl
    cases hsub
  | _ =>
    refine ⟨fun ht => ⟨hkept ht, ?_⟩, fun hs => hsame rfl hs.1⟩
    intro primary heq
    cases heq

/-- One more event agrees when it is no upload step or its entry agrees. -/
theorem entriesAgree_snoc_iff {is : List (DeviceEvent P × DeviceReply)} {e : DeviceEvent P}
    {r : DeviceReply} {u : DeviceState} (run : DeviceRun D is u) :
    EntriesAgree D (is ++ [(e, r)]) ↔ EntriesAgree D is
      ∧ ∀ primary, e = .uploadNext primary → EntryAgrees primary.store u := by
  constructor
  · intro hall
    refine ⟨?_, ?_⟩
    · rintro before primary reply after u' rfl hu'
      exact hall before primary reply (after ++ [(e, r)]) u' (by simp) hu'
    · rintro primary rfl
      exact hall is primary r [] u rfl run
  · rintro ⟨hbefore, hlast⟩ before primary reply after u' hevents hu'
    rcases List.eq_nil_or_concat after with rfl | ⟨after, j, rfl⟩
    · obtain ⟨rfl, heq⟩ := List.append_inj' hevents rfl
      obtain rfl := Run.unique (devicePerforms_unique D) run hu'
      exact hlast primary (congrArg Prod.fst (List.head_eq_of_cons_eq heq))
    · rw [List.concat_eq_append, ← List.cons_append, ← List.append_assoc] at hevents
      exact hbefore before primary reply after u' (List.append_inj' hevents rfl).1 hu'

theorem DeviceRun.uploadsRecorded_iff {events : List (DeviceEvent P × DeviceReply)}
    {s : DeviceState} (run : DeviceRun D events s) :
    UploadsRecorded P s ↔ EntriesAgree D events := by
  induction run with
  | nil =>
    constructor
    · intro _ before primary reply after u hevents
      simp at hevents
    · intro _ k wire hk
      simp [DeviceState.new, UplinkState.new] at hk
  | @snoc is u v event run last ih =>
    obtain ⟨e, r⟩ := event
    rw [uploadsRecorded_step_iff last (DeviceRun.uploadsSound run), ih,
      entriesAgree_snoc_iff run]

/-! ## The law -/

/-- What the component and the uplink keep over a whole run. -/
structure DeviceLaw (D : DeviceCheckpoint) (events : List (DeviceEvent P × DeviceReply))
    (s : DeviceState) : Prop where
  records : RecordsSound D.component s.component
  appendOnly : ∀ before after u, events = before ++ after → DeviceRun D before u → DeviceGrows u s
  linked : ∀ (i : Nat) (r : DeviceAcknowledgement), s.component.records[i]? = some r →
    RecordedBy D events s.component.records i r
  retried : ∀ before e reply after u v sub ack, events = before ++ (e, reply) :: after →
    DeviceRun D before u → DevicePerforms D u (e, reply) v → e.submission = some sub →
    u.component.frozen = false → u.component.recordAt sub.sequence = some ack →
    ack.logId = sub.logId → ack.entryHash = sub.entryHash →
    reply = e.answer D (.ok ack) ∧ v = u
  conflicted : ∀ before e reply after u v sub ack, events = before ++ (e, reply) :: after →
    DeviceRun D before u → DevicePerforms D u (e, reply) v → e.submission = some sub →
    u.component.recordAt sub.sequence = some ack →
    ¬ (ack.logId = sub.logId ∧ ack.entryHash = sub.entryHash) →
    reply = e.answer D (.error .frozen) ∧ v.component.frozen = true
  frozen : ∀ before after u, events = before ++ after → DeviceRun D before u →
    u.component.frozen = true → FrozenSame u s ∧ ∀ i ∈ after, Refused D i.1 i.2
  uploads : UploadsSound P s
  order : sentSequences events = (List.range s.uplink.uploaded).map fun n : Nat => (n : Int) + 1
  recorded : UploadsRecorded P s

/-- A run keeps the law exactly when every upload of it meets the entries that the
component recorded. -/
theorem deviceLaw_iff {events : List (DeviceEvent P × DeviceReply)} {s : DeviceState}
    (run : DeviceRun D events s) : DeviceLaw D events s ↔ EntriesAgree D events := by
  constructor
  · intro h
    exact run.uploadsRecorded_iff.mp h.recorded
  · intro hagree
    refine
      { records := DeviceRun.recordsSound run (.initial _)
        appendOnly := ?_
        linked := fun i r hr => run.recordedBy i r hr
        retried := ?_
        conflicted := ?_
        frozen := ?_
        uploads := run.uploadsSound
        order := run.sentSequences
        recorded := run.uploadsRecorded_iff.mpr hagree }
    · rintro before after u rfl hu
      obtain ⟨u', hu', hafter⟩ := Run.append_iff.mp run
      obtain rfl := Run.unique (devicePerforms_unique D) hu hu'
      exact DeviceRun.grows hafter
    · intro before e reply after u v sub ack _ hu hstep hsub hlive hfound hlog hentry
      obtain ⟨hreply, hv⟩ := performs_submission D hstep hsub
      rw [commitAt_retry D.component hlive hfound hlog hentry] at hreply hv
      exact ⟨hreply, hv⟩
    · intro before e reply after u v sub ack _ hu hstep hsub hfound hother
      obtain ⟨hreply, hv⟩ := performs_submission D hstep hsub
      rw [commitAt_conflict D.component hfound hother] at hreply hv
      exact ⟨hreply, by rw [hv]⟩
    · rintro before after u rfl hu hfrozen
      obtain ⟨u', hu', hafter⟩ := Run.append_iff.mp run
      obtain rfl := Run.unique (devicePerforms_unique D) hu hu'
      exact DeviceRun.frozenSame hafter (DeviceRun.recordsSound hu (.initial _)) hfrozen

/-! ## One receipt -/

/-- A component with room for one acknowledgement and a key that signs nothing. -/
def firstCheckpoint : DeviceCheckpoint :=
  { component := { sign := fun _ => [], capacity := 1, capacity_pos := le_refl 1 }
    verify := fun _ _ => true }

/-- The first entry of a log, submitted under the zero digest at time 200. -/
def firstSubmission (entryHash : Bytes) : DeviceSubmission :=
  { now := .ok 200, logId := "00000000000000000000000000000000", sequence := 1
    previousEntryHash := List.replicate 48 0, entryHash, state := List.replicate 48 0 }

/-- The component after it recorded its first entry, with an upload begun. -/
def firstRecorded (entryHash : Bytes) : DeviceState :=
  { component :=
      { records := [firstCheckpoint.component.acknowledgement (firstSubmission entryHash) 200]
        state := some (List.replicate 48 0), frozen := false, fault := .ok }
    uplink := .new, head := 1 }

/-- Provisioned, asked for one acknowledgement, and an upload begun. -/
def firstEvents (P : Primitives) (entryHash : Bytes) : List (DeviceEvent P × DeviceReply) :=
  [(.provision (List.replicate 48 0), .provisioned (.ok ())),
    (.commit (firstSubmission entryHash),
      .recorded (.ok (firstCheckpoint.component.acknowledgement (firstSubmission entryHash) 200))),
    (.beginUpload, .done)]

theorem deviceRun_first (P : Primitives) (entryHash : Bytes) :
    DeviceRun firstCheckpoint (firstEvents P entryHash) (firstRecorded entryHash) := by
  have hprovision : DevicePerforms firstCheckpoint .new
      ((.provision (List.replicate 48 0) : DeviceEvent P), .provisioned (.ok ()))
      { DeviceState.new with
        component := { ComponentState.new with state := some (List.replicate 48 0) } } := rfl
  have hcommit : DevicePerforms firstCheckpoint
      { DeviceState.new with
        component := { ComponentState.new with state := some (List.replicate 48 0) } }
      ((.commit (firstSubmission entryHash) : DeviceEvent P), .recorded (.ok
        (firstCheckpoint.component.acknowledgement (firstSubmission entryHash) 200)))
      { firstRecorded entryHash with head := 0 } := rfl
  have hbegin : DevicePerforms firstCheckpoint { firstRecorded entryHash with head := 0 }
      ((.beginUpload : DeviceEvent P), .done) (firstRecorded entryHash) := rfl
  exact ((Run.single hprovision).snoc hcommit).snoc hbegin

/-- A primary with one published receipt. -/
theorem exists_loggedPrimary :
    ∃ (primary : LoggedPrimary (tabled [])) (wire entry : Bytes),
      appendedWire primary.store 1 = some wire ∧ appendedEntry primary.store 1 = some entry := by
  obtain ⟨events, t, e, hrun, houtbox, hwire⟩ := exists_published_first
  obtain ⟨wire, hwire⟩ := Option.isSome_iff_exists.mp hwire
  have htimes : TimesKept firstStore := by
    intro id r hr
    cases hr
  have hintact := (StoreRun.logIntact (.initial rfl rfl) htimes hrun).1
  have happended : appendedWire t.store (((0 : Nat) : Int) + 1) = some wire := by
    simp [appendedWire, houtbox, hwire]
  obtain ⟨e', -, -, hentry⟩ := appendedWire_eq_some happended
  exact ⟨⟨t.store, hintact⟩, wire, e'.digest, happended, hentry⟩

/-- The upload of the published receipt, whatever entry the component recorded. -/
theorem performs_firstUpload {P : Primitives} {primary : LoggedPrimary P} {wire : Bytes}
    (h : appendedWire primary.store 1 = some wire) (entryHash : Bytes) :
    DevicePerforms firstCheckpoint (firstRecorded entryHash) (.uploadNext primary, .sent (some 1))
      { firstRecorded entryHash with uplink := { uploaded := 1, collected := [wire] } } := by
  have hwire : appendedWire primary.store (((0 : Nat) : Int) + 1) = some wire := h
  simp only [DevicePerforms, DeviceEvent.perform, sendNext, uploadNext]
  rw [show (firstRecorded entryHash).uplink.uploaded = 0 from rfl, hwire]
  rfl

theorem entriesAgree_firstEvents (P : Primitives) (entryHash : Bytes) :
    EntriesAgree firstCheckpoint (firstEvents P entryHash) := by
  intro before primary reply after u hevents
  have hmem : (.uploadNext primary, reply) ∈ firstEvents P entryHash := by
    rw [hevents]
    simp
  simp [firstEvents] at hmem

/-- A receipt that was acknowledged and then uploaded. -/
theorem deviceLaw_first :
    ∃ (primary : LoggedPrimary (tabled [])) (wire entry : Bytes),
      DeviceLaw firstCheckpoint
        (firstEvents (tabled []) entry ++ [(.uploadNext primary, .sent (some 1))])
        { firstRecorded entry with uplink := { uploaded := 1, collected := [wire] } } := by
  obtain ⟨primary, wire, entry, hwire, hentry⟩ := exists_loggedPrimary
  have hbefore := deviceRun_first (tabled []) entry
  have hrun := hbefore.snoc (performs_firstUpload hwire entry)
  refine ⟨primary, wire, entry, (deviceLaw_iff hrun).mpr ?_⟩
  refine (entriesAgree_snoc_iff hbefore).mpr ⟨entriesAgree_firstEvents _ _, ?_⟩
  rintro primary' heq entry' - hentry'
  cases heq
  obtain rfl : entry = entry' := Option.some.inj (hentry.symm.trans hentry')
  exact ⟨_, rfl, rfl⟩

/-! ## A receipt nobody acknowledged -/

/-- An entry hash other than `entry`. -/
def otherEntry (entry : Bytes) : Bytes :=
  if entry = List.replicate 48 0 then List.replicate 48 1 else List.replicate 48 0

theorem otherEntry_ne (entry : Bytes) : otherEntry entry ≠ entry := by
  unfold otherEntry
  split
  · rename_i h
    rw [h]
    decide
  · rename_i h
    exact fun heq => h heq.symm

/-- A component that recorded another entry at sequence 1 has the receipt of a
primary bound later uploaded in its place. -/
theorem deviceLaw_foreign :
    ∃ (primary : LoggedPrimary (tabled [])) (wire entry : Bytes),
      appendedEntry primary.store 1 = some entry
        ∧ DeviceRun firstCheckpoint
          (firstEvents (tabled []) (otherEntry entry) ++ [(.uploadNext primary, .sent (some 1))])
          { firstRecorded (otherEntry entry) with
            uplink := { uploaded := 1, collected := [wire] } }
        ∧ ¬ DeviceLaw firstCheckpoint
          (firstEvents (tabled []) (otherEntry entry) ++ [(.uploadNext primary, .sent (some 1))])
          { firstRecorded (otherEntry entry) with
            uplink := { uploaded := 1, collected := [wire] } } := by
  obtain ⟨primary, wire, entry, hwire, hentry⟩ := exists_loggedPrimary
  have hrun := (deviceRun_first (tabled []) (otherEntry entry)).snoc
    (performs_firstUpload hwire (otherEntry entry))
  refine ⟨primary, wire, entry, hentry, hrun, fun hlaw => ?_⟩
  obtain ⟨receipt, record, hdecoded, hrecord, hdigest⟩ := hlaw.recorded 0 wire rfl
  have hwire' : appendedWire primary.store (((0 : Nat) : Int) + 1) = some wire := hwire
  obtain ⟨receipt', entry', hdecoded', -, hentry', hdigest'⟩ := primary.receipt hwire'
  obtain rfl : receipt = receipt' := Except.ok.inj (hdecoded.symm.trans hdecoded')
  obtain rfl : entry = entry' := Option.some.inj (hentry.symm.trans hentry')
  have hsame : record.entryHash = entry := Except.ok.inj (hdigest.symm.trans hdigest')
  cases hrecord
  exact otherEntry_ne entry hsame

end RatifyProtocol.V2
