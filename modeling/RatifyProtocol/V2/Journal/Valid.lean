import Mathlib.Data.List.Induction
import RatifyProtocol.V2.Journal.SnapshotText
import RatifyProtocol.V2.Journal.Transition
set_option autoImplicit false

/-!
# Journal: what the validations establish

A validated record, taken apart: key roles that never share a key, status-key
epochs that follow each other, issuer states bound to the history; and what an
imported snapshot is.
-/

namespace RatifyProtocol.V2

open Foundation

/-! ## Key roles -/

/-- The two bindings name one key ID or one public-key component. -/
def KeyRoleBindingV2.Overlaps (b c : KeyRoleBindingV2) : Prop :=
  b.keyId = c.keyId ∨ ∃ component, b.hasComponent component ∧ c.hasComponent component

theorem KeyRoleBindingV2.Overlaps.symm {b c : KeyRoleBindingV2} (h : b.Overlaps c) :
    c.Overlaps b := by
  rcases h with h | ⟨component, hb, hc⟩
  · exact .inl h.symm
  · exact .inr ⟨component, hc, hb⟩

/-- A binding that overlaps one already met is that one. -/
theorem eq_of_met {met : List KeyRoleBindingV2} {b prior : KeyRoleBindingV2}
    (hid : (met.any fun prior => prior.keyId == b.keyId && prior != b) = false)
    (hed : (met.any fun prior => prior.hasComponent b.ed25519Digest && prior != b) = false)
    (hml : (met.any fun prior => prior.hasComponent b.mlDsa65Digest && prior != b) = false)
    (hprior : prior ∈ met) (h : prior.Overlaps b) : prior = b := by
  rw [List.any_eq_false] at hid hed hml
  by_contra hne
  rcases h with h | ⟨component, hp, hb⟩
  · exact hid prior hprior (by simp [h, hne])
  · simp only [KeyRoleBindingV2.hasComponent, Bool.or_eq_true, beq_iff_eq] at hb
    rcases hb with rfl | rfl
    · exact hed prior hprior (by simp [hp, hne])
    · exact hml prior hprior (by simp [hp, hne])

theorem validateKeyRoleHistoryFrom_ok {met history : List KeyRoleBindingV2} {u : Unit}
    (h : validateKeyRoleHistoryFrom met history = .ok u) :
    ∀ b ∈ history, ∀ c ∈ met ++ history, c.Overlaps b → c = b := by
  induction history generalizing met with
  | nil => intro b hb; simp at hb
  | cons b history ih =>
    obtain ⟨-, h⟩ := refuseIf_bind_eq_ok_iff.mp h
    obtain ⟨hid, h⟩ := refuseIf_bind_eq_ok_iff.mp h
    obtain ⟨hed, h⟩ := refuseIf_bind_eq_ok_iff.mp h
    obtain ⟨hml, h⟩ := refuseIf_bind_eq_ok_iff.mp h
    have hrest := ih h
    intro x hx c hc hover
    rcases List.mem_cons.mp hx with rfl | hx
    · rcases List.mem_append.mp hc with hc | hc
      · exact eq_of_met hid hed hml hc hover
      rcases List.mem_cons.mp hc with rfl | hc
      · rfl
      · exact (hrest c hc x (by simp) hover.symm).symm
    · exact hrest x hx c (by simpa using hc) hover

/-- No key ID or component of a valid history is bound twice. -/
theorem eq_of_overlaps {history : List KeyRoleBindingV2} {u : Unit}
    (h : validateKeyRoleHistory history = .ok u) {b c : KeyRoleBindingV2} (hb : b ∈ history)
    (hc : c ∈ history) (hover : b.Overlaps c) : b = c :=
  validateKeyRoleHistoryFrom_ok h c hc b (by simpa using hb) hover

/-! ## Status keys -/

/-- The epochs of each issuer ascend through the history. -/
def EpochsAscend (history : List StatusKeyBindingV2) : Prop :=
  history.Pairwise fun a b => a.issuerId = b.issuerId → a.epoch < b.epoch

theorem le_lastEpoch {met : List StatusKeyBindingV2} (h : EpochsAscend met)
    {b : StatusKeyBindingV2} (hb : b ∈ met) : b.epoch ≤ lastEpoch met b.issuerId := by
  induction met using List.reverseRecOn with
  | nil => simp at hb
  | append_singleton met c ih =>
    obtain ⟨hmet, -, hlast⟩ := List.pairwise_append.mp h
    simp only [lastEpoch, List.reverse_append, List.reverse_cons, List.reverse_nil,
      List.nil_append, List.cons_append, List.find?_cons]
    split
    · rename_i hissuer
      rcases List.mem_append.mp hb with hb | hb
      · exact le_of_lt (hlast b hb c (by simp) (beq_iff_eq.mp hissuer).symm)
      · rw [List.mem_singleton.mp hb]
        rfl
    · rename_i hissuer
      rcases List.mem_append.mp hb with hb | hb
      · exact ih hmet hb
      · rw [List.mem_singleton.mp hb] at hissuer
        simp at hissuer

theorem validateStatusKeyHistoryFrom_ok {roles : List KeyRoleBindingV2}
    {met history : List StatusKeyBindingV2} {u : Unit}
    (h : validateStatusKeyHistoryFrom roles met history = .ok u) (hmet : EpochsAscend met) :
    EpochsAscend (met ++ history) := by
  induction history generalizing met with
  | nil => simpa using hmet
  | cons b history ih =>
    obtain ⟨-, h⟩ := refuseIf_bind_eq_ok_iff.mp h
    obtain ⟨hepoch, h⟩ := refuseIf_bind_eq_ok_iff.mp h
    obtain ⟨-, h⟩ := refuseIf_bind_eq_ok_iff.mp h
    obtain ⟨-, h⟩ := refuseIf_bind_eq_ok_iff.mp h
    obtain ⟨-, h⟩ := refuseIf_bind_eq_ok_iff.mp h
    obtain ⟨-, h⟩ := refuseIf_bind_eq_ok_iff.mp h
    have hnext : EpochsAscend (met ++ [b]) := by
      refine List.pairwise_append.mpr ⟨hmet, List.pairwise_singleton _ _, ?_⟩
      intro a ha c hc hissuer
      rw [List.mem_singleton.mp hc] at hissuer ⊢
      have hle := le_lastEpoch hmet ha
      rw [hissuer] at hle
      simp only [bne_eq_false_iff_eq] at hepoch
      omega
    simpa using ih h hnext

theorem epochsAscend_of_valid {history : List StatusKeyBindingV2} {roles : List KeyRoleBindingV2}
    {u : Unit} (h : validateStatusKeyHistory history roles = .ok u) : EpochsAscend history := by
  simpa using validateStatusKeyHistoryFrom_ok h List.Pairwise.nil

/-- An issuer's epoch has one binding. -/
theorem EpochsAscend.eq_of_epoch {history : List StatusKeyBindingV2} (h : EpochsAscend history)
    {b c : StatusKeyBindingV2} (hb : b ∈ history) (hc : c ∈ history)
    (hissuer : b.issuerId = c.issuerId) (hepoch : b.epoch = c.epoch) : b = c := by
  obtain ⟨i, hi, rfl⟩ := List.mem_iff_getElem.mp hb
  obtain ⟨j, hj, rfl⟩ := List.mem_iff_getElem.mp hc
  have hpairs := List.pairwise_iff_getElem.mp h
  rcases Nat.lt_trichotomy i j with hij | rfl | hij
  · have hlt := hpairs i j hi hj hij hissuer
    omega
  · rfl
  · have hlt := hpairs j i hj hi hij hissuer.symm
    omega

/-- In a valid history an issuer's epoch is bound to the entry that names it. -/
theorem statusBindingAtEpoch_eq_some_iff {history : List StatusKeyBindingV2}
    (h : EpochsAscend history) {issuerId : String} {epoch : Nat} {b : StatusKeyBindingV2} :
    statusBindingAtEpoch history issuerId epoch = some b
      ↔ b ∈ history ∧ b.issuerId = issuerId ∧ b.epoch = epoch := by
  constructor
  · intro hfind
    have hmatch := List.find?_some hfind
    simp only [Bool.and_eq_true, beq_iff_eq] at hmatch
    exact ⟨List.mem_of_find?_eq_some hfind, hmatch⟩
  · rintro ⟨hb, rfl, rfl⟩
    cases hfind : statusBindingAtEpoch history b.issuerId b.epoch with
    | none =>
      have hnone := List.find?_eq_none.mp hfind b hb
      simp at hnone
    | some c =>
      have hmatch := List.find?_some hfind
      simp only [Bool.and_eq_true, beq_iff_eq] at hmatch
      rw [h.eq_of_epoch (List.mem_of_find?_eq_some hfind) hb hmatch.1 hmatch.2]

/-! ## Issuer states -/

variable (P : Primitives)

/-- What validation establishes of one issuer's state. -/
structure IssuerValid (history : List StatusKeyBindingV2) (issuerId : String)
    (s : RevocationStatusStateV2) : Prop where
  issuer : issuerId ≠ "" ∧ s.issuerId = issuerId ∧ s.statusKeyEpoch ≠ 0
  binding : validateBinding s issuerId s.statusKeyEpoch = .ok ()
  accepted : validateAcceptedState P s = .ok ()
  key : ∃ b, statusBindingAtEpoch history issuerId s.statusKeyEpoch = some b
    ∧ b.statusKeyId = s.statusKeyId
  observations : validateJournalObservations history issuerId s.observations = .ok ()
  maxObserved : s.maxObservedSequence = highestObserved s
  retired : ∀ k, k ∈ s.retiredStatusKeyIds ↔ k ∈ retiredKeys history issuerId s.statusKeyEpoch

theorem validateIssuerState_eq_ok_iff {history : List StatusKeyBindingV2} {issuerId : String}
    {s : RevocationStatusStateV2} {u : Unit} :
    validateIssuerState P history issuerId s = .ok u ↔ IssuerValid P history issuerId s := by
  have hkey : ((statusBindingAtEpoch history issuerId s.statusKeyEpoch).all
      fun b => b.statusKeyId != s.statusKeyId) = false
      ↔ ∃ b, statusBindingAtEpoch history issuerId s.statusKeyEpoch = some b
        ∧ b.statusKeyId = s.statusKeyId := by
    cases statusBindingAtEpoch history issuerId s.statusKeyEpoch <;> simp
  have hissuer : (issuerId == "" || s.issuerId != issuerId || s.statusKeyEpoch == 0) = false
      ↔ issuerId ≠ "" ∧ s.issuerId = issuerId ∧ s.statusKeyEpoch ≠ 0 := by
    simp [and_assoc]
  have hlast : (s.maxObservedSequence != highestObserved s
      || !equalSets s.retiredStatusKeyIds (retiredKeys history issuerId s.statusKeyEpoch)) = false
      ↔ s.maxObservedSequence = highestObserved s
        ∧ ∀ k, k ∈ s.retiredStatusKeyIds
          ↔ k ∈ retiredKeys history issuerId s.statusKeyEpoch := by
    simp [equalSets_iff]
  unfold validateIssuerState
  simp only [bind_eq_ok_iff, withContext_eq_ok_iff, refuseIf_eq_ok_iff, hkey, hissuer, hlast]
  constructor
  · rintro ⟨_, h₁, _, h₂, _, h₃, _, h₄, _, h₅, h₆, h₇⟩
    exact ⟨h₁, h₂, h₃, h₄, h₅, h₆, h₇⟩
  · rintro ⟨h₁, h₂, h₃, h₄, h₅, h₆, h₇⟩
    exact ⟨(), h₁, (), h₂, (), h₃, (), h₄, (), h₅, h₆, h₇⟩

theorem validateIssuerStates_ok {history : List StatusKeyBindingV2}
    {entries : List (String × RevocationStatusStateV2)} {u : Unit}
    (h : validateIssuerStates P history entries = .ok u) :
    ∀ e ∈ entries, IssuerValid P history e.1 e.2 := by
  induction entries with
  | nil => intro e he; simp at he
  | cons e entries ih =>
    obtain ⟨v, hv, hrest⟩ := bind_eq_ok_iff.mp h
    intro x hx
    rcases List.mem_cons.mp hx with rfl | hx
    · exact (validateIssuerState_eq_ok_iff P).mp hv
    · exact ih hrest x hx

/-! ## Records -/

variable (J : JournalPrimitives)

/-- What validation establishes of a record. -/
structure JournalValid (j : SecurityJournalV2) : Prop where
  genesis : j.generation = 0 → j.previousDigest = ""
  predecessor : 0 < j.generation → j.previousDigest ≠ ""
  digest : securityJournalDigestV2 J j = .ok j.digest
  issuers : ∀ id s, j.statusByIssuer.get? id = some s →
    IssuerValid J.toPrimitives j.statusKeyHistory id s
  keyRoles : validateKeyRoleHistory j.keyRoleHistory = .ok ()
  statusKeys : validateStatusKeyHistory j.statusKeyHistory j.keyRoleHistory = .ok ()
  latest : statesAtLatestEpoch j = true

theorem journalValid_of_ok {j : SecurityJournalV2} {u : Unit}
    (h : validateSecurityJournalInner J j = .ok u) : JournalValid J j := by
  obtain ⟨-, h⟩ := refuseIf_bind_eq_ok_iff.mp h
  obtain ⟨hgenesis, h⟩ := refuseIf_bind_eq_ok_iff.mp h
  obtain ⟨-, h⟩ := refuseIf_bind_eq_ok_iff.mp h
  obtain ⟨hprevious, h⟩ := refuseIf_bind_eq_ok_iff.mp h
  obtain ⟨digest, hdigest, h⟩ := bind_eq_ok_iff.mp h
  obtain ⟨hmatch, h⟩ := refuseIf_bind_eq_ok_iff.mp h
  obtain ⟨v, hissuers, h⟩ := bind_eq_ok_iff.mp h
  obtain ⟨w, hroles, h⟩ := bind_eq_ok_iff.mp h
  obtain ⟨x, hkeys, h⟩ := bind_eq_ok_iff.mp h
  have hlatest := refuseIf_eq_ok_iff.mp h
  simp only [bne_eq_false_iff_eq] at hmatch
  refine {
    genesis := fun hzero => by simpa [hzero] using hgenesis
    predecessor := fun hpos => ?_
    digest := hmatch ▸ hdigest
    issuers := fun id s hs => ?_
    keyRoles := hroles
    statusKeys := hkeys
    latest := by simpa using hlatest }
  · intro hempty
    simp [hpos, hempty] at hprevious
  · exact validateIssuerStates_ok _ hissuers (id, s) (OrderedMap.mem_entries_iff.mpr hs)

theorem version_of_decodeSnapshot {snapshot : Bytes} {j : SecurityJournalV2}
    (h : decodeSnapshot snapshot = .ok j) : j.version = securityJournalVersionV2 := by
  obtain ⟨-, h⟩ := refuseIf_bind_eq_ok_iff.mp h
  obtain ⟨-, h⟩ := refuseIf_bind_eq_ok_iff.mp h
  obtain ⟨root, -, h⟩ := bind_eq_ok_iff.mp h
  obtain ⟨o, -, h⟩ := bind_eq_ok_iff.mp h
  obtain ⟨_, -, h⟩ := bind_eq_ok_iff.mp h
  obtain ⟨version, -, h⟩ := bind_eq_ok_iff.mp h
  obtain ⟨hversion, h⟩ := refuseIf_bind_eq_ok_iff.mp h
  obtain ⟨generation, -, h⟩ := bind_eq_ok_iff.mp h
  obtain ⟨previous, -, h⟩ := bind_eq_ok_iff.mp h
  obtain ⟨-, h⟩ := refuseIf_bind_eq_ok_iff.mp h
  obtain ⟨roles, -, h⟩ := bind_eq_ok_iff.mp h
  obtain ⟨keyRoleHistory, -, h⟩ := bind_eq_ok_iff.mp h
  obtain ⟨statusKeys, -, h⟩ := bind_eq_ok_iff.mp h
  obtain ⟨statusKeyHistory, -, h⟩ := bind_eq_ok_iff.mp h
  obtain ⟨issuers, -, h⟩ := bind_eq_ok_iff.mp h
  obtain ⟨statusByIssuer, -, h⟩ := bind_eq_ok_iff.mp h
  rw [← Except.ok.inj h]
  simpa using hversion

/-- What an imported journal is. -/
structure Imported (snapshot : Bytes) (head : SecurityJournalHeadV2) (j : SecurityJournalV2) :
    Prop where
  version : j.version = securityJournalVersionV2
  generation : j.generation = head.generation
  digest : j.digest = head.digest
  bytes : securityJournalSnapshotBytesV2 j = .ok snapshot
  valid : validateSecurityJournalInner J j = .ok ()

theorem imported_of_ok {snapshot : Bytes} {head : SecurityJournalHeadV2} {j : SecurityJournalV2}
    (h : importSecurityJournalSnapshotV2 J snapshot head = .ok j) : Imported J snapshot head j := by
  rw [importSecurityJournalSnapshotV2, classify_eq_ok_iff] at h
  obtain ⟨journal, hjournal, h⟩ := bind_eq_ok_iff.mp h
  obtain ⟨data, hdata, h⟩ := bind_eq_ok_iff.mp h
  obtain ⟨hcanonical, h⟩ := refuseIf_bind_eq_ok_iff.mp h
  split at h
  · exact absurd h err_ne_ok
  rename_i hhead
  obtain ⟨v, hvalid, h⟩ := bind_eq_ok_iff.mp h
  simp only [not_or, not_not] at hhead
  simp only [bne_eq_false_iff_eq] at hcanonical
  have hversion := version_of_decodeSnapshot hjournal
  obtain rfl := Except.ok.inj h
  exact {
    version := hversion
    generation := hhead.1.symm
    digest := rfl
    bytes := hcanonical ▸ hdata
    valid := hvalid }

end RatifyProtocol.V2
