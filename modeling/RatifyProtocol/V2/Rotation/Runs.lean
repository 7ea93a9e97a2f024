import RatifyProtocol.Foundation.HashChain
import RatifyProtocol.Foundation.Run
import RatifyProtocol.V2.Accepting
import RatifyProtocol.V2.Rotation.Journal
set_option autoImplicit false

/-!
# Key rotation: runs of the journal

Every sequence of accept and recover calls on one journal keeps the accepted
statements of the current epoch one hash chain and the used key IDs distinct;
what a call can do is read off the statements accepted so far.
-/

namespace RatifyProtocol.V2

open Foundation

/-! ## Runs -/

/-- A call on the journal. -/
inductive RotationCall where
  | accept (s : KeyRotationStatementV2) (now futureSkew : Int)
  | recover (newRecoveryEpoch : Int) (newGenesisKey : HybridPublicKey)

/-- The statement that a call presents. -/
def RotationCall.statements : RotationCall → List KeyRotationStatementV2
  | .accept s _ _ => [s]
  | .recover _ _ => []

/-- The journal, with the statements accepted in the current recovery epoch and in
every epoch, newest first, and the keys that were ever current. -/
structure RotationWorld where
  journal : KeyRotationV2Journal
  accepted : List KeyRotationStatementV2
  everAccepted : List KeyRotationStatementV2
  everCurrent : List HybridPublicKey

def RotationWorld.start (journal : KeyRotationV2Journal) : RotationWorld :=
  { journal, accepted := [], everAccepted := [], everCurrent := [journal.state.currentKey] }

variable (P : Primitives)

/-- The world after a call: the caller persists the returned journal. -/
def RotationWorld.perform (w : RotationWorld) : RotationCall → RotationWorld
  | .accept s now futureSkew =>
    match acceptKeyRotationStatementV2 P s w.journal now futureSkew with
    | (journal, .ok .appended) =>
      { journal, accepted := s :: w.accepted, everAccepted := s :: w.everAccepted
        everCurrent := s.newKey :: w.everCurrent }
    | (journal, _) => { w with journal }
  | .recover epoch key =>
    match recoverKeyRotationV2 P w.journal epoch key with
    | .ok journal =>
      { journal, accepted := [], everAccepted := w.everAccepted
        everCurrent := key :: w.everCurrent }
    | .error _ => w

/-- The world with one more accepted statement. -/
def RotationWorld.append (w : RotationWorld) (s : KeyRotationStatementV2) (d : Bytes) :
    RotationWorld :=
  { journal := w.journal.advance s d, accepted := s :: w.accepted
    everAccepted := s :: w.everAccepted, everCurrent := s.newKey :: w.everCurrent }

/-- The world in the first moment of a new recovery epoch. -/
def RotationWorld.recovered (w : RotationWorld) (next : KeyRotationV2Journal)
    (key : HybridPublicKey) : RotationWorld :=
  { journal := next, accepted := [], everAccepted := w.everAccepted
    everCurrent := key :: w.everCurrent }

@[simp] theorem RotationWorld.recovered_journal (w : RotationWorld) (next : KeyRotationV2Journal)
    (key : HybridPublicKey) : (w.recovered next key).journal = next := rfl

theorem RotationWorld.perform_appended {w : RotationWorld} {s : KeyRotationStatementV2}
    {now futureSkew : Int} {d : Bytes}
    (h : acceptKeyRotationStatementV2 P s w.journal now futureSkew
      = (w.journal.advance s d, .ok .appended)) :
    w.perform P (.accept s now futureSkew) = w.append s d := by
  simp only [RotationWorld.perform, h, RotationWorld.append]

theorem RotationWorld.perform_recovered {w : RotationWorld} {epoch : Int} {key : HybridPublicKey}
    {next : KeyRotationV2Journal} (h : recoverKeyRotationV2 P w.journal epoch key = .ok next) :
    w.perform P (.recover epoch key) = w.recovered next key := by
  simp only [RotationWorld.perform, h, RotationWorld.recovered]

/-- The world after calls on a new journal. -/
abbrev RotationRun (journal : KeyRotationV2Journal) (calls : List RotationCall)
    (w : RotationWorld) : Prop :=
  Run (fun a c b => b = a.perform P c) (RotationWorld.start journal) calls w

/-- The bytes hashed for the statements that calls present. -/
def rotationTexts (calls : List RotationCall) : Set Bytes :=
  {t | ∃ s ∈ calls.flatMap RotationCall.statements, ∃ b,
    keyRotationStatementV2SignableBytes P s = .ok b ∧ t = statementBodyText 4 b}

/-! ## The accepted statements -/

/-- The body digest of a statement, or nothing where it has none. -/
def rotationDigest (s : KeyRotationStatementV2) : Bytes :=
  match keyRotationStatementV2Digest P s with
  | .ok digest => digest
  | .error _ => []

/-- Statements as a hash chain. -/
def rotationChain : HashChain KeyRotationStatementV2 Bytes where
  previous := KeyRotationStatementV2.previousStatementHash
  digest := rotationDigest P
  genesis := zeroHash

/-- What the journal retains of an accepted statement. -/
def acceptedEntry (s : KeyRotationStatementV2) : KeyRotationV2AcceptedEntry :=
  { sequence := s.sequence, bodyDigest := rotationDigest P s, oldKey := s.oldKey }

/-- Statements newest first take the sequences down to `1`. -/
def InSequence : List KeyRotationStatementV2 → Prop
  | [] => True
  | s :: ss => s.sequence = (ss.length : Int) + 1 ∧ InSequence ss

/-- The journal holds exactly the statements accepted in its recovery epoch, and
every key that was ever current is used. -/
structure RotationLaw (w : RotationWorld) : Prop where
  distinct : w.journal.state.usedKeyIds.Nodup
  everCurrent : ∀ key ∈ w.everCurrent, ∃ id, keyIdV2 P key = .ok id
    ∧ id ∈ w.journal.state.usedKeyIds
  current : w.journal.state.currentKey ∈ w.everCurrent
  sequence : w.journal.state.sequence = w.accepted.length
  retained : w.journal.accepted = (w.accepted.map (acceptedEntry P)).reverse
  inSequence : InSequence w.accepted
  /-- Each accepted statement names the body digest of its predecessor. -/
  linked : (rotationChain P).Linked w.accepted
  headHash : w.journal.state.headHash = (rotationChain P).head w.accepted
  signed : ∀ s ∈ w.accepted, SignedStatement P s
    ∧ s.authorityId = w.journal.state.authorityId
    ∧ s.recoveryEpoch = w.journal.state.recoveryEpoch ∧ s.role = w.journal.state.role

variable {P}

theorem rotationDigest_eq {s : KeyRotationStatementV2} {d : Bytes}
    (h : keyRotationStatementV2Digest P s = .ok d) : rotationDigest P s = d := by
  rw [rotationDigest, h]

theorem InSequence.getElem {ss : List KeyRotationStatementV2} (h : InSequence ss) {i : Nat}
    {s : KeyRotationStatementV2} (hs : ss[i]? = some s) :
    s.sequence = (ss.length : Int) - i := by
  induction ss generalizing i with
  | nil => simp at hs
  | cons a ss ih =>
    cases i with
    | zero =>
      rw [List.getElem?_cons_zero, Option.some.injEq] at hs
      rw [← hs, h.1, List.length_cons]
      omega
    | succ i =>
      rw [List.getElem?_cons_succ] at hs
      rw [ih h.2 hs, List.length_cons]
      omega

/-- The journal's entry at an accepted sequence is that of the statement accepted there. -/
theorem RotationLaw.entry {w : RotationWorld} (h : RotationLaw P w) {k : Int} (hpos : 0 < k)
    (hle : k ≤ w.journal.state.sequence) :
    ∃ a ∈ w.accepted, a.sequence = k
      ∧ w.journal.accepted[(k - 1).toNat]? = some (acceptedEntry P a) := by
  rw [h.sequence] at hle
  have hindex : w.accepted.length - k.toNat < w.accepted.length := by omega
  have hget : w.accepted[w.accepted.length - k.toNat]?
      = some w.accepted[w.accepted.length - k.toNat] := List.getElem?_eq_getElem hindex
  refine ⟨_, List.getElem_mem hindex, ?_, ?_⟩
  · rw [h.inSequence.getElem hget]
    omega
  · have hback : w.accepted.length - 1 - (k - 1).toNat = w.accepted.length - k.toNat := by omega
    rw [h.retained, List.getElem?_reverse (by rw [List.length_map]; omega), List.length_map,
      hback, List.getElem?_map, hget, Option.map_some]

/-- A statement accepted in this epoch is the one at its sequence. -/
theorem RotationLaw.eq_of_sequence {w : RotationWorld} (h : RotationLaw P w)
    {a b : KeyRotationStatementV2} (ha : a ∈ w.accepted) (hb : b ∈ w.accepted)
    (hab : a.sequence = b.sequence) : a = b := by
  obtain ⟨i, hi⟩ := List.mem_iff_getElem?.mp ha
  obtain ⟨j, hj⟩ := List.mem_iff_getElem?.mp hb
  have hseqa := h.inSequence.getElem hi
  have hseqb := h.inSequence.getElem hj
  have hij : i = j := by omega
  rw [hij, hj, Option.some.injEq] at hi
  exact hi.symm

theorem RotationLaw.bounds {w : RotationWorld} (h : RotationLaw P w)
    {a : KeyRotationStatementV2} (ha : a ∈ w.accepted) :
    0 < a.sequence ∧ a.sequence ≤ w.journal.state.sequence := by
  obtain ⟨i, hi⟩ := List.mem_iff_getElem?.mp ha
  have hlt := (List.getElem?_eq_some_iff.mp hi).1
  have hseq := h.inSequence.getElem hi
  rw [h.sequence]
  omega

/-! ## Every run keeps the law -/

/-- The start of a new journal keeps the law. -/
theorem rotationLaw_start {authorityId role : String} {epoch : Int} {key : HybridPublicKey}
    {journal : KeyRotationV2Journal}
    (hnew : newKeyRotationV2Journal P authorityId epoch role key = .ok journal) :
    RotationLaw P (RotationWorld.start journal) := by
  unfold newKeyRotationV2Journal at hnew
  split at hnew
  · cases hnew
  rename_i id hid
  split at hnew
  · cases hnew
  split at hnew
  · cases hnew
  obtain rfl := Except.ok.inj hnew
  exact {
    distinct := List.nodup_singleton id
    everCurrent := by
      intro k hk
      obtain rfl := List.mem_singleton.mp hk
      exact ⟨id, hid, List.mem_singleton_self id⟩
    current := List.mem_singleton_self key
    sequence := rfl
    retained := rfl
    inSequence := trivial
    linked := trivial
    headHash := rfl
    signed := by simp [RotationWorld.start] }

/-- An appended statement keeps the law. -/
theorem RotationLaw.advance {w : RotationWorld} (h : RotationLaw P w) {s : KeyRotationStatementV2}
    {now futureSkew : Int} {d : Bytes} (hd : nextDigest P s w.journal.state now futureSkew = .ok d) :
    RotationLaw P (w.append s d) := by
  obtain ⟨hsigned, hdigest, hunused, hkey, hauthority, hepoch, hrole, hsequence, hprevious⟩ :=
    nextDigest_eq_ok hd
  obtain ⟨-, hnew, -⟩ := (validateStatement_eq_ok_iff.mp hsigned.valid).1.keyIds
  have hnext : s.sequence = (w.accepted.length : Int) + 1 := by rw [hsequence, h.sequence]
  exact {
    distinct := by
      show (w.journal.state.usedKeyIds ++ [s.newKeyId]).Nodup
      rw [List.nodup_append]
      refine ⟨h.distinct, List.nodup_singleton _, ?_⟩
      intro a ha b hb hab
      obtain rfl := List.mem_singleton.mp hb
      exact hunused (hab ▸ ha)
    everCurrent := by
      intro key hmem
      show ∃ id, keyIdV2 P key = .ok id ∧ id ∈ w.journal.state.usedKeyIds ++ [s.newKeyId]
      rcases List.mem_cons.mp hmem with rfl | hmem
      · exact ⟨s.newKeyId, hnew, by simp⟩
      · obtain ⟨id, hid, hused⟩ := h.everCurrent key hmem
        exact ⟨id, hid, List.mem_append_left _ hused⟩
    current := List.mem_cons_self
    sequence := by
      show s.sequence = ((s :: w.accepted).length : Int)
      rw [hnext, List.length_cons]
      omega
    retained := by
      have hentry : ({ sequence := s.sequence, bodyDigest := d, oldKey := s.oldKey }
          : KeyRotationV2AcceptedEntry) = acceptedEntry P s := by
        rw [acceptedEntry, rotationDigest_eq hdigest]
      simp only [RotationWorld.append, KeyRotationV2Journal.advance, hentry, h.retained,
        List.map_cons, List.reverse_cons]
    inSequence := ⟨hnext, h.inSequence⟩
    linked := ⟨hprevious.trans h.headHash, h.linked⟩
    headHash := (rotationDigest_eq hdigest).symm
    signed := by
      intro a ha
      rcases List.mem_cons.mp ha with rfl | ha
      · exact ⟨hsigned, hauthority, hepoch, hrole⟩
      · exact h.signed a ha }

/-- Freezing keeps the law. -/
theorem RotationLaw.freeze {w : RotationWorld} (h : RotationLaw P w) :
    RotationLaw P { w with journal := { w.journal with frozen := true } } :=
  ⟨h.distinct, h.everCurrent, h.current, h.sequence, h.retained, h.inSequence, h.linked, h.headHash,
    h.signed⟩

/-- A recovery keeps the law. -/
theorem RotationLaw.recover {w : RotationWorld} (h : RotationLaw P w) {epoch : Int}
    {key : HybridPublicKey} {next : KeyRotationV2Journal}
    (hnext : recoverKeyRotationV2 P w.journal epoch key = .ok next) :
    RotationLaw P (w.recovered next key) := by
  obtain ⟨id, hid, -, hunused, rfl⟩ := recover_eq_ok hnext
  exact {
    distinct := by
      show (w.journal.state.usedKeyIds ++ [id]).Nodup
      rw [List.nodup_append]
      refine ⟨h.distinct, List.nodup_singleton _, ?_⟩
      intro a ha b hb hab
      obtain rfl := List.mem_singleton.mp hb
      exact hunused (hab ▸ ha)
    everCurrent := by
      intro k hmem
      show ∃ i, keyIdV2 P k = .ok i ∧ i ∈ w.journal.state.usedKeyIds ++ [id]
      rcases List.mem_cons.mp hmem with rfl | hmem
      · exact ⟨id, hid, by simp⟩
      · obtain ⟨i, hi, hused⟩ := h.everCurrent k hmem
        exact ⟨i, hi, List.mem_append_left _ hused⟩
    current := List.mem_cons_self
    sequence := rfl
    retained := rfl
    inSequence := trivial
    linked := trivial
    headHash := rfl
    signed := fun a ha => absurd ha List.not_mem_nil }

/-- Every call keeps the law. -/
theorem RotationLaw.perform {w : RotationWorld} (h : RotationLaw P w) (c : RotationCall) :
    RotationLaw P (w.perform P c) := by
  cases c with
  | accept s now futureSkew =>
    rcases accept_cases (P := P) s w.journal now futureSkew with
      ⟨e, he⟩ | hreplay | ⟨e, hfork, -⟩ | ⟨d, happend, -, hd⟩
    · simpa only [RotationWorld.perform, he] using h
    · simpa only [RotationWorld.perform, hreplay] using h
    · simpa only [RotationWorld.perform, hfork] using h.freeze
    · exact RotationWorld.perform_appended P happend ▸ h.advance hd
  | recover epoch key =>
    cases hnext : recoverKeyRotationV2 P w.journal epoch key with
    | error e => simpa only [RotationWorld.perform, hnext] using h
    | ok next => exact RotationWorld.perform_recovered P hnext ▸ h.recover hnext

theorem RotationRun.law {authorityId role : String} {epoch : Int} {key : HybridPublicKey}
    {journal : KeyRotationV2Journal}
    (hnew : newKeyRotationV2Journal P authorityId epoch role key = .ok journal)
    {calls : List RotationCall} {w : RotationWorld} (run : RotationRun P journal calls w) :
    RotationLaw P w :=
  run.invariant (RotationLaw P) (rotationLaw_start hnew)
    fun a c b h (hstep : b = a.perform P c) => hstep ▸ h.perform c

/-! ## What the next call does -/

/-- A statement accepted in this epoch replays. -/
theorem RotationLaw.replay {w : RotationWorld} (h : RotationLaw P w)
    (hopen : w.journal.frozen = false) {s : KeyRotationStatementV2} (hs : s ∈ w.accepted)
    (now futureSkew : Int) :
    acceptKeyRotationStatementV2 P s w.journal now futureSkew = (w.journal, .ok .replay) := by
  obtain ⟨hsigned, hauthority, hepoch, hrole⟩ := h.signed s hs
  obtain ⟨hpos, hle⟩ := h.bounds hs
  obtain ⟨a, ha, hsequence, hentry⟩ := h.entry hpos hle
  obtain rfl := h.eq_of_sequence ha hs hsequence
  have hlength : (w.journal.accepted.length : Int) = w.journal.state.sequence := by
    rw [h.retained, h.sequence, List.length_reverse, List.length_map]
  obtain ⟨b, -, -, hdigest, -⟩ := hsigned.digest
  rw [accept_known hsigned.valid hlength hopen hauthority hepoch hrole hle hentry]
  have hknown : knownDigest P a (acceptedEntry P a) = .ok (acceptedEntry P a).bodyDigest := by
    rw [acceptedEntry, rotationDigest_eq hdigest]
    exact knownDigest_ok hsigned rfl rfl hdigest
  simp only [acceptKnownStatement, hknown, ↓reduceIte]

/-- A different body at an accepted sequence, signed by the key accepted there, forks. -/
theorem RotationLaw.fork {w : RotationWorld} (h : RotationLaw P w)
    (hopen : w.journal.frozen = false) {s a : KeyRotationStatementV2} (ha : a ∈ w.accepted)
    (hsequence : a.sequence = s.sequence) (hkey : a.oldKey = s.oldKey) (hsigned : SignedStatement P s)
    (hauthority : s.authorityId = w.journal.state.authorityId)
    (hepoch : s.recoveryEpoch = w.journal.state.recoveryEpoch)
    (hrole : s.role = w.journal.state.role)
    (hbody : keyRotationStatementV2SignableBytes P s ≠ keyRotationStatementV2SignableBytes P a)
    (hhash : ∀ b c, keyRotationStatementV2SignableBytes P s = .ok b →
      keyRotationStatementV2SignableBytes P a = .ok c →
      P.sha384 (statementBodyText 4 b) = P.sha384 (statementBodyText 4 c) → b = c)
    (now futureSkew : Int) :
    ∃ e, acceptKeyRotationStatementV2 P s w.journal now futureSkew
      = ({ w.journal with frozen := true }, .error e) ∧ e.cls = .rotationFork := by
  obtain ⟨hpos, hle⟩ := h.bounds ha
  obtain ⟨a', ha', hseq, hentry⟩ := h.entry hpos hle
  obtain rfl := h.eq_of_sequence ha' ha hseq
  have hlength : (w.journal.accepted.length : Int) = w.journal.state.sequence := by
    rw [h.retained, h.sequence, List.length_reverse, List.length_map]
  obtain ⟨b, hb, -, hdigest, -⟩ := hsigned.digest
  obtain ⟨c, hc, -, hdigest', -⟩ := (h.signed a' ha).1.digest
  have hdiffer : P.sha384 (statementBodyText 4 b) ≠ (acceptedEntry P a').bodyDigest := by
    rw [acceptedEntry, rotationDigest_eq hdigest']
    intro heq
    apply hbody
    rw [hb, hc, hhash b c hb hc heq]
  have hknown : knownDigest P s (acceptedEntry P a') = .ok (P.sha384 (statementBodyText 4 b)) :=
    knownDigest_ok hsigned hsequence hkey hdigest
  rw [hsequence] at hle hentry
  rw [accept_known hsigned.valid hlength hopen hauthority hepoch hrole hle hentry,
    acceptKnownStatement, hknown]
  simp only [hdiffer, ↓reduceIte]
  exact ⟨_, rfl, rfl⟩

/-- A statement of another authority, epoch or role is refused. -/
theorem accept_foreign {s : KeyRotationStatementV2} (journal : KeyRotationV2Journal)
    (hforeign : s.authorityId ≠ journal.state.authorityId
      ∨ s.recoveryEpoch ≠ journal.state.recoveryEpoch ∨ s.role ≠ journal.state.role)
    (now futureSkew : Int) :
    ∃ e, acceptKeyRotationStatementV2 P s journal now futureSkew = (journal, .error e) := by
  unfold acceptKeyRotationStatementV2
  split
  · exact ⟨_, rfl⟩
  split
  · exact ⟨_, rfl⟩
  split
  · exact ⟨_, rfl⟩
  · exact ⟨_, rfl⟩

/-- The accepted statements were presented. -/
theorem RotationRun.accepted_presented {journal : KeyRotationV2Journal} {calls : List RotationCall}
    {w : RotationWorld} (run : RotationRun P journal calls w) :
    w.accepted ⊆ calls.flatMap RotationCall.statements := by
  refine run.history (fun calls w => w.accepted ⊆ calls.flatMap RotationCall.statements)
    (List.nil_subset _) ?_
  intro calls w c w' _ ih hstep
  have hstep' : w' = w.perform P c := hstep
  rw [hstep', List.flatMap_append]
  have hold : w.accepted ⊆ calls.flatMap RotationCall.statements
      ++ [c].flatMap RotationCall.statements :=
    fun a ha => List.mem_append_left _ (ih ha)
  cases c with
  | accept s now futureSkew =>
    rcases accept_cases (P := P) s w.journal now futureSkew with
      ⟨e, he⟩ | hreplay | ⟨e, hfork, -⟩ | ⟨d, happend, -, -⟩
    · simpa only [RotationWorld.perform, he] using hold
    · simpa only [RotationWorld.perform, hreplay] using hold
    · simpa only [RotationWorld.perform, hfork] using hold
    · simp only [RotationWorld.perform, happend]
      refine List.cons_subset.mpr ⟨?_, hold⟩
      exact List.mem_append_right _ (by simp [RotationCall.statements])
  | recover epoch key =>
    cases hnext : recoverKeyRotationV2 P w.journal epoch key with
    | error e => simpa only [RotationWorld.perform, hnext] using hold
    | ok next =>
      simp only [RotationWorld.perform, hnext]
      exact List.nil_subset _

/-- What the next call does to a journal. -/
structure RotationStep (P : Primitives) (w : RotationWorld) (c : RotationCall) : Prop where
  /-- A statement accepted in the current epoch replays and changes nothing. -/
  replay : ∀ s now futureSkew, c = .accept s now futureSkew → w.journal.frozen = false →
    s ∈ w.accepted →
    acceptKeyRotationStatementV2 P s w.journal now futureSkew = (w.journal, .ok .replay)
  /-- A different body of the journal's authority, epoch and role at an accepted
  sequence, signed by the key accepted there and by its own new key, forks. -/
  fork : ∀ s now futureSkew, c = .accept s now futureSkew → w.journal.frozen = false →
    ∀ a ∈ w.accepted, a.sequence = s.sequence → a.oldKey = s.oldKey → SignedStatement P s →
    s.authorityId = w.journal.state.authorityId →
    s.recoveryEpoch = w.journal.state.recoveryEpoch → s.role = w.journal.state.role →
    keyRotationStatementV2SignableBytes P s ≠ keyRotationStatementV2SignableBytes P a →
    ∃ e, acceptKeyRotationStatementV2 P s w.journal now futureSkew
      = ({ w.journal with frozen := true }, .error e) ∧ e.cls = .rotationFork
  /-- A statement of another authority, epoch or role is refused. -/
  foreign : ∀ s now futureSkew, c = .accept s now futureSkew →
    s.authorityId ≠ w.journal.state.authorityId
      ∨ s.recoveryEpoch ≠ w.journal.state.recoveryEpoch ∨ s.role ≠ w.journal.state.role →
    ∃ e, acceptKeyRotationStatementV2 P s w.journal now futureSkew = (w.journal, .error e)
  /-- A frozen journal refuses every statement. -/
  frozen : ∀ s now futureSkew, c = .accept s now futureSkew → w.journal.frozen = true →
    ∃ e, acceptKeyRotationStatementV2 P s w.journal now futureSkew = (w.journal, .error e)
  /-- Only a recovery thaws a journal. -/
  thawed : w.journal.frozen = true → (w.perform P c).journal.frozen = false →
    ∃ epoch key next, c = .recover epoch key ∧ recoverKeyRotationV2 P w.journal epoch key = .ok next
  /-- A recovery raises the epoch and introduces a key never used before. -/
  recovered : ∀ epoch key next, c = .recover epoch key →
    recoverKeyRotationV2 P w.journal epoch key = .ok next →
    w.journal.state.recoveryEpoch < epoch ∧ next.state.recoveryEpoch = epoch
      ∧ next.state.currentKey = key ∧ next.frozen = false ∧ next.state.sequence = 0
      ∧ ∃ id, keyIdV2 P key = .ok id ∧ id ∉ w.journal.state.usedKeyIds
        ∧ next.state.usedKeyIds = w.journal.state.usedKeyIds ++ [id]
  /-- Nothing but an append, a fork or a recovery changes the journal. -/
  kept : (w.perform P c).journal ≠ w.journal →
    (∃ s now futureSkew, c = .accept s now futureSkew
      ∧ ((acceptKeyRotationStatementV2 P s w.journal now futureSkew).2 = .ok .appended
        ∨ ∃ e, (acceptKeyRotationStatementV2 P s w.journal now futureSkew).2 = .error e
          ∧ e.cls = .rotationFork))
    ∨ ∃ epoch key next, c = .recover epoch key
      ∧ recoverKeyRotationV2 P w.journal epoch key = .ok next

/-- **Every run of a rotation journal.**  The used key IDs stay distinct and hold every
key that was ever current, the accepted statements of the epoch are one hash chain, and
the next call replays, forks, appends, recovers or changes nothing. -/
theorem keyRotation_run {authorityId role : String} {epoch : Int} {key : HybridPublicKey}
    {journal : KeyRotationV2Journal}
    (hnew : newKeyRotationV2Journal P authorityId epoch role key = .ok journal)
    {calls : List RotationCall} {w : RotationWorld} (run : RotationRun P journal calls w)
    (c : RotationCall) (hhash : Set.InjOn P.sha384 (rotationTexts P (calls ++ [c]))) :
    RotationLaw P w ∧ RotationStep P w c := by
  have h := RotationRun.law hnew run
  refine ⟨h, ⟨?_, ?_, ?_, ?_, ?_, ?_, ?_⟩⟩
  · intro s now futureSkew _ hopen hs
    exact h.replay hopen hs now futureSkew
  · intro s now futureSkew hc hopen a ha hsequence hkey hsigned hauthority hepoch hrole hbody
    refine h.fork hopen ha hsequence hkey hsigned hauthority hepoch hrole hbody ?_ now futureSkew
    intro b b' hb hb' hdigest
    have hs : s ∈ (calls ++ [c]).flatMap RotationCall.statements := by
      simp [hc, RotationCall.statements]
    have ha' : a ∈ (calls ++ [c]).flatMap RotationCall.statements := by
      rw [List.flatMap_append]
      exact List.mem_append_left _ (RotationRun.accepted_presented run ha)
    exact List.append_cancel_left (hhash ⟨s, hs, b, hb, rfl⟩ ⟨a, ha', b', hb', rfl⟩ hdigest)
  · intro s now futureSkew _ hforeign
    exact accept_foreign _ hforeign now futureSkew
  · intro s now futureSkew _ hfrozen
    exact accept_frozen s hfrozen now futureSkew
  · intro hfrozen hthawed
    cases c with
    | accept s now futureSkew =>
      obtain ⟨e, he⟩ := accept_frozen (P := P) s hfrozen now futureSkew
      simp only [RotationWorld.perform, he, hfrozen] at hthawed
      cases hthawed
    | recover epoch key =>
      cases hnext : recoverKeyRotationV2 P w.journal epoch key with
      | ok next => exact ⟨epoch, key, next, rfl, hnext⟩
      | error e =>
        simp only [RotationWorld.perform, hnext, hfrozen] at hthawed
        cases hthawed
  · intro epoch key next _ hnext
    obtain ⟨id, hid, hepoch, hunused, rfl⟩ := recover_eq_ok hnext
    exact ⟨hepoch, rfl, rfl, rfl, rfl, id, hid, hunused, rfl⟩
  · intro hchanged
    cases c with
    | accept s now futureSkew =>
      refine .inl ⟨s, now, futureSkew, rfl, ?_⟩
      rcases accept_cases (P := P) s w.journal now futureSkew with
        ⟨e, he⟩ | hreplay | ⟨e, hfork, hclass⟩ | ⟨d, happend, -, -⟩
      · exact absurd (by simp only [RotationWorld.perform, he]) hchanged
      · exact absurd (by simp only [RotationWorld.perform, hreplay]) hchanged
      · exact .inr ⟨e, by rw [hfork], hclass⟩
      · exact .inl (by rw [happend])
    | recover epoch key =>
      cases hnext : recoverKeyRotationV2 P w.journal epoch key with
      | ok next => exact .inr ⟨epoch, key, next, rfl, hnext⟩
      | error e => exact absurd (by simp only [RotationWorld.perform, hnext]) hchanged

/-! ## A trial journal -/

def trialAuthority : String := "00000000000000000000000000000000"

def trialKeyId (n : UInt8) : String := hexEncode (n :: List.replicate 31 0)

/-- A first statement of the trial journal, from key `1` to key `2`. -/
def trialStatement (role : String) (issuedAt : Int) : KeyRotationStatementV2 where
  version := 2
  authorityId := trialAuthority
  recoveryEpoch := 1
  role := role
  sequence := 1
  previousStatementHash := zeroHash
  oldKey := tabledKey 1
  newKey := tabledKey 2
  oldKeyId := trialKeyId 1
  newKeyId := trialKeyId 2
  issuedAt := issuedAt
  notBefore := 0
  oldSignature := tabledSignature
  newSignature := tabledSignature

/-- The trial journal with the given used keys, before any statement of its epoch. -/
def trialJournal (recoveryEpoch : Int) (currentKey : UInt8) (used : List UInt8) :
    KeyRotationV2Journal where
  state := {
    authorityId := trialAuthority, recoveryEpoch, role := "issuer", sequence := 0
    headHash := zeroHash, currentKey := tabledKey currentKey, usedKeyIds := used.map trialKeyId }
  accepted := []
  frozen := false

theorem keyIdV2_trial (table : List Bytes) (n : UInt8) :
    keyIdV2 (counting table) (tabledKey n) = .ok (trialKeyId n) :=
  (accepting_counting table).keyIdV2 n

theorem trialStatement_valid (table : List Bytes) {role : String} {issuedAt : Int}
    (hrole : validRole role = true)
    (hissued : 0 ≤ issuedAt ∧ issuedAt ≤ v2MaxTimestampSeconds) :
    StatementValid (counting table) (trialStatement role issuedAt) where
  version := rfl
  authorityId := show (utf8 trialAuthority).length = 32 by decide +kernel
  hex := show lowerHex trialAuthority = true by decide +kernel
  epoch_pos := Int.one_pos
  epoch_le := show (1 : Int) ≤ maxSafe by decide
  sequence_pos := Int.one_pos
  sequence_le := show (1 : Int) ≤ maxSafe by decide
  issuedAt := hissued
  notBefore := show (0 : Int) ≤ 0 ∧ (0 : Int) ≤ v2MaxTimestampSeconds by decide
  role := hrole
  previous := List.length_replicate
  genesis := rfl
  link := rfl
  ids := ⟨validV2Id_of_keyIdV2 _ (keyIdV2_trial table 1),
    validV2Id_of_keyIdV2 _ (keyIdV2_trial table 2)⟩
  keys := by
    have hids : (trialKeyId 1 == trialKeyId 2 || equalKeys (tabledKey 1) (tabledKey 2)) = false := by
      decide +kernel
    simp only [validateStatementKeys, trialStatement, keyIdV2_trial, withContext, Except.mapError,
      ok_bind, ne_eq, not_true_eq_false, or_self, ↓reduceIte, hids, refuseIf, Bool.false_eq_true]

theorem trialStatement_signed (table : List Bytes) {role : String} {issuedAt : Int}
    (hrole : validRole role = true)
    (hissued : 0 ≤ issuedAt ∧ issuedAt ≤ v2MaxTimestampSeconds) :
    SignedStatement (counting table) (trialStatement role issuedAt) := by
  have hvalid := trialStatement_valid table hrole hissued
  obtain ⟨b, hb⟩ := exists_rotationSignable hvalid
  refine ⟨validateStatement_eq_ok_iff.mpr
    ⟨hvalid, fun _ => ⟨signatureLengths_tabled, signatureLengths_tabled⟩⟩, b, hb, ?_⟩
  have hold := (accepting_counting table).verify .keyRotationAuthorization b 1
  have hnew := (accepting_counting table).verify .keyRotationProofOfPossession b 2
  simp only [verifyRotationSignatures, trialStatement, withContext_eq_ok_iff.mpr hold,
    withContext_eq_ok_iff.mpr hnew, ok_bind]

theorem newKeyRotationV2Journal_trial (table : List Bytes) :
    newKeyRotationV2Journal (counting table) trialAuthority 1 "issuer" (tabledKey 1)
      = .ok (trialJournal 1 1 [1]) := by
  have hauthority : (decide ((utf8 trialAuthority).length ≠ 32) || !lowerHex trialAuthority
      || decide ((1 : Int) ≤ 0) || decide ((1 : Int) > maxSafe)) = false := by decide +kernel
  have hrole : (!validRole "issuer") = false := by decide +kernel
  simp only [newKeyRotationV2Journal, keyIdV2_trial]
  rw [if_neg (by rw [hauthority]; exact Bool.false_ne_true),
    if_neg (by rw [hrole]; exact Bool.false_ne_true)]
  rfl

/-- The first statement is appended to the trial journal. -/
theorem accept_trial (table : List Bytes) :
    ∃ d, acceptKeyRotationStatementV2 (counting table) (trialStatement "issuer" 0)
        (trialJournal 1 1 [1]) 0 0
      = ((trialJournal 1 1 [1]).advance (trialStatement "issuer" 0) d, .ok .appended) := by
  have hsigned : SignedStatement (counting table) (trialStatement "issuer" 0) :=
    trialStatement_signed table (by decide +kernel) (by decide)
  have hstate : validateRotationState (trialJournal 1 1 [1]).state (trialKeyId 1) = .ok () := by
    decide +kernel
  have hextends : validateExtension (trialStatement "issuer" 0) (trialJournal 1 1 [1]).state 0 0
      = .ok () := by decide +kernel
  have hlength : ((trialJournal 1 1 [1]).accepted.length : Int)
      = (trialJournal 1 1 [1]).state.sequence := rfl
  have hopen : (trialJournal 1 1 [1]).frozen = false := rfl
  have hkey : keyIdV2 (counting table) (trialJournal 1 1 [1]).state.currentKey
      = .ok (trialKeyId 1) := keyIdV2_trial table 1
  obtain ⟨d, -, happend⟩ := accept_appended hsigned hlength hopen hkey hstate hextends
  exact ⟨d, happend⟩

/-- The trial journal after its first statement. -/
def trialWorld (d : Bytes) : RotationWorld :=
  (RotationWorld.start (trialJournal 1 1 [1])).append (trialStatement "issuer" 0) d

theorem run_trial (table : List Bytes) :
    ∃ d, RotationRun (counting table) (trialJournal 1 1 [1])
      [.accept (trialStatement "issuer" 0) 0 0] (trialWorld d) := by
  obtain ⟨d, happend⟩ := accept_trial table
  have hstep : (RotationWorld.start (trialJournal 1 1 [1])).perform (counting table)
      (.accept (trialStatement "issuer" 0) 0 0) = trialWorld d :=
    RotationWorld.perform_appended (w := RotationWorld.start (trialJournal 1 1 [1]))
      (counting table) happend
  exact ⟨d, Run.single hstep.symm⟩

/-- The recovered trial journal under key `3`. -/
theorem recover_trial (table : List Bytes) (d : Bytes) :
    recoverKeyRotationV2 (counting table) (trialWorld d).journal 2 (tabledKey 3)
      = .ok (trialJournal 2 3 [1, 2, 3]) := by
  have hunused : ((trialJournal 1 1 [1]).state.usedKeyIds ++ [trialKeyId 2]).contains (trialKeyId 3)
      = false := by decide +kernel
  have hused : (trialWorld d).journal.state.usedKeyIds
      = (trialJournal 1 1 [1]).state.usedKeyIds ++ [trialKeyId 2] := rfl
  have hepoch : ¬ ((2 : Int) ≤ (trialWorld d).journal.state.recoveryEpoch ∨ (2 : Int) > maxSafe) :=
    show ¬ ((2 : Int) ≤ 1 ∨ (2 : Int) > maxSafe) by decide
  simp only [recoverKeyRotationV2, keyIdV2_trial]
  rw [if_neg hepoch, hused, if_neg (by rw [hunused]; exact Bool.false_ne_true)]
  rfl

/-- The bytes of a canonical form, or nothing where it has none. -/
def bodyOf (r : V2Result Bytes) : Bytes :=
  match r with
  | .ok body => body
  | .error _ => []

/-- A fork of the first statement, presented to the trial journal. -/
theorem keyRotation_run_trial :
    let P := counting ([trialStatement "issuer" 0, trialStatement "issuer" 1].map fun s =>
      statementBodyText 4 (bodyOf (canonical (statementCj s false))))
    ∃ d, RotationLaw P (trialWorld d)
      ∧ RotationStep P (trialWorld d) (.accept (trialStatement "issuer" 1) 0 0) := by
  intro P
  obtain ⟨d, run⟩ := run_trial ([trialStatement "issuer" 0, trialStatement "issuer" 1].map fun s =>
      statementBodyText 4 (bodyOf (canonical (statementCj s false))))
  refine ⟨d, keyRotation_run (newKeyRotationV2Journal_trial _) run _ ?_⟩
  refine (tableDigest_injOn (by simp)).mono ?_
  intro t ht
  obtain ⟨s, hs, b, hb, rfl⟩ := ht
  have hbytes := (keyRotationStatementV2SignableBytes_eq_ok_iff.mp hb).2
  refine List.mem_map.mpr ⟨s, by simpa [RotationCall.statements] using hs, ?_⟩
  rw [hbytes]
  rfl

/-- Read without its epoch, authority and role, the journal's own rule fails: a
statement accepted before a recovery no longer replays, and a different body for
another role at an accepted sequence does not fork. -/
theorem accepted_statement_not_replayed :
    (¬ ∀ (P : Primitives) (authorityId role : String) (epoch : Int) (key : HybridPublicKey)
        (journal : KeyRotationV2Journal) (calls : List RotationCall) (w : RotationWorld),
      newKeyRotationV2Journal P authorityId epoch role key = .ok journal →
      RotationRun P journal calls w → ∀ s ∈ w.everAccepted, w.journal.frozen = false →
      ∀ now futureSkew,
        acceptKeyRotationStatementV2 P s w.journal now futureSkew = (w.journal, .ok .replay))
    ∧ ¬ ∀ (P : Primitives) (authorityId role : String) (epoch : Int) (key : HybridPublicKey)
        (journal : KeyRotationV2Journal) (calls : List RotationCall) (w : RotationWorld),
      newKeyRotationV2Journal P authorityId epoch role key = .ok journal →
      RotationRun P journal calls w → w.journal.frozen = false → ∀ a ∈ w.accepted,
      ∀ s, a.sequence = s.sequence → a.oldKey = s.oldKey → SignedStatement P s →
      keyRotationStatementV2SignableBytes P s ≠ keyRotationStatementV2SignableBytes P a →
      ∀ now futureSkew,
        (acceptKeyRotationStatementV2 P s w.journal now futureSkew).1.frozen = true := by
  obtain ⟨d, run⟩ := run_trial []
  have hnew := newKeyRotationV2Journal_trial []
  constructor
  · intro h
    have hrecovered : RotationRun (counting []) (trialJournal 1 1 [1])
        [.accept (trialStatement "issuer" 0) 0 0, .recover 2 (tabledKey 3)]
        ((trialWorld d).recovered (trialJournal 2 3 [1, 2, 3]) (tabledKey 3)) :=
      run.snoc (RotationWorld.perform_recovered (counting []) (recover_trial [] d)).symm
    have hreplay := h _ _ _ _ _ _ _ _ hnew hrecovered _ (List.mem_singleton_self _) rfl 0 0
    obtain ⟨e, he⟩ := accept_foreign (P := counting []) (s := trialStatement "issuer" 0)
      (trialJournal 2 3 [1, 2, 3]) (.inr (.inl (by decide))) 0 0
    rw [RotationWorld.recovered_journal, he] at hreplay
    cases hreplay
  · intro h
    have hsigned : SignedStatement (counting []) (trialStatement "agent" 0) :=
      trialStatement_signed [] (by decide +kernel) (by decide)
    have hbody : keyRotationStatementV2SignableBytes (counting []) (trialStatement "agent" 0)
        ≠ keyRotationStatementV2SignableBytes (counting []) (trialStatement "issuer" 0) := by
      intro heq
      obtain ⟨b, hb⟩ := hsigned.signatures
      have hrole := congrArg KeyRotationStatementV2.role
        (unsigned_eq_of_rotationSignable hb.1 (heq ▸ hb.1))
      exact absurd hrole (show "agent" ≠ "issuer" by decide)
    have hforked := h _ _ _ _ _ _ _ _ hnew run rfl _ (List.mem_singleton_self _)
      (trialStatement "agent" 0) rfl rfl hsigned hbody 0 0
    obtain ⟨e, he⟩ := accept_foreign (P := counting []) (s := trialStatement "agent" 0)
      (trialWorld d).journal (.inr (.inr (by
        show "agent" ≠ "issuer"
        decide))) 0 0
    rw [he] at hforked
    cases hforked

end RatifyProtocol.V2
