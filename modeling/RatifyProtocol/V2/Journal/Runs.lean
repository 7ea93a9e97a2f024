import Mathlib.Data.List.Chain
import RatifyProtocol.V2.Journal.Store
import RatifyProtocol.V2.Journal.Succession
import RatifyProtocol.V2.Status.TableHash
set_option autoImplicit false

/-!
# Journal: every interleaving of writers

Whatever the writers do and in whatever order, the committed records form one
hash chain, each record succeeds every record before it, and only a writer that
holds the newest record adds to the chain.
-/

namespace RatifyProtocol.V2

open Foundation

variable {J : JournalPrimitives}

/-! ## Records with the same snapshot -/

theorem mem_sortKeyRoleHistory {history : List KeyRoleBindingV2} {b : KeyRoleBindingV2} :
    b ∈ sortKeyRoleHistory history ↔ b ∈ history :=
  (List.perm_insertionSort _ history).mem_iff

theorem mem_sortStatusKeyHistory {history : List StatusKeyBindingV2} {b : StatusKeyBindingV2} :
    b ∈ sortStatusKeyHistory history ↔ b ∈ history :=
  (List.perm_insertionSort _ history).mem_iff

theorem issuerSucceeds_of_sameIssuer {P : Primitives} {history history' : List StatusKeyBindingV2}
    {i j : String} {a b : RevocationStatusStateV2} (ha : IssuerValid P history i a)
    (hb : IssuerValid P history' j b)
    (h : SameIssuer (canonicalizeState a) (canonicalizeState b)) : IssuerSucceeds a b := by
  have hbounds := bindingBounds_of_ok ha.binding
  have hbounds' := bindingBounds_of_ok hb.binding
  have hepoch : a.statusKeyEpoch = b.statusKeyEpoch := h.statusKeyEpoch
  have hhas : a.hasFloor = b.hasFloor := h.hasFloor
  have hsets : ∀ {xs ys : List String}, sortedUnique xs = sortedUnique ys → xs ⊆ ys := by
    intro xs ys heq k hk
    exact mem_sortedUnique.mp (heq ▸ mem_sortedUnique.mpr hk)
  have hretired : a.retiredStatusKeyIds ⊆ b.retiredStatusKeyIds := hsets h.retired
  refine {
    epoch := hepoch.le
    key := fun _ => h.statusKeyId
    rekeyed := fun hlt => absurd hepoch hlt.ne
    retired := hretired
    notReinstated := fun hmem => hbounds'.current (hretired hmem)
    denyUnion := hsets h.denyUnion
    hasFloor := fun _ htrue => hhas ▸ htrue
    floor := fun _ => ?_
    maxObserved := fun _ => h.maxObserved.le }
  cases hfloor : a.hasFloor with
  | false =>
    rw [hbounds.unset hfloor]
    exact hbounds'.floor
  | true => exact (h.floor hfloor).le

/-- Valid records with the same snapshot hold the same bindings and states. -/
theorem succeeds_of_sameSnapshot {a b : SecurityJournalV2} (ha : JournalValid J a)
    (hb : JournalValid J b) (h : SameSnapshot a b) : Succeeds a b where
  keyRoles r hr := mem_sortKeyRoleHistory.mp (h.keyRoles ▸ mem_sortKeyRoleHistory.mpr hr)
  statusKeys r hr := mem_sortStatusKeyHistory.mp (h.statusKeys ▸ mem_sortStatusKeyHistory.mpr hr)
  issuers id s hs := by
    obtain ⟨i, hi, hget⟩ := List.mem_iff_getElem.mp (OrderedMap.mem_entries_iff.mpr hs)
    obtain ⟨hlen, hall⟩ := List.forall₂_iff_get.mp h.issuers
    have hi' : i < b.statusByIssuer.entries.length := hlen ▸ hi
    have hsame := hall i hi hi'
    simp only [List.get_eq_getElem, hget] at hsame
    obtain ⟨⟨k, t⟩, hentry⟩ : ∃ e, b.statusByIssuer.entries[i] = e := ⟨_, rfl⟩
    rw [hentry] at hsame
    have ht : b.statusByIssuer.get? k = some t :=
      OrderedMap.mem_entries_iff.mp (hentry ▸ List.getElem_mem hi')
    have hvalid := ha.issuers id s hs
    have hvalid' := hb.issuers k t ht
    have hkey : k = id := by
      have hissuer : s.issuerId = t.issuerId := hsame.issuerId
      rw [hvalid.issuer.2.1, hvalid'.issuer.2.1] at hissuer
      exact hissuer.symm
    exact ⟨t, hkey ▸ ht, issuerSucceeds_of_sameIssuer hvalid hvalid' hsame⟩

/-! ## Places in the chain -/

/-- `b` is the record right after `a`. -/
structure Follows (J : JournalPrimitives) (a b : SecurityJournalV2) : Prop where
  generation : b.generation = a.generation + 1
  previous : b.previousDigest = a.digest
  digest : securityJournalDigestV2 J b = .ok b.digest

/-- The store holds the record: its head and its snapshot bytes. -/
structure Anchors (store : JournalStore) (r : SecurityJournalV2) : Prop where
  head : store.head = { generation := r.generation, digest := r.digest }
  snapshot : securityJournalSnapshotBytesV2 r = .ok store.snapshot

/-- A loaded journal has the content and the place of a record. -/
structure CopyOf (j r : SecurityJournalV2) : Prop where
  generation : j.generation = r.generation
  digest : j.digest = r.digest
  content : SameSnapshot j r

theorem copyOf_of_imported {store : JournalStore} {j r : SecurityJournalV2}
    (h : Imported J store.snapshot store.head j) (hr : Anchors store r) : CopyOf j r where
  generation := by rw [h.generation, hr.head]
  digest := by rw [h.digest, hr.head]
  content := sameSnapshot_of_bytes h.bytes hr.snapshot

theorem imported_of_loadAnchored {store : JournalStore} {j : SecurityJournalV2}
    (h : loadAnchoredSecurityJournalV2 J store = .ok j) :
    Imported J store.snapshot store.head j := by
  obtain ⟨⟨current, head⟩, hload, h⟩ := bind_eq_ok_iff.mp h
  obtain ⟨journal, himport, hpair⟩ := bind_eq_ok_iff.mp (withContext_eq_ok_iff.mp hload)
  cases hpair
  obtain ⟨-, h⟩ := refuseIf_bind_eq_ok_iff.mp h
  obtain ⟨-, h⟩ := refuseIf_bind_eq_ok_iff.mp h
  obtain ⟨_, -, h⟩ := bind_eq_ok_iff.mp h
  obtain rfl := Except.ok.inj h
  exact imported_of_ok J himport

/-! ## One commit -/

/-- A commit that moved the head: what was stored, what was loaded and what
became of it. -/
structure Advances (J : JournalPrimitives) (current : SecurityJournalV2) (s t : JournalStore)
    (next : SecurityJournalV2) : Prop where
  expected : s.head = { generation := current.generation, digest := current.digest }
  stored : ∃ j, Imported J s.snapshot s.head j ∧ AcceptedTransition J j next
  anchors : Anchors t next

theorem compareAndSwap_cases {expected : SecurityJournalHeadV2} {next : SecurityJournalV2}
    {s t : JournalStore} {r : Except SecurityJournalStoreErrorV2 Unit}
    (h : JournalStore.compareAndSwap J expected next s = (r, t)) :
    (t = s ∧ ∃ e, r = .error e) ∨ (r = .ok () ∧ expected = s.head
      ∧ (∃ j, Imported J s.snapshot s.head j ∧ AcceptedTransition J j next)
      ∧ Anchors t next) := by
  rcases Operation.bind_cases h with ⟨e, he, -⟩ | ⟨a, u, ha, h⟩
  · cases he
  cases ha
  split at h
  · cases h
    exact .inl ⟨rfl, _, rfl⟩
  rename_i hexpected
  rcases Operation.lift_bind_cases h with ⟨e, hr, ht⟩ | ⟨snapshot, hchecks, h⟩
  · exact .inl ⟨ht, e, hr⟩
  cases h
  right
  have hok := mapError_eq_ok_iff.mp hchecks
  obtain ⟨j, himport, hok⟩ := bind_eq_ok_iff.mp hok
  obtain ⟨_, htransition, hexport⟩ := bind_eq_ok_iff.mp hok
  refine ⟨rfl, not_not.mp hexpected, ⟨j, imported_of_ok J himport,
    acceptedTransition_of_ok htransition⟩, rfl, ?_⟩
  unfold exportSecurityJournalSnapshotV2 at hexport
  split at hexport
  · exact absurd hexport err_ne_ok
  · obtain ⟨_, -, hbytes⟩ := bind_eq_ok_iff.mp hexport
    exact classify_eq_ok_iff.mp hbytes

/-- A commit leaves the store as it is or stores the record it answers with. -/
theorem commitSecurityJournalTransitionV2_cases {current next : SecurityJournalV2}
    {s t : JournalStore} {r : Except SecurityJournalStoreErrorV2 SecurityJournalV2}
    (h : commitSecurityJournalTransitionV2 J current next s = (r, t)) :
    t = s ∨ ∃ record, r = .ok record
      ∧ prepareSecurityJournalTransitionV2 J current next = .ok (some record)
      ∧ Advances J current s t record := by
  rcases Operation.lift_bind_cases h with ⟨e, -, ht⟩ | ⟨prepared, hprepared, h⟩
  · exact .inl ht
  cases prepared with
  | none =>
    cases h
    exact .inl rfl
  | some record =>
    rcases Operation.bind_cases h with ⟨e, he, -⟩ | ⟨a, u, ha, h⟩
    · rcases hswap : JournalStore.compareAndSwap J
        { generation := current.generation, digest := current.digest } record s with ⟨x, v⟩
      simp only [Operation.mapError, hswap, Prod.mk.injEq] at he
      rcases compareAndSwap_cases hswap with ⟨hv, -⟩ | ⟨hok, -⟩
      · exact .inl (he.2.symm.trans hv)
      · rw [hok] at he
        cases he.1
    · cases h
      have hswap := Operation.mapError_apply_ok.mp ha
      rcases compareAndSwap_cases hswap with ⟨-, e, he⟩ | ⟨-, hexpected, hstored, hanchors⟩
      · cases he
      · exact .inr ⟨record, rfl, mapError_eq_ok_iff.mp hprepared, hexpected.symm, hstored,
          hanchors⟩

/-- An update leaves the store as it is or stores the record it answers with. -/
theorem JournalUpdate.commit_cases {u : JournalUpdate} {current : SecurityJournalV2}
    {s t : JournalStore} {r : Except SecurityJournalStoreErrorV2 SecurityJournalV2}
    (h : u.commit J current s = (r, t)) :
    t = s ∨ ∃ updated record, r = .ok record ∧ u.apply J.toPrimitives current = .ok updated
      ∧ prepareSecurityJournalTransitionV2 J current updated = .ok (some record)
      ∧ Advances J current s t record := by
  rcases Operation.lift_bind_cases h with ⟨e, -, ht⟩ | ⟨updated, hupdated, h⟩
  · exact .inl ht
  · rcases commitSecurityJournalTransitionV2_cases h with ht | ⟨record, hr, hprepare, hadvance⟩
    · exact .inl ht
    · exact .inr ⟨updated, record, hr, mapError_eq_ok_iff.mp hupdated, hprepare, hadvance⟩

/-! ## The chain of a run -/

variable {ω : Type}

/-- The records committed so far and how store and writers stand to them. -/
structure ChainOk (J : JournalPrimitives) (w : JournalWorld ω) : Prop where
  first : w.committed.head? = some (emptySecurityJournalV2 J)
  last : ∃ r, w.committed.getLast? = some r ∧ Anchors w.store r
  valid : ∀ r ∈ w.committed, JournalValid J r
  contiguous : w.committed.IsChain (Follows J)
  ordered : w.committed.Pairwise fun a b => a.generation < b.generation ∧ Succeeds a b
  loaded : ∀ v j, w.loaded v = some j → ∃ r ∈ w.committed, CopyOf j r

/-- The newest record has the highest generation. -/
theorem ChainOk.eq_last {w : JournalWorld ω} (h : ChainOk J w) {r last : SecurityJournalV2}
    (hr : r ∈ w.committed) (hlast : w.committed.getLast? = some last)
    (hgeneration : r.generation = last.generation) : r = last := by
  obtain ⟨front, hsplit⟩ := List.getLast?_eq_some_iff.mp hlast
  have hordered := h.ordered
  rw [hsplit] at hr hordered
  rcases List.mem_append.mp hr with hr | hr
  · have hlt := ((List.pairwise_append.mp hordered).2.2 r hr last (by simp)).1
    omega
  · exact List.mem_singleton.mp hr

/-- A record that advances from the newest one extends the chain. -/
theorem ChainOk.extend {w : JournalWorld ω} (h : ChainOk J w) {store : JournalStore}
    {current next : SecurityJournalV2} (hadvance : Advances J current w.store store next) :
    ChainOk J { w with store, committed := w.committed ++ [next] } := by
  obtain ⟨last, hlast, hanchors⟩ := h.last
  obtain ⟨j, himported, haccepted⟩ := hadvance.stored
  have hmem : last ∈ w.committed := List.mem_of_getLast? hlast
  have hcopy := copyOf_of_imported himported hanchors
  have hsucceeds : Succeeds last next :=
    (succeeds_of_sameSnapshot (h.valid last hmem) haccepted.currentValid
      (sameSnapshot_of_bytes hanchors.snapshot himported.bytes)).trans haccepted.succeeds
  have hgeneration : next.generation = last.generation + 1 := by
    rw [haccepted.generation, hcopy.generation]
  have hle : ∀ r ∈ w.committed, r = last ∨ r.generation < last.generation ∧ Succeeds r last := by
    intro r hr
    obtain ⟨front, hsplit⟩ := List.getLast?_eq_some_iff.mp hlast
    have hordered := h.ordered
    rw [hsplit] at hr hordered
    rcases List.mem_append.mp hr with hr | hr
    · exact .inr ((List.pairwise_append.mp hordered).2.2 r hr last (by simp))
    · exact .inl (List.mem_singleton.mp hr)
  refine {
    first := by rw [List.head?_append, h.first, Option.some_or]
    last := ⟨next, by simp, hadvance.anchors⟩
    valid := fun r hr => ?_
    contiguous := List.isChain_append.mpr ⟨h.contiguous, .singleton _, ?_⟩
    ordered := List.pairwise_append.mpr ⟨h.ordered, List.pairwise_singleton _ _, ?_⟩
    loaded := fun v j hj => ?_ }
  · rcases List.mem_append.mp hr with hr | hr
    · exact h.valid r hr
    · rw [List.mem_singleton.mp hr]
      exact haccepted.nextValid
  · intro a ha b hb
    obtain rfl := Option.some.inj (hlast.symm.trans ha)
    obtain rfl := Option.some.inj hb
    exact {
      generation := hgeneration
      previous := haccepted.previous.trans hcopy.digest
      digest := haccepted.nextValid.digest }
  · intro a ha b hb
    obtain rfl := List.mem_singleton.mp hb
    rcases hle a ha with rfl | ⟨hlt, hsucc⟩
    · exact ⟨by omega, hsucceeds⟩
    · exact ⟨by omega, hsucc.trans hsucceeds⟩
  · obtain ⟨r, hr, hcopy⟩ := h.loaded v j hj
    exact ⟨r, List.mem_append_left _ hr, hcopy⟩

/-- What one event may do to the committed records. -/
inductive CommitStep (J : JournalPrimitives) (s t : JournalWorld ω) (e : JournalEvent ω) : Prop
  | same (h : t.committed = s.committed) (hstore : t.store = s.store)
  | extended {w : ω} {u : JournalUpdate} {current last updated next : SecurityJournalV2}
      (event : e = .commit w u) (loaded : s.loaded w = some current)
      (newest : s.committed.getLast? = some last) (copy : CopyOf current last)
      (update : u.apply J.toPrimitives current = .ok updated)
      (prepared : prepareSecurityJournalTransitionV2 J current updated = .ok (some next))
      (committed : t.committed = s.committed ++ [next])

variable [DecidableEq ω]

/-- Every event keeps the chain and extends it only from its newest record. -/
theorem ChainOk.perform {s : JournalWorld ω} (h : ChainOk J s) (e : JournalEvent ω) :
    ChainOk J (s.perform J e) ∧ CommitStep J s (s.perform J e) e := by
  cases e with
  | load w =>
    simp only [JournalWorld.perform]
    split
    · exact ⟨h, .same rfl rfl⟩
    · rename_i current hload
      refine ⟨{ h with loaded := fun v j hj => ?_ }, .same rfl rfl⟩
      simp only at hj
      split at hj
      · obtain rfl := Option.some.inj hj
        obtain ⟨last, hlast, hanchors⟩ := h.last
        exact ⟨last, List.mem_of_getLast? hlast,
          copyOf_of_imported (imported_of_loadAnchored hload) hanchors⟩
      · exact h.loaded v j hj
  | commit w u =>
    simp only [JournalWorld.perform]
    split
    · exact ⟨h, .same rfl rfl⟩
    rename_i current hloaded
    split
    · rename_i e store hcommit
      rcases u.commit_cases hcommit with rfl | ⟨_, _, hr, -⟩
      · exact ⟨h, .same rfl rfl⟩
      · cases hr
    · rename_i answer store hcommit
      rcases u.commit_cases hcommit with rfl | ⟨updated, record, hr, hupdate, hprepare, hadvance⟩
      · simp only [JournalWorld.record, ↓reduceIte]
        exact ⟨h, .same rfl rfl⟩
      · obtain rfl := Except.ok.inj hr
        obtain ⟨last, hlast, hanchors⟩ := h.last
        obtain ⟨j, himported, haccepted⟩ := hadvance.stored
        have hmoved : store.head ≠ s.store.head := by
          intro heq
          have hsame := congrArg (·.generation) heq
          simp only [hadvance.anchors.head, ← himported.generation, haccepted.generation] at hsame
          omega
        obtain ⟨r, hr, hcopy⟩ := h.loaded w current hloaded
        have hgeneration : r.generation = last.generation := by
          have hhead := congrArg (·.generation) (hadvance.expected.symm.trans hanchors.head)
          simp only at hhead
          rw [← hcopy.generation, hhead]
        have hnewest := h.eq_last hr hlast hgeneration
        rw [JournalWorld.record, if_neg hmoved]
        exact ⟨h.extend hadvance,
          .extended rfl hloaded hlast (hnewest ▸ hcopy) hupdate hprepare rfl⟩

/-! ## Genesis -/

/-- The digest is no member of the snapshot. -/
theorem securityJournalSnapshotBytesV2_digest (j : SecurityJournalV2) (digest : String) :
    securityJournalSnapshotBytesV2 { j with digest } = securityJournalSnapshotBytesV2 j := rfl

theorem exists_bareSnapshot :
    ∃ b, securityJournalSnapshotBytesV2 { version := securityJournalVersionV2 } = .ok b :=
  ⟨_, rfl⟩

/-- The genesis record has snapshot bytes. -/
theorem exists_genesisSnapshot (J : JournalPrimitives) :
    ∃ b, securityJournalSnapshotBytesV2 (emptySecurityJournalV2 J) = .ok b := by
  obtain ⟨b, hb⟩ := exists_bareSnapshot
  refine ⟨b, ?_⟩
  unfold emptySecurityJournalV2
  rw [securityJournalSnapshotBytesV2_digest, hb]

theorem digest_emptySecurityJournalV2 (J : JournalPrimitives) :
    securityJournalDigestV2 J (emptySecurityJournalV2 J)
      = .ok (emptySecurityJournalV2 J).digest := by
  obtain ⟨b, hb⟩ := exists_bareSnapshot
  have hbare : securityJournalDigestV2 J { version := securityJournalVersionV2 }
      = .ok (securityJournalSnapshotDigestV2 J.toPrimitives b) := by
    unfold securityJournalDigestV2
    rw [if_pos rfl, hb, ok_bind]
  have hgenesis : (emptySecurityJournalV2 J).digest
      = securityJournalSnapshotDigestV2 J.toPrimitives b := by
    unfold emptySecurityJournalV2
    simp only [hbare]
  rw [hgenesis]
  unfold securityJournalDigestV2 emptySecurityJournalV2
  rw [if_pos rfl, securityJournalSnapshotBytesV2_digest, hb, ok_bind]

theorem validate_emptySecurityJournalV2 (J : JournalPrimitives) :
    validateSecurityJournalInner J (emptySecurityJournalV2 J) = .ok () := by
  unfold validateSecurityJournalInner
  rw [digest_emptySecurityJournalV2]
  have hmatch : ((emptySecurityJournalV2 J).digest != (emptySecurityJournalV2 J).digest)
      = false := by simp
  simp only [ok_bind, hmatch]
  rfl

/-- A store can always be created. -/
theorem exists_new (J : JournalPrimitives) : ∃ store, JournalStore.new J = .ok store := by
  obtain ⟨b, hb⟩ := exists_genesisSnapshot J
  have hexport : exportSecurityJournalSnapshotV2 J (emptySecurityJournalV2 J) = .ok b := by
    unfold exportSecurityJournalSnapshotV2
    rw [if_neg (by simp [emptySecurityJournalV2]), validate_emptySecurityJournalV2, hb]
    rfl
  exact ⟨_, by simp only [JournalStore.new, hexport, ok_bind]; rfl⟩

omit [DecidableEq ω] in
theorem chainOk_start {store : JournalStore} (h : JournalStore.new J = .ok store) :
    ChainOk J (JournalWorld.start J store : JournalWorld ω) := by
  obtain ⟨b, hb, h⟩ := bind_eq_ok_iff.mp h
  obtain rfl := Except.ok.inj h
  obtain ⟨b', hb'⟩ := exists_genesisSnapshot J
  have hbytes : securityJournalSnapshotBytesV2 (emptySecurityJournalV2 J) = .ok b := by
    unfold exportSecurityJournalSnapshotV2 at hb
    rw [if_neg (by simp [emptySecurityJournalV2]), validate_emptySecurityJournalV2, hb'] at hb
    rw [hb', ← Except.ok.inj hb]
  exact {
    first := rfl
    last := ⟨_, rfl, rfl, hbytes⟩
    valid := fun r hr => by
      rw [List.mem_singleton.mp hr]
      exact journalValid_of_ok J (validate_emptySecurityJournalV2 J)
    contiguous := .singleton _
    ordered := List.pairwise_singleton _ _
    loaded := fun v j hj => by simp [JournalWorld.start] at hj }

theorem JournalRun.chainOk {store : JournalStore} (h : JournalStore.new J = .ok store)
    {es : List (JournalEvent ω)} {t : JournalWorld ω}
    (run : JournalRun J (JournalWorld.start J store) es t) : ChainOk J t :=
  Run.invariant (ChainOk J) (chainOk_start h)
    (fun s e u hs (hstep : u = s.perform J e) => hstep ▸ (hs.perform e).1) run

/-! ## The law -/

/-- What holds between the records committed in a run. -/
structure ChainLaw (J : JournalPrimitives) (w : JournalWorld ω) : Prop where
  /-- The chain starts at the genesis record. -/
  first : w.committed.head? = some (emptySecurityJournalV2 J)
  /-- The store holds the newest record. -/
  newest : ∃ r, w.committed.getLast? = some r ∧ Anchors w.store r
  /-- Each record names the one before it and carries its own digest. -/
  contiguous : w.committed.IsChain (Follows J)
  /-- A later record keeps what an earlier one held. -/
  kept : w.committed.Pairwise Succeeds
  /-- No key ID or component is bound to two roles, in one record or in two. -/
  oneRole : ∀ a ∈ w.committed, ∀ b ∈ w.committed, ∀ r ∈ a.keyRoleHistory,
    ∀ s ∈ b.keyRoleHistory, r.Overlaps s → r = s

omit [DecidableEq ω] in
theorem ChainOk.oneRole {w : JournalWorld ω} (h : ChainOk J w) :
    ∀ a ∈ w.committed, ∀ b ∈ w.committed, ∀ r ∈ a.keyRoleHistory, ∀ s ∈ b.keyRoleHistory,
      r.Overlaps s → r = s := by
  obtain ⟨last, hlast, -⟩ := h.last
  have hmem : last ∈ w.committed := List.mem_of_getLast? hlast
  -- Every record's bindings are still in the newest one.
  have hall : ∀ a ∈ w.committed, a.keyRoleHistory ⊆ last.keyRoleHistory := by
    intro a ha
    obtain ⟨front, hsplit⟩ := List.getLast?_eq_some_iff.mp hlast
    have hordered := h.ordered
    rw [hsplit] at ha hordered
    rcases List.mem_append.mp ha with ha | ha
    · exact ((List.pairwise_append.mp hordered).2.2 a ha last (by simp)).2.keyRoles
    · rw [List.mem_singleton.mp ha]
      exact List.Subset.refl _
  intro a ha b hb r hr s hs hover
  exact eq_of_overlaps (h.valid last hmem).keyRoles (hall a ha hr) (hall b hb hs) hover

/-- **Any interleaving of writers commits one chain.**  The records form one hash
chain from genesis whose generations advance by one, each keeps what every
earlier one held, and at every point an event adds a record only for a writer
that holds the newest one. -/
theorem chainLaw_of_run {store : JournalStore} (hnew : JournalStore.new J = .ok store)
    {es : List (JournalEvent ω)} {t : JournalWorld ω}
    (run : JournalRun J (JournalWorld.start J store) es t) :
    ChainLaw J t ∧ ∀ e, CommitStep J t (t.perform J e) e := by
  have h := JournalRun.chainOk hnew run
  refine ⟨?_, fun e => (h.perform e).2⟩
  exact {
    first := h.first
    newest := h.last
    contiguous := h.contiguous
    kept := h.ordered.imp fun hab => hab.2
    oneRole := h.oneRole }

/-- The law at two writers that load genesis, both record a key, in turn. -/
theorem chainLaw_of_two_writers :
    ∃ (J : JournalPrimitives) (store : JournalStore) (t : JournalWorld Bool),
      JournalStore.new J = .ok store
      ∧ JournalRun J (JournalWorld.start J store)
          [.load true, .load false, .commit true (.recordSecurityKeyRole "issuer" (tabledKey 1)),
            .commit false (.recordSecurityKeyRole "other" (tabledKey 2))] t
      ∧ ChainLaw J t := by
  let J : JournalPrimitives :=
    { toPrimitives := tabled [], legacySecurityJournalDigestV1 := fun _ => plain "version 1" }
  obtain ⟨store, hnew⟩ := exists_new J
  have run := Run.foldl (JournalWorld.perform J) (JournalWorld.start J store)
    [.load true, .load false, .commit true (.recordSecurityKeyRole "issuer" (tabledKey 1)),
      .commit false (.recordSecurityKeyRole "other" (tabledKey 2))]
  exact ⟨J, store, _, hnew, run, (chainLaw_of_run hnew run).1⟩

end RatifyProtocol.V2
