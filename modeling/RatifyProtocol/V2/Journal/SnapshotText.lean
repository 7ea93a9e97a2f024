import RatifyProtocol.V2.Journal.Snapshot
import RatifyProtocol.V2.SameText
set_option autoImplicit false

/-!
# Journal: what a snapshot determines

Journals with the same snapshot bytes agree on every member the snapshot has:
the place in the chain, both key histories and each issuer's state, up to the
order of sets and histories and the floors that are not in use.
-/

namespace RatifyProtocol.V2

open Foundation

/-! ## Unsigned members -/

theorem uint_eq_ok {n : Nat} {v : CJ} (h : uint n = .ok v) : v = .int n := by
  unfold uint at h
  split at h
  · exact (Except.ok.inj h).symm
  · exact absurd h plain_ne_ok

/-! ## Lists and signatures -/

theorem revokedCj_inj {refs refs' : List RevokedCertV2}
    (h : SameText (revokedCj refs) (revokedCj refs')) : refs = refs' := by
  refine SameText.eq_of_arr_map (fun r _ r' _ hr => ?_) h
  have hid := hr.members rfl (by simp)
  simp only [List.map_cons, List.map_nil, List.forall₂_cons, SameText.str_iff] at hid
  exact congrArg RevokedCertV2.mk hid.1

theorem sig_inj {s t : HybridSignature} (h : SameText (CJ.sig s) (CJ.sig t)) : s = t := by
  have hparts := h.members rfl (by simp)
  simp only [List.map_cons, List.map_nil, List.forall₂_cons, SameText.bytes_iff] at hparts
  obtain ⟨hed, hml, -⟩ := hparts
  exact congrArg₂ HybridSignature.mk hed hml

theorem listCj_inj {l m : RevocationListV2} (h : SameText (listCj l true) (listCj m true)) :
    l = m := by
  have hparts := h.members rfl (by simp [listBody])
  simp only [listBody, List.cons_append, List.nil_append, ↓reduceIte, List.map_cons, List.map_nil,
    List.forall₂_cons, SameText.str_iff, SameText.int_iff] at hparts
  obtain ⟨hissuer, hnext, hrevoked, hsequence, hupdated, hversion, hsig, -⟩ := hparts
  have hrefs := revokedCj_inj hrevoked
  have hsignature := sig_inj hsig
  cases l
  cases m
  simp_all

/-! ## Observations -/

/-- An observation with its IDs in order. -/
def RevocationObservationV2.canonical (o : RevocationObservationV2) : RevocationObservationV2 :=
  { o with revokedCertIds := sortedUnique o.revokedCertIds }

theorem observationCj_eq_ok {o : RevocationObservationV2} {v : CJ} (h : observationCj o = .ok v) :
    v = .obj [
      ("accepted", .bool o.accepted),
      ("body_digest", .bytes o.bodyDigest),
      ("evidence_digest", .bytes o.evidenceDigest),
      ("fork", .bool o.fork),
      ("future_dated", .bool o.futureDated),
      ("gap", .bool o.gap),
      ("object_type_code", .int o.objectType),
      ("revoked_cert_ids", CJ.strs (sortedUnique o.revokedCertIds)),
      ("revoked_set_digest", .bytes o.revokedSetDigest),
      ("sequence", .int o.sequence),
      ("status_key_epoch", .int o.statusKeyEpoch),
      ("status_key_id", .str o.statusKeyId)] := by
  obtain ⟨epoch, hepoch, h⟩ := bind_eq_ok_iff.mp h
  rw [← Except.ok.inj h, uint_eq_ok hepoch]

theorem fits_observationCj {o : RevocationObservationV2} {v : CJ} (h : observationCj o = .ok v) :
    Fits 2 v := by
  rw [observationCj_eq_ok h]
  refine .obj 1 _ (by simp) ?_
  simp only [List.mem_cons, List.not_mem_nil, or_false, forall_eq_or_imp, forall_eq]
  exact ⟨.bool 1 _, .bytes 1 _, .bytes 1 _, .bool 1 _, .bool 1 _, .bool 1 _, .int 1 _,
    fits_strs 0 _, .bytes 1 _, .int 1 _, .int 1 _, .str 1 _⟩

theorem observationCj_inj {o p : RevocationObservationV2} {v w : CJ}
    (ho : observationCj o = .ok v) (hp : observationCj p = .ok w) (h : SameText v w) :
    o.canonical = p.canonical := by
  rw [observationCj_eq_ok ho, observationCj_eq_ok hp] at h
  have hparts := h.members rfl (by simp)
  simp only [List.map_cons, List.map_nil, List.forall₂_cons, SameText.str_iff, SameText.int_iff,
    SameText.bool_iff, SameText.bytes_iff, SameText.strs_iff, Int.natCast_inj] at hparts
  unfold RevocationObservationV2.canonical
  cases o
  cases p
  simp_all

/-! ## Issuers -/

/-- The members of an issuer's state that its text determines. -/
structure SameIssuer (a b : RevocationStatusStateV2) : Prop where
  issuerId : a.issuerId = b.issuerId
  statusKeyEpoch : a.statusKeyEpoch = b.statusKeyEpoch
  statusKeyId : a.statusKeyId = b.statusKeyId
  retired : a.retiredStatusKeyIds = b.retiredStatusKeyIds
  hasFloor : a.hasFloor = b.hasFloor
  floor : a.hasFloor = true → a.floor = b.floor
  acceptedSnapshot : a.acceptedSnapshot = b.acceptedSnapshot
  acceptedCertIds : a.acceptedCertIds = b.acceptedCertIds
  hasPrecedingCheckpoint : a.hasPrecedingCheckpoint = b.hasPrecedingCheckpoint
  preceding : a.hasPrecedingCheckpoint = true →
    a.precedingFloor = b.precedingFloor ∧ a.precedingAcceptedCertIds = b.precedingAcceptedCertIds
  denyUnion : a.denyUnionCertIds = b.denyUnionCertIds
  observations : a.observations.map (·.canonical) = b.observations.map (·.canonical)
  maxObserved : a.maxObservedSequence = b.maxObservedSequence
  forkSequence : a.forkSequence = b.forkSequence
  reconciliation : a.reconciliationRequired = b.reconciliationRequired
  futureDated : a.futureDatedObjectObserved = b.futureDatedObjectObserved

/-- The floor members: both in use or both null. -/
theorem floorCj_cases {issuerId : String} {s : RevocationStatusStateV2} {f l : CJ}
    (hfloor : s.hasFloor = s.acceptedSnapshot.isSome) (h : floorCj issuerId s = .ok (f, l)) :
    (∃ list, s.acceptedSnapshot = some list ∧ s.hasFloor = true ∧ f = .int s.floor
        ∧ l = listCj list true)
      ∨ (s.acceptedSnapshot = none ∧ s.hasFloor = false ∧ f = .null ∧ l = .null) := by
  unfold floorCj at h
  cases hsnap : s.acceptedSnapshot with
  | none =>
    rw [hsnap, Option.isSome_none] at hfloor
    rw [hsnap, hfloor] at h
    cases h
    exact .inr ⟨rfl, hfloor, rfl, rfl⟩
  | some list =>
    rw [hsnap, Option.isSome_some] at hfloor
    rw [hsnap, hfloor] at h
    obtain ⟨_, _, h⟩ := bind_eq_ok_iff.mp h
    cases h
    exact .inl ⟨list, rfl, hfloor, rfl, rfl⟩

/-- The text of an issuer whose state passed the floor check. -/
theorem issuerCj_eq_ok {issuerId : String} {s : RevocationStatusStateV2} {v : CJ}
    (h : issuerCj issuerId s = .ok v) :
    ∃ f l obs, s.hasFloor = s.acceptedSnapshot.isSome ∧ floorCj issuerId s = .ok (f, l)
      ∧ s.observations.mapM observationCj = .ok obs
      ∧ v = .obj [
        ("accepted_cert_ids", CJ.strs s.acceptedCertIds),
        ("accepted_snapshot", l),
        ("deny_union_cert_ids", CJ.strs s.denyUnionCertIds),
        ("floor", f),
        ("fork_sequence", .int s.forkSequence),
        ("future_dated_object_observed", .bool s.futureDatedObjectObserved),
        ("issuer_id", .str s.issuerId),
        ("max_observed_sequence", .int s.maxObservedSequence),
        ("observations", .arr obs),
        ("preceding_checkpoint", precedingCj s),
        ("reconciliation_required", .bool s.reconciliationRequired),
        ("retired_status_key_ids", CJ.strs s.retiredStatusKeyIds),
        ("status_key_epoch", .int s.statusKeyEpoch),
        ("status_key_id", .str s.statusKeyId)] := by
  obtain ⟨hfloor, h⟩ := refuseIf_bind_eq_ok_iff.mp h
  obtain ⟨⟨f, l⟩, hf, h⟩ := bind_eq_ok_iff.mp h
  obtain ⟨obs, hobs, h⟩ := bind_eq_ok_iff.mp h
  obtain ⟨epoch, hepoch, h⟩ := bind_eq_ok_iff.mp h
  refine ⟨f, l, obs, by simpa using hfloor, hf, hobs, ?_⟩
  rw [← Except.ok.inj h, uint_eq_ok hepoch]

theorem fits_precedingCj (s : RevocationStatusStateV2) : Fits 2 (precedingCj s) := by
  unfold precedingCj
  split
  · refine .obj 1 _ (by simp) ?_
    simp only [List.mem_cons, List.not_mem_nil, or_false, forall_eq_or_imp, forall_eq]
    exact ⟨fits_strs 0 _, .int 1 _⟩
  · exact .null 2

theorem fits_mapM {α : Type} {f : α → V2Result CJ} {levels : Nat} {xs : List α} {vs : List CJ}
    (hf : ∀ x v, f x = .ok v → Fits levels v) (h : xs.mapM f = .ok vs) :
    Fits (levels + 1) (.arr vs) := by
  apply Fits.arr
  intro v hv
  have hall := mapM_eq_ok_iff.mp h
  obtain ⟨i, hi, rfl⟩ := List.mem_iff_getElem.mp hv
  have hi' : i < xs.length := hall.length_eq ▸ hi
  exact hf _ _ ((List.forall₂_iff_get.mp hall).2 i hi' hi)

theorem fits_issuerCj {issuerId : String} {s : RevocationStatusStateV2} {v : CJ}
    (h : issuerCj issuerId s = .ok v) : Fits 4 v := by
  obtain ⟨f, l, obs, hfloor, hf, hobs, rfl⟩ := issuerCj_eq_ok h
  have hfl : Fits 3 f ∧ Fits 3 l := by
    rcases floorCj_cases hfloor hf with ⟨list, -, -, rfl, rfl⟩ | ⟨-, -, rfl, rfl⟩
    · exact ⟨.int 3 _, fits_listCj list⟩
    · exact ⟨.null 3, .null 3⟩
  refine .obj 3 _ (by simp) ?_
  simp only [List.mem_cons, List.not_mem_nil, or_false, forall_eq_or_imp, forall_eq]
  exact ⟨fits_strs 2 _, hfl.2, fits_strs 2 _, hfl.1, .int 3 _, .bool 3 _, .str 3 _, .int 3 _,
    fits_mapM (fun _ _ ho => fits_observationCj ho) hobs, (fits_precedingCj s).succ, .bool 3 _,
    fits_strs 2 _, .int 3 _, .str 3 _⟩

/-- Elements with the same text, element by element. -/
theorem mapM_inj {α β : Type} {f : α → V2Result CJ} {g : α → β} {xs ys : List α}
    {vs ws : List CJ} (hg : ∀ x y v w, f x = .ok v → f y = .ok w → SameText v w → g x = g y)
    (hxs : xs.mapM f = .ok vs) (hys : ys.mapM f = .ok ws) (h : SameText (.arr vs) (.arr ws)) :
    xs.map g = ys.map g := by
  have hall := h.arr
  rw [mapM_eq_ok_iff] at hxs hys
  clear h
  induction hall generalizing xs ys with
  | nil =>
    cases hxs
    cases hys
    rfl
  | cons hvw _ ih =>
    cases hxs with
    | cons hx hxs =>
      cases hys with
      | cons hy hys => rw [List.map_cons, List.map_cons, hg _ _ _ _ hx hy hvw, ih hxs hys]

theorem precedingCj_inj {a b : RevocationStatusStateV2}
    (h : SameText (precedingCj a) (precedingCj b)) :
    a.hasPrecedingCheckpoint = b.hasPrecedingCheckpoint
      ∧ (a.hasPrecedingCheckpoint = true → a.precedingFloor = b.precedingFloor
          ∧ a.precedingAcceptedCertIds = b.precedingAcceptedCertIds) := by
  unfold precedingCj at h
  cases ha : a.hasPrecedingCheckpoint <;> cases hb : b.hasPrecedingCheckpoint <;>
    simp only [ha, hb, Bool.false_eq_true, ↓reduceIte] at h
  · simp
  · exact absurd h SameText.not_null_obj
  · exact absurd h SameText.not_obj_null
  · have hparts := h.members rfl (by simp)
    simp only [List.map_cons, List.map_nil, List.forall₂_cons, SameText.strs_iff,
      SameText.int_iff] at hparts
    exact ⟨rfl, fun _ => ⟨hparts.2.1, hparts.1⟩⟩

theorem issuerCj_inj {i j : String} {a b : RevocationStatusStateV2} {v w : CJ}
    (ha : issuerCj i a = .ok v) (hb : issuerCj j b = .ok w) (h : SameText v w) :
    SameIssuer a b := by
  obtain ⟨f, l, obs, hfloor, hf, hobs, rfl⟩ := issuerCj_eq_ok ha
  obtain ⟨f', l', obs', hfloor', hf', hobs', rfl⟩ := issuerCj_eq_ok hb
  have hparts := h.members rfl (by simp)
  simp only [List.map_cons, List.map_nil, List.forall₂_cons, SameText.str_iff, SameText.int_iff,
    SameText.bool_iff, SameText.strs_iff, Int.natCast_inj] at hparts
  obtain ⟨haccepted, hsnap, hdeny, hfl, hfork, hfuture, hissuer, hmax, hobservations, hpreceding,
    hreconcile, hretired, hepoch, hkey, -⟩ := hparts
  have hfloors : a.hasFloor = b.hasFloor ∧ (a.hasFloor = true → a.floor = b.floor)
      ∧ a.acceptedSnapshot = b.acceptedSnapshot := by
    rcases floorCj_cases hfloor hf with ⟨list, hs, hhas, rfl, rfl⟩ | ⟨hs, hhas, rfl, rfl⟩ <;>
    rcases floorCj_cases hfloor' hf' with ⟨list', hs', hhas', rfl, rfl⟩ | ⟨hs', hhas', rfl, rfl⟩
    · exact ⟨hhas.trans hhas'.symm, fun _ => SameText.int_iff.mp hfl,
        by rw [hs, hs', listCj_inj hsnap]⟩
    · exact absurd hfl SameText.not_int_null
    · exact absurd hfl SameText.not_null_int
    · exact ⟨hhas.trans hhas'.symm, fun htrue => by simp [hhas] at htrue, hs.trans hs'.symm⟩
  have hcheckpoint := precedingCj_inj hpreceding
  exact {
    issuerId := hissuer
    statusKeyEpoch := hepoch
    statusKeyId := hkey
    retired := hretired
    hasFloor := hfloors.1
    floor := hfloors.2.1
    acceptedSnapshot := hfloors.2.2
    acceptedCertIds := haccepted
    hasPrecedingCheckpoint := hcheckpoint.1
    preceding := hcheckpoint.2
    denyUnion := hdeny
    observations := mapM_inj (fun _ _ _ _ ho hp => observationCj_inj ho hp) hobs hobs'
      hobservations
    maxObserved := hmax
    forkSequence := hfork
    reconciliation := hreconcile
    futureDated := hfuture }

/-! ## Whole snapshots -/

/-- The members of a journal that its snapshot determines. -/
structure SameSnapshot (a b : SecurityJournalV2) : Prop where
  version : a.version = b.version
  generation : a.generation = b.generation
  previous : snapshotPrevious a = snapshotPrevious b
  keyRoles : sortKeyRoleHistory a.keyRoleHistory = sortKeyRoleHistory b.keyRoleHistory
  statusKeys : sortStatusKeyHistory a.statusKeyHistory = sortStatusKeyHistory b.statusKeyHistory
  issuers : List.Forall₂
    (fun e f => SameIssuer (canonicalizeState e.2) (canonicalizeState f.2))
    a.statusByIssuer.entries b.statusByIssuer.entries

theorem keyRoleCj_inj {r s : KeyRoleBindingV2} (h : SameText (keyRoleCj r) (keyRoleCj s)) :
    r = s := by
  have hparts := h.members rfl (by simp)
  simp only [List.map_cons, List.map_nil, List.forall₂_cons, SameText.str_iff] at hparts
  cases r
  cases s
  simp_all

theorem statusKeyCj_eq_ok {b : StatusKeyBindingV2} {v : CJ} (h : statusKeyCj b = .ok v) :
    v = .obj [("ed25519_digest", .str b.ed25519Digest), ("epoch", .int b.epoch),
      ("issuer_id", .str b.issuerId), ("ml_dsa_65_digest", .str b.mlDsa65Digest),
      ("status_key_id", .str b.statusKeyId)] := by
  obtain ⟨epoch, hepoch, h⟩ := bind_eq_ok_iff.mp h
  rw [← Except.ok.inj h, uint_eq_ok hepoch]

theorem statusKeyCj_inj {b c : StatusKeyBindingV2} {v w : CJ} (hb : statusKeyCj b = .ok v)
    (hc : statusKeyCj c = .ok w) (h : SameText v w) : b = c := by
  rw [statusKeyCj_eq_ok hb, statusKeyCj_eq_ok hc] at h
  have hparts := h.members rfl (by simp)
  simp only [List.map_cons, List.map_nil, List.forall₂_cons, SameText.str_iff, SameText.int_iff,
    Int.natCast_inj] at hparts
  clear hb hc h
  cases b
  cases c
  simp_all

/-- The value a snapshot is the text of. -/
theorem snapshotCj_eq_ok {journal : SecurityJournalV2} {v : CJ} (h : snapshotCj journal = .ok v) :
    ∃ keys issuers, (sortStatusKeyHistory journal.statusKeyHistory).mapM statusKeyCj = .ok keys
      ∧ (journal.statusByIssuer.mapValues canonicalizeState).entries.mapM
          (fun e => issuerCj e.1 e.2) = .ok issuers
      ∧ v = .obj [
        ("generation", .int journal.generation),
        ("issuers", .arr issuers),
        ("key_role_history", .arr ((sortKeyRoleHistory journal.keyRoleHistory).map keyRoleCj)),
        ("previous_digest", .str (snapshotPrevious journal)),
        ("status_key_history", .arr keys),
        ("version", .int journal.version)] := by
  obtain ⟨-, h⟩ := refuseIf_bind_eq_ok_iff.mp h
  obtain ⟨keys, hkeys, h⟩ := bind_eq_ok_iff.mp h
  obtain ⟨issuers, hissuers, h⟩ := bind_eq_ok_iff.mp h
  obtain ⟨generation, hgeneration, h⟩ := bind_eq_ok_iff.mp h
  refine ⟨keys, issuers, hkeys, hissuers, ?_⟩
  rw [← Except.ok.inj h, uint_eq_ok hgeneration]
  rfl

theorem fits_snapshotCj {journal : SecurityJournalV2} {v : CJ} (h : snapshotCj journal = .ok v) :
    Fits 6 v := by
  obtain ⟨keys, issuers, hkeys, hissuers, rfl⟩ := snapshotCj_eq_ok h
  have hrole : ∀ r : KeyRoleBindingV2, Fits 4 (keyRoleCj r) := by
    intro r
    refine .obj 3 _ (by simp) ?_
    simp only [List.mem_cons, List.not_mem_nil, or_false, forall_eq_or_imp, forall_eq]
    exact ⟨.str 3 _, .str 3 _, .str 3 _, .str 3 _⟩
  have hkey : ∀ b v, statusKeyCj b = .ok v → Fits 4 v := by
    intro b v hb
    rw [statusKeyCj_eq_ok hb]
    refine .obj 3 _ (by simp) ?_
    simp only [List.mem_cons, List.not_mem_nil, or_false, forall_eq_or_imp, forall_eq]
    exact ⟨.str 3 _, .int 3 _, .str 3 _, .str 3 _, .str 3 _⟩
  refine .obj 5 _ (by simp) ?_
  simp only [List.mem_cons, List.not_mem_nil, or_false, forall_eq_or_imp, forall_eq]
  exact ⟨.int 5 _, fits_mapM (fun _ _ hi => fits_issuerCj hi) hissuers,
    fits_arr_map fun r _ => hrole r, .str 5 _, fits_mapM hkey hkeys, .int 5 _⟩

/-- Journals with the same snapshot bytes agree on everything a snapshot holds. -/
theorem sameSnapshot_of_bytes {a b : SecurityJournalV2} {data : Bytes}
    (ha : securityJournalSnapshotBytesV2 a = .ok data)
    (hb : securityJournalSnapshotBytesV2 b = .ok data) : SameSnapshot a b := by
  obtain ⟨v, hv, hvb⟩ := bind_eq_ok_iff.mp ha
  obtain ⟨w, hw, hwb⟩ := bind_eq_ok_iff.mp hb
  have hsame : SameText v w := sameText_of_canonical ((fits_snapshotCj hv).mono (by decide))
    ((fits_snapshotCj hw).mono (by decide)) hvb hwb
  obtain ⟨keys, issuers, hkeys, hissuers, rfl⟩ := snapshotCj_eq_ok hv
  obtain ⟨keys', issuers', hkeys', hissuers', rfl⟩ := snapshotCj_eq_ok hw
  have hparts := hsame.members rfl (by simp)
  simp only [List.map_cons, List.map_nil, List.forall₂_cons, SameText.str_iff, SameText.int_iff,
    Int.natCast_inj] at hparts
  obtain ⟨hgeneration, hissuer, hroles, hprevious, hstatus, hversion, -⟩ := hparts
  refine {
    version := hversion
    generation := hgeneration
    previous := hprevious
    keyRoles := SameText.eq_of_arr_map (fun _ _ _ _ h => keyRoleCj_inj h) hroles
    statusKeys := by
      simpa using mapM_inj (g := id) (fun _ _ _ _ hx hy h => statusKeyCj_inj hx hy h) hkeys hkeys'
        hstatus
    issuers := ?_ }
  have hall := hissuer.arr
  rw [mapM_eq_ok_iff] at hissuers hissuers'
  simp only [OrderedMap.mapValues, List.forall₂_map_left_iff] at hissuers hissuers'
  clear hvb hwb hv hw hsame hissuer
  generalize a.statusByIssuer.entries = xs at hissuers
  generalize b.statusByIssuer.entries = ys at hissuers'
  induction hall generalizing xs ys with
  | nil =>
    cases hissuers
    cases hissuers'
    exact .nil
  | cons hvw _ ih =>
    cases hissuers with
    | cons hx hxs =>
      cases hissuers' with
      | cons hy hys => exact .cons (issuerCj_inj hx hy hvw) (ih _ hxs _ hys)

end RatifyProtocol.V2
