import Mathlib.Data.List.Induction
import RatifyProtocol.V2.Accepting
import RatifyProtocol.V2.LogHistory
import RatifyProtocol.V2.WireSize
set_option autoImplicit false

/-!
# V2: runs of a log verifier

What one presented entry can do, the history that every run keeps, and the
agreement of two verifiers whose heads are equal.
-/

namespace RatifyProtocol.V2

open Foundation

variable {P : Primitives}

/-! ## Heads of accepted digests -/

theorem all_zero_iff {d : Bytes} (h : d.length = 48) :
    d.all (· == 0) = true ↔ d = zeroHash := by
  rw [List.all_eq_true, zeroHash, List.eq_replicate_iff]
  simp [h]

/-- A log starts from any well-formed log ID. -/
theorem genesis_valid_iff {logId : String} :
    (WitnessV2Head.genesis logId).Valid ↔ (utf8 logId).length = 32 ∧ lowerHex logId = true := by
  constructor
  · intro h
    rw [WitnessV2Head.Valid, validateHead] at h
    split at h
    · cases h
    · rename_i hid
      simp only [WitnessV2Head.genesis, Bool.or_eq_true, not_or] at hid
      have hlength : (utf8 logId).length = 32 :=
        by_contra fun hne => hid.1.1.1 (decide_eq_true hne)
      exact ⟨hlength, by simpa using hid.1.1.2⟩
  · intro h
    simp [WitnessV2Head.Valid, validateHead, WitnessV2Head.genesis, h.1, h.2, zeroHash, maxSafe]

/-- Digests numbered from `1` make a valid head. -/
theorem validateHead_numbered {logId : String} {ds : List Bytes}
    (hlog : (WitnessV2Head.genesis logId).Valid) (hlength : ∀ d ∈ ds, d.length = 48)
    (hzero : ∀ d ∈ ds, d ≠ zeroHash) (hsafe : (ds.length : Int) ≤ maxSafe) :
    validateHead logId ds.length (ds.headD zeroHash) (numbered ds) = .ok () := by
  obtain ⟨hlen, hhex⟩ := genesis_valid_iff.mp hlog
  have hid : (decide ((utf8 logId).length ≠ 32) || !lowerHex logId) = false := by
    simp only [hlen, hhex, ne_eq, not_true_eq_false, decide_false, Bool.not_true, Bool.or_false]
  cases ds with
  | nil => exact hlog
  | cons d ds =>
    have hd : d.length = 48 := hlength d List.mem_cons_self
    have hnonzero : d.all (· == 0) = false := by
      rw [← Bool.not_eq_true, all_zero_iff hd]
      exact hzero d List.mem_cons_self
    have hpos : (0 : Int) < ((d :: ds).length : Int) := by
      rw [List.length_cons]
      omega
    have hlookup : (numbered (d :: ds)).lookup ((d :: ds).length : Int) = some d := by
      rw [lookup_numbered _ hpos le_rfl, Int.toNat_natCast, Nat.sub_self, List.getElem?_cons_zero]
    have hentries : ((numbered (d :: ds)).any fun x =>
        decide (x.1 ≤ 0) || decide (x.1 > ((d :: ds).length : Int)) || x.2.length != 48) = false := by
      rw [List.any_eq_false]
      intro x hx
      obtain ⟨hx₁, hx₂, hx₃⟩ := mem_numbered hx
      simp only [hlength x.2 hx₃, bne_self_eq_false, Bool.or_false, Bool.or_eq_true,
        decide_eq_true_eq, not_or]
      omega
    have hplace : ¬ ((utf8 logId).length ≠ 32 || !lowerHex logId
        || !(0 ≤ ((d :: ds).length : Int) && ((d :: ds).length : Int) ≤ maxSafe)
        || ((d :: ds).headD zeroHash).length ≠ 48) = true := by
      rw [hid, List.headD_cons, hd]
      simp only [Bool.false_or, ne_eq, not_true_eq_false, decide_false, Bool.or_false,
        Bool.not_eq_true', Bool.not_eq_false, Bool.and_eq_true, decide_eq_true_eq]
      exact ⟨hpos.le, hsafe⟩
    have hne : (((d :: ds).length : Int) == 0) = false := by
      rw [beq_eq_false_iff_ne]
      omega
    rw [validateHead, if_neg hplace]
    simp only [List.headD_cons, hne, hnonzero, hlookup, hentries, length_numbered,
      bne_self_eq_false, Bool.and_false, Bool.false_and, Bool.or_false, Bool.false_eq_true, ↓reduceIte]

/-- SHA-384 keeps the hashed bodies apart from each other and from the genesis link. -/
structure DigestInjective (P : Primitives) (texts : Set Bytes) : Prop where
  injective : Set.InjOn P.sha384 texts
  nonzero : ∀ t ∈ texts, P.sha384 t ≠ zeroHash

namespace SignedLog

variable {α β : Type} {L : SignedLog α} {M : SignedLog β} {logId : String}

/-! ## One presented entry -/

/-- What one entry can do: nothing, freeze the log, or extend it. -/
theorem present_cases (hL : L.Decides P logId) {head : WitnessV2Head} (hlog : head.logId = logId)
    (hhead : head.Valid) (e : α) :
    (L.present head e = head ∧ L.verify e head ≠ .ok .appended)
    ∨ (L.present head e = head.freeze ∧ L.verify e head ≠ .ok .appended)
    ∨ (L.Signed e ∧ L.verify e head = .ok .appended ∧ head.frozen = false
      ∧ L.sequence e = head.sequence + 1 ∧ L.previous e = head.headHash
      ∧ L.present head e = head.append (L.sequence e) (L.chain.digest e)) := by
  by_cases hsigned : L.Signed e
  · obtain ⟨b, -, -, hverify⟩ := hL.placed hsigned hlog hhead
    cases houtcome : L.verify e head with
    | error x =>
      by_cases hx : x.cls = .logFork
      · exact .inr (.inl ⟨by simp only [present, houtcome, if_pos hx], by simp⟩)
      · exact .inl ⟨by simp only [present, houtcome, if_neg hx], by simp⟩
    | ok outcome =>
      cases outcome with
      | replay => exact .inl ⟨by simp only [present, houtcome], by simp⟩
      | appended =>
        rw [hverify] at houtcome
        obtain ⟨hopen, hsequence, hprevious⟩ := logPosition_eq_appended_iff.mp houtcome
        rw [← hverify] at houtcome
        exact .inr (.inr ⟨hsigned, rfl, hopen, hsequence, hprevious,
          by simp only [present, houtcome, chain]⟩)
  · have hneither : (∀ o, L.verify e head ≠ .ok o)
        ∧ ∀ x, L.verify e head = .error x → x.cls ≠ .logFork := hL.refused hsigned hlog
    obtain ⟨hrefused, hfork⟩ := hneither
    cases houtcome : L.verify e head with
    | ok outcome => exact absurd houtcome (hrefused outcome)
    | error x =>
      exact .inl ⟨by simp only [present, houtcome, if_neg (hfork x houtcome)], by simp⟩

/-- The digest of a validly signed entry. -/
theorem Decides.digest (hL : L.Decides P logId) {e : α} (he : L.Signed e)
    (hlog : (WitnessV2Head.genesis logId).Valid) :
    ∃ b, L.body e = .ok b ∧ L.chain.digest e = P.sha384 (statementBodyText L.code b) := by
  obtain ⟨b, hb, hdigest, -⟩ := hL.placed he rfl hlog
  exact ⟨b, hb, by simp only [chain, hdigest, digestOf]⟩

/-! ## The history of a run -/

theorem Positioned.getElem {es : List α} (h : L.Positioned es) {i : Nat} {a : α}
    (ha : es[i]? = some a) : L.sequence a = (es.length : Int) - i := by
  induction es generalizing i with
  | nil => simp at ha
  | cons e es ih =>
    cases i with
    | zero =>
      rw [List.getElem?_cons_zero, Option.some.injEq] at ha
      rw [← ha, h.1, List.length_cons]
      omega
    | succ i =>
      rw [List.getElem?_cons_succ] at ha
      rw [ih h.2 ha, List.length_cons]
      omega

/-- A history fits the safe-integer range. -/
theorem History.safe (hL : L.Decides P logId) {accepted : List α} {head : WitnessV2Head}
    (h : L.History logId accepted head) : (accepted.length : Int) ≤ maxSafe := by
  cases accepted with
  | nil => exact (by decide : (0 : Int) ≤ maxSafe)
  | cons e es =>
    have hbounds := (hL.bounds (h.signed e List.mem_cons_self)).2
    rw [h.positioned.1] at hbounds
    rw [List.length_cons]
    omega

/-- A history of nonzero digests is a valid head. -/
theorem History.valid (hL : L.Decides P logId) (hlog : (WitnessV2Head.genesis logId).Valid)
    {accepted : List α} {head : WitnessV2Head} (h : L.History logId accepted head)
    (hzero : ∀ t ∈ L.texts accepted, P.sha384 t ≠ zeroHash) : head.Valid := by
  have hdigests : ∀ d ∈ accepted.map L.chain.digest, d.length = 48 ∧ d ≠ zeroHash := by
    intro d hd
    obtain ⟨e, he, rfl⟩ := List.mem_map.mp hd
    obtain ⟨b, hb, hdigest⟩ := hL.digest (h.signed e he) hlog
    rw [hdigest]
    exact ⟨P.length_sha384 _, hzero _ ⟨e, he, h.signed e he, b, hb, rfl⟩⟩
  have hhead : head.headHash = (accepted.map L.chain.digest).headD zeroHash := by
    rw [h.headHash]
    cases accepted <;> rfl
  have hlength : head.sequence = ((accepted.map L.chain.digest).length : Int) := by
    rw [h.sequence, List.length_map]
  have hsafe : ((accepted.map L.chain.digest).length : Int) ≤ maxSafe := by
    rw [List.length_map]
    exact h.safe hL
  rw [WitnessV2Head.Valid, h.logId, hlength, hhead, h.digests]
  exact validateHead_numbered hlog (fun d hd => (hdigests d hd).1) (fun d hd => (hdigests d hd).2)
    hsafe

/-- One entry extends the history by itself or leaves it. -/
theorem History.present (hL : L.Decides P logId) {accepted : List α} {head : WitnessV2Head}
    (h : L.History logId accepted head) (hhead : head.Valid) (e : α) :
    ∃ accepted', accepted' ⊆ e :: accepted ∧ L.History logId accepted' (L.present head e) := by
  rcases present_cases hL h.logId hhead e with ⟨hsame, -⟩ | ⟨hfreeze, -⟩
    | ⟨hsigned, -, -, hsequence, hprevious, happend⟩
  · rw [hsame]
    exact ⟨accepted, List.subset_cons_self _ _, h⟩
  · rw [hfreeze]
    exact ⟨accepted, List.subset_cons_self _ _,
      ⟨h.logId, h.signed, h.positioned, h.linked, h.sequence, h.headHash, h.digests⟩⟩
  · rw [happend]
    rw [h.sequence] at hsequence
    refine ⟨e :: accepted, List.Subset.refl _, ⟨h.logId, ?_, ⟨hsequence, h.positioned⟩,
      ⟨hprevious.trans h.headHash, h.linked⟩, ?_, rfl, ?_⟩⟩
    · intro a ha
      rcases List.mem_cons.mp ha with rfl | ha
      · exact hsigned
      · exact h.signed a ha
    · rw [List.length_cons]
      exact hsequence.trans (by omega)
    · have hlast : ∀ x ∈ numbered (accepted.map L.chain.digest), x.1 < L.sequence e := by
        intro x hx
        have := (mem_numbered hx).2.1
        rw [List.length_map] at this
        omega
      simp only [WitnessV2Head.append, h.digests]
      rw [OrderedMap.place_of_forall_lt hlast, hsequence, List.map_cons, numbered, List.length_map]

theorem texts_mono {es fs : List α} (h : es ⊆ fs) : L.texts es ⊆ L.texts fs := by
  intro t ht
  obtain ⟨e, he, hrest⟩ := ht
  exact ⟨e, h he, hrest⟩

theorem run_concat (es : List α) (e : α) :
    L.run logId (es ++ [e]) = L.present (L.run logId es) e := by
  rw [run, List.foldl_append]
  rfl

/-- Every run keeps the history of some of the presented entries. -/
theorem exists_history (hL : L.Decides P logId) (hlog : (WitnessV2Head.genesis logId).Valid)
    (es : List α) (hzero : ∀ t ∈ L.texts es, P.sha384 t ≠ zeroHash) :
    ∃ accepted, accepted ⊆ es ∧ L.History logId accepted (L.run logId es)
      ∧ (L.run logId es).Valid := by
  induction es using List.reverseRecOn with
  | nil =>
    exact ⟨[], List.Subset.refl _,
      ⟨rfl, by simp, trivial, trivial, rfl, rfl, rfl⟩, hlog⟩
  | append_singleton es e ih =>
    obtain ⟨accepted, hsub, h, hhead⟩ :=
      ih fun t ht => hzero t (texts_mono (List.subset_append_left es [e]) ht)
    obtain ⟨accepted', hsub', h'⟩ := h.present hL hhead e
    have hall : accepted' ⊆ es ++ [e] := by
      intro a ha
      rcases List.mem_cons.mp (hsub' ha) with rfl | ha
      · exact List.mem_append_right _ List.mem_cons_self
      · exact List.mem_append_left _ (hsub ha)
    rw [run_concat]
    exact ⟨accepted', hall, h', h'.valid hL hlog fun t ht => hzero t (texts_mono hall ht)⟩

/-! ## One history -/

/-- An accepted entry stands under its position. -/
theorem History.accepted_at {accepted : List α} {head : WitnessV2Head}
    (h : L.History logId accepted head) {k : Int} (hpos : 0 < k) (hle : k ≤ head.sequence) :
    ∃ a ∈ accepted, L.sequence a = k
      ∧ head.acceptedDigests.lookup k = some (L.chain.digest a) := by
  rw [h.sequence] at hle
  have hindex : accepted.length - k.toNat < accepted.length := by omega
  have hget : accepted[accepted.length - k.toNat]? = some accepted[accepted.length - k.toNat] :=
    List.getElem?_eq_getElem hindex
  refine ⟨_, List.getElem_mem hindex, ?_, ?_⟩
  · rw [h.positioned.getElem hget]
    omega
  · rw [h.digests, lookup_numbered _ hpos (by rw [List.length_map]; exact hle), List.length_map,
      List.getElem?_map, hget, Option.map_some]

/-- What the presented entries `es` make of the log. -/
structure OneHistory (L : SignedLog α) (logId : String) (es : List α) : Prop where
  /-- The head is valid after every step. -/
  valid : ∀ before after, es = before ++ after → (L.run logId before).Valid
  /-- The accepted digests are those of one chain of the entries `1 .. head`. -/
  history : ∀ before after, es = before ++ after →
    ∃ accepted, accepted ⊆ before ∧ L.History logId accepted (L.run logId before)
  /-- At an accepted sequence the accepted entry replays and any other forks. -/
  known : ∀ before e after, es = before ++ e :: after → L.Signed e →
    L.sequence e ≤ (L.run logId before).sequence →
    ∃ a ∈ before, L.Signed a ∧ L.sequence a = L.sequence e
      ∧ (L.run logId before).acceptedDigests.lookup (L.sequence e) = some (L.chain.digest a)
      ∧ (L.verify e (L.run logId before) = .ok .replay ↔ L.body e = L.body a)
      ∧ (L.body e ≠ L.body a →
        ∃ x, L.verify e (L.run logId before) = .error x ∧ x.cls = .logFork)
  /-- Beyond the head nothing replays. -/
  unknown : ∀ before e after, es = before ++ e :: after →
    (L.run logId before).sequence < L.sequence e →
    L.verify e (L.run logId before) ≠ .ok .replay
  /-- A fork freezes the log. -/
  freezes : ∀ before e after, es = before ++ e :: after →
    (∃ x, L.verify e (L.run logId before) = .error x ∧ x.cls = .logFork) →
    (L.run logId (before ++ [e])).frozen = true
  /-- A frozen log accepts nothing more. -/
  frozen : ∀ before e after, es = before ++ e :: after → (L.run logId before).frozen = true →
    L.verify e (L.run logId before) ≠ .ok .appended
      ∧ L.run logId (before ++ [e]) = L.run logId before

theorem oneHistory (hL : L.Decides P logId) (hlog : (WitnessV2Head.genesis logId).Valid)
    {es : List α} (hhash : DigestInjective P (L.texts es)) : L.OneHistory logId es := by
  have hrun : ∀ before after, es = before ++ after →
      ∃ accepted, accepted ⊆ before ∧ L.History logId accepted (L.run logId before)
        ∧ (L.run logId before).Valid := by
    intro before after hes
    refine exists_history hL hlog before fun t ht => hhash.nonzero t (texts_mono ?_ ht)
    rw [hes]
    exact List.subset_append_left before after
  refine ⟨?_, ?_, ?_, ?_, ?_, ?_⟩
  · intro before after hes
    obtain ⟨-, -, -, hvalid⟩ := hrun before after hes
    exact hvalid
  · intro before after hes
    obtain ⟨accepted, hsub, h, -⟩ := hrun before after hes
    exact ⟨accepted, hsub, h⟩
  · intro before e after hes hsigned hle
    obtain ⟨accepted, hsub, h, hvalid⟩ := hrun before (e :: after) hes
    obtain ⟨a, ha, hsequence, hlookup⟩ := h.accepted_at (hL.bounds hsigned).1 hle
    obtain ⟨b, hb, -, hverify⟩ := hL.placed hsigned h.logId hvalid
    obtain ⟨c, hc, hdigest⟩ := hL.digest (h.signed a ha) hlog
    -- equal digests are equal bodies: both texts are hashed in this run
    have hsame : L.chain.digest a = P.sha384 (statementBodyText L.code b) ↔ L.body e = L.body a := by
      rw [hdigest, hb, hc, Except.ok.injEq]
      constructor
      · intro heq
        have he : e ∈ es := hes ▸ List.mem_append_right _ List.mem_cons_self
        have hmem : a ∈ es := hes ▸ List.mem_append_left _ (hsub ha)
        have htext := hhash.injective ⟨a, hmem, h.signed a ha, c, hc, rfl⟩
          ⟨e, he, hsigned, b, hb, rfl⟩ heq
        exact (List.append_cancel_left htext).symm
      · intro heq
        rw [heq]
    refine ⟨a, hsub ha, h.signed a ha, hsequence, hlookup, ?_⟩
    rw [hverify, ← hsame]
    rcases logPosition_of_le (L.previous e) (P.sha384 (statementBodyText L.code b)) hle with
      ⟨hfound, hreplay⟩ | ⟨hother, hfork⟩
    · rw [hlookup, Option.some.injEq] at hfound
      exact ⟨⟨fun _ => hfound, fun _ => hreplay⟩, fun hne => absurd (hsame.mp hfound) hne⟩
    · rw [hlookup, ne_eq, Option.some.injEq] at hother
      obtain ⟨x, hx, hclass⟩ := hfork
      refine ⟨⟨fun hreplay => ?_, fun hfound => absurd hfound hother⟩, fun _ => ⟨x, hx, hclass⟩⟩
      rw [hx] at hreplay
      cases hreplay
  · intro before e after hes hgt
    obtain ⟨accepted, hsub, h, hvalid⟩ := hrun before (e :: after) hes
    by_cases hsigned : L.Signed e
    · obtain ⟨b, -, -, hverify⟩ := hL.placed hsigned h.logId hvalid
      rw [hverify]
      exact (logPosition_of_gt hgt).1
    · exact (hL.refused hsigned h.logId).1 .replay
  · intro before e after hes hfork
    obtain ⟨x, hx, hclass⟩ := hfork
    rw [run_concat]
    simp only [SignedLog.present, hx, if_pos hclass, WitnessV2Head.freeze]
  · intro before e after hes hfrozen
    obtain ⟨accepted, hsub, h, hvalid⟩ := hrun before (e :: after) hes
    rw [run_concat]
    rcases present_cases hL h.logId hvalid e with ⟨hkept, hout⟩ | ⟨hfreeze, hout⟩
      | ⟨-, -, hopen, -⟩
    · exact ⟨hout, hkept⟩
    · refine ⟨hout, hfreeze.trans ?_⟩
      rw [WitnessV2Head.freeze, ← hfrozen]
    · rw [hfrozen] at hopen
      cases hopen

end SignedLog

/-! ## Agreement -/

/-- Equal digests of signed entries are digests of one body, so of one link. -/
theorem IsLog.binds {α β : Type} {i j : String} {L : SignedLog α} {M : SignedLog β}
    (hL : IsLog P i L) (hM : IsLog P j M) (hi : (WitnessV2Head.genesis i).Valid)
    (hj : (WitnessV2Head.genesis j).Valid) {es : List α} {fs : List β}
    (hinjective : Set.InjOn P.sha384 (L.texts es ∪ M.texts fs)) (hes : ∀ e ∈ es, L.Signed e)
    (hfs : ∀ f ∈ fs, M.Signed f) : L.chain.Binds M.chain es fs := by
  intro e he f hf hdigest
  obtain ⟨b, hb, hbd⟩ := hL.decides.digest (hes e he) hi
  obtain ⟨c, hc, hcd⟩ := hM.decides.digest (hfs f hf) hj
  rw [hbd, hcd] at hdigest
  have htext := hinjective (.inl ⟨e, he, hes e he, b, hb, rfl⟩)
    (.inr ⟨f, hf, hfs f hf, c, hc, rfl⟩) hdigest
  obtain ⟨hcode, rfl⟩ := statementBodyText_inj hL.code_lt hM.code_lt htext
  exact (hL.place_eq hM hcode (hes e he) (hfs f hf) hb hc).1

/-- **Log verification folds to one history.**  Whatever is presented, the accepted
digests are those of one hash chain of the entries `1 .. head`, an entry at or below
the head replays exactly if it is the accepted one and forks otherwise, a frozen log
accepts nothing, and two verifiers with equal heads accepted the same digests. -/
theorem logs_fold_to_one_history {α β : Type} {i j : String} {L : SignedLog α} {M : SignedLog β}
    (hL : IsLog P i L) (hM : IsLog P j M) (hi : (WitnessV2Head.genesis i).Valid)
    (hj : (WitnessV2Head.genesis j).Valid) {es : List α} {fs : List β}
    (hhash : DigestInjective P (L.texts es ∪ M.texts fs)) :
    L.OneHistory i es ∧ M.OneHistory j fs
      ∧ ((L.run i es).sequence = (M.run j fs).sequence →
        (L.run i es).headHash = (M.run j fs).headHash →
        (L.run i es).acceptedDigests = (M.run j fs).acceptedDigests) := by
  have hes : L.OneHistory i es := SignedLog.oneHistory hL.decides hi
    ⟨hhash.injective.mono Set.subset_union_left, fun t ht => hhash.nonzero t (.inl ht)⟩
  have hfs : M.OneHistory j fs := SignedLog.oneHistory hM.decides hj
    ⟨hhash.injective.mono Set.subset_union_right, fun t ht => hhash.nonzero t (.inr ht)⟩
  refine ⟨hes, hfs, fun hsequence hhead => ?_⟩
  obtain ⟨as, has, hhistory⟩ := hes.history es [] (List.append_nil es).symm
  obtain ⟨bs, hbs, hhistory'⟩ := hfs.history fs [] (List.append_nil fs).symm
  have hbinds : L.chain.Binds M.chain as bs :=
    hL.binds hM hi hj (hhash.injective.mono (Set.union_subset_union
      (SignedLog.texts_mono has) (SignedLog.texts_mono hbs))) hhistory.signed hhistory'.signed
  have hlength : as.length = bs.length := by
    have := hhistory.sequence.symm.trans (hsequence.trans hhistory'.sequence)
    omega
  have hheads : L.chain.head as = M.chain.head bs :=
    hhistory.headHash.symm.trans (hhead.trans hhistory'.headHash)
  rw [hhistory.digests, hhistory'.digests,
    HashChain.digests_eq hhistory.linked hhistory'.linked hbinds hlength hheads]

/-! ## A log of two entries -/

def trialLogId : String := "00000000000000000000000000000000"

/-- A signed entry of the trial log. -/
def trialEntry (sequence : Int) (previous : Bytes) : WitnessEntryV2 where
  version := 2
  logId := trialLogId
  sequence := sequence
  prevHash := previous
  entryData := []
  timestamp := sequence
  witnessId := hexEncode (1 :: List.replicate 31 0)
  signature := tabledSignature

/-- The text hashed for an entry. -/
def trialText (e : WitnessEntryV2) : Bytes :=
  statementBodyText 6 (SignedLog.digestOf (witnessEntryV2SignableBytes e))

def trialTable : List Bytes := [[], trialText (trialEntry 1 zeroHash)]

/-- The second entry names the digest of the first. -/
def secondEntry : WitnessEntryV2 :=
  trialEntry 2 (tableDigest trialTable (trialText (trialEntry 1 zeroHash)))

theorem genesis_trial : (WitnessV2Head.genesis trialLogId).Valid :=
  genesis_valid_iff.mpr (by decide +kernel)

theorem trialText_ne_nil (e : WitnessEntryV2) : trialText e ≠ [] := by
  intro h
  rw [trialText, statementBodyText, List.append_assoc, List.append_eq_nil_iff] at h
  exact absurd h.1 (by decide +kernel)

theorem trialEntry_valid {sequence : Int} {previous : Bytes} (hpos : 0 < sequence)
    (hsmall : sequence ≤ 2) (hlength : previous.length = 48)
    (hlink : sequence = 1 ↔ previous = zeroHash) :
    WitnessEntryValid (trialEntry sequence previous) where
  version := rfl
  logId := (genesis_valid_iff.mp genesis_trial).1
  hex := (genesis_valid_iff.mp genesis_trial).2
  sequence_pos := hpos
  sequence_le := by
    simp only [trialEntry, maxSafe]
    omega
  timestamp := by
    simp only [trialEntry, v2MaxTimestampSeconds]
    omega
  previous := hlength
  data := Nat.zero_le _
  genesis := by
    have hzero := (all_zero_iff hlength).trans hlink.symm
    simp only [trialEntry]
    by_cases h : sequence = 1
    · rw [hzero.mpr h, Bool.not_true, Bool.and_false]
    · rw [beq_eq_false_iff_ne.mpr h, Bool.false_and]
  link := by
    have hzero := (all_zero_iff hlength).trans hlink.symm
    simp only [trialEntry]
    by_cases h : sequence = 1
    · rw [h]
      rfl
    · rw [Bool.eq_false_iff.mpr fun hall => h (hzero.mp hall), Bool.and_false]
  witnessId := validV2Id_of_keyIdV2 (counting []) ((accepting_counting []).keyIdV2 1)

theorem idxOf_trialText : trialTable.idxOf (trialText (trialEntry 1 zeroHash)) = 1 := by
  rw [trialTable, List.idxOf_cons_ne _ (trialText_ne_nil _).symm, List.idxOf_cons_self]

theorem secondEntry_valid : WitnessEntryValid secondEntry := by
  apply trialEntry_valid (by decide) (by decide)
  · simp [tableDigest]
  · rw [tableDigest, idxOf_trialText]
    exact ⟨fun h => absurd h (by decide), fun h => absurd h (by decide +kernel)⟩

theorem trialEntry_one_valid : WitnessEntryValid (trialEntry 1 zeroHash) :=
  trialEntry_valid (by decide) (by decide) List.length_replicate ⟨fun _ => rfl, fun _ => rfl⟩

/-- The two entries have different texts. -/
theorem trialText_second_ne : trialText secondEntry ≠ trialText (trialEntry 1 zeroHash) := by
  obtain ⟨b, hb⟩ := exists_witnessSignable secondEntry_valid
  obtain ⟨c, hc⟩ := exists_witnessSignable trialEntry_one_valid
  intro h
  rw [trialText, trialText, hb, hc] at h
  obtain ⟨-, hbody⟩ := statementBodyText_inj (by decide) (by decide) h
  have hbody' : b = c := hbody
  rw [hbody'] at hb
  have hsame := congrArg WitnessEntryV2.sequence (unsigned_eq_of_witnessSignable hb hc)
  exact absurd hsame (by decide)

theorem idxOf_trialText_second : trialTable.idxOf (trialText secondEntry) = 2 := by
  rw [trialTable, List.idxOf_cons_ne _ (trialText_ne_nil _).symm,
    List.idxOf_cons_ne _ trialText_second_ne.symm, List.idxOf_nil]

/-- One verifier is shown the two entries in order, the other the second, the first
and the second again. -/
theorem logs_fold_two_entries :
    let L := witnessLog (counting trialTable) (tabledKey 1) trialLogId
    let es := [trialEntry 1 zeroHash, secondEntry]
    let fs := [secondEntry, trialEntry 1 zeroHash, secondEntry]
    L.OneHistory trialLogId es ∧ L.OneHistory trialLogId fs
      ∧ ((L.run trialLogId es).sequence = (L.run trialLogId fs).sequence →
        (L.run trialLogId es).headHash = (L.run trialLogId fs).headHash →
        (L.run trialLogId es).acceptedDigests = (L.run trialLogId fs).acceptedDigests) := by
  apply logs_fold_to_one_history (IsLog.witness (tabledKey 1) trialLogId)
    (IsLog.witness (tabledKey 1) trialLogId) genesis_trial genesis_trial
  have htexts : ∀ t ∈ SignedLog.texts (witnessLog (counting trialTable) (tabledKey 1) trialLogId)
        [trialEntry 1 zeroHash, secondEntry]
      ∪ SignedLog.texts (witnessLog (counting trialTable) (tabledKey 1) trialLogId)
        [secondEntry, trialEntry 1 zeroHash, secondEntry],
      t = trialText (trialEntry 1 zeroHash) ∨ t = trialText secondEntry := by
    intro t ht
    have hentry : ∃ e, (e = trialEntry 1 zeroHash ∨ e = secondEntry) ∧ t = trialText e := by
      rcases ht with ht | ht <;>
      · obtain ⟨e, he, -, b, hb, rfl⟩ := ht
        refine ⟨e, by simpa [or_comm] using he, ?_⟩
        have hbody : witnessEntryV2SignableBytes e = .ok b := hb
        rw [trialText, hbody]
        rfl
    obtain ⟨e, he, rfl⟩ := hentry
    exact he.imp (congrArg trialText) (congrArg trialText)
  constructor
  · intro s hs t ht heq
    change tableDigest trialTable s = tableDigest trialTable t at heq
    rcases htexts s hs with rfl | rfl <;> rcases htexts t ht with rfl | rfl
    · rfl
    · rw [tableDigest, tableDigest, idxOf_trialText, idxOf_trialText_second] at heq
      exact absurd heq (by decide +kernel)
    · rw [tableDigest, tableDigest, idxOf_trialText, idxOf_trialText_second] at heq
      exact absurd heq (by decide +kernel)
    · rfl
  · intro t ht
    change tableDigest trialTable t ≠ zeroHash
    rcases htexts t ht with rfl | rfl
    · rw [tableDigest, idxOf_trialText]
      decide +kernel
    · rw [tableDigest, idxOf_trialText_second]
      decide +kernel

end RatifyProtocol.V2
