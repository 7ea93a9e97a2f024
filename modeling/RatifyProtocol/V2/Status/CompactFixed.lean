import RatifyProtocol.V2.Status.CompactRun
set_option autoImplicit false

/-!
# Status: fixed points of compaction

A state in which every observation has a key of its own, and keeps in full or
shares no ID with an earlier one, is a fixed point of `compact` (`Compacted`).
Compacting a reachable state leads to such a state, because a second observation
of a key adds only IDs that were witnessed before the first.
-/

namespace RatifyProtocol.V2

open Foundation

variable {P : Primitives} {X : Set StatusObject} {s : RevocationStatusStateV2} {base : Bytes}
  {a b o r : RevocationObservationV2} {c : CompactLoop} {ids : List String}
  {seen obs : List RevocationObservationV2}

/-- Compaction keeps the observation with all its IDs. -/
def keptFull (s : RevocationStatusStateV2) (base : Bytes) (o : RevocationObservationV2) : Bool :=
  acceptedBase s base o || mustRetain s o

/-- `b` is kept in full or shares no ID with the earlier `a`. -/
def Stripped (s : RevocationStatusStateV2) (base : Bytes) (a b : RevocationObservationV2) : Prop :=
  keptFull s base b = false → ∀ id ∈ b.revokedCertIds, id ∉ a.revokedCertIds

/-! ## Fixed points -/

/-- The state is the result of a compaction. -/
structure Compacted (P : Primitives) (s : RevocationStatusStateV2) : Prop where
  canonical : canonicalizeState s = s
  sorted : s.observations.Pairwise InOrder
  keys : (s.observations.map semanticKey).Nodup
  stripped : s.observations.Pairwise (Stripped s (baseDigest P s))
  settled : settleBase s (baseDigest P s) s.observations = s.observations

theorem newWitnesses_eq_self {witnessed : List String} (hids : ids.Nodup)
    (hnew : ∀ id ∈ ids, id ∉ witnessed) : newWitnesses witnessed ids = ids := by
  induction ids generalizing witnessed with
  | nil => rfl
  | cons x ids ih =>
    rw [List.nodup_cons] at hids
    have hx : ¬ witnessed.contains x = true := by simpa using hnew x List.mem_cons_self
    rw [newWitnesses, if_neg hx, ih hids.2]
    intro id hid hmem
    rcases List.mem_cons.mp hmem with rfl | hmem
    · exact hids.1 hid
    · exact hnew id (List.mem_cons_of_mem _ hid) hmem

/-- The loop retains observations of different keys, stripped already, as they are. -/
theorem foldl_compacted (hinv : LoopInvariant s base seen c)
    (hret : c.retained = seen.map fun o => (semanticKey o, o))
    (hkeys : ((seen ++ obs).map semanticKey).Nodup)
    (hstrip : (seen ++ obs).Pairwise (Stripped s base))
    (hids : ∀ o ∈ obs, o.revokedCertIds.Nodup) :
    (obs.foldl (compactStep s base) c).retained
      = (seen ++ obs).map fun o => (semanticKey o, o) := by
  induction obs generalizing seen c with
  | nil => simpa using hret
  | cons o obs ih =>
    rw [← List.singleton_append, ← List.append_assoc] at hkeys hstrip ⊢
    rw [List.singleton_append, List.foldl_cons]
    refine ih (hinv.step o) ?_ hkeys hstrip fun x hx => hids x (List.mem_cons_of_mem _ hx)
    rw [List.map_append, List.nodup_append] at hkeys
    have hprev := (List.pairwise_append.mp hstrip).1
    have hkept : keptIds s base c o = o.revokedCertIds := by
      unfold keptIds
      split
      · rfl
      · rename_i hfull
        refine newWitnesses_eq_self (hids o List.mem_cons_self) fun id hid hmem => ?_
        obtain ⟨w, hw, hin⟩ := (hinv.witnessed id).mp hmem
        exact (List.pairwise_append.mp hprev).2.2 w hw o (List.mem_singleton_self o)
          (Bool.not_eq_true _ ▸ hfull) id hid hin
    rcases compactStep_cases s base c o with ⟨⟨e, he, hk⟩, -⟩ | ⟨-, hnew⟩
    · -- An entry of the key would be an earlier observation of the key.
      rw [hret] at he
      obtain ⟨x, hx, rfl⟩ := List.mem_map.mp he
      have hprevKeys := hkeys.1
      rw [List.map_append, List.nodup_append] at hprevKeys
      exact absurd hk (hprevKeys.2.2 _ (List.mem_map_of_mem hx) _ (List.mem_singleton_self _))
    · rw [hnew, hret, hkept, List.map_append, List.map_singleton]

/-- A compacted state is a fixed point. -/
theorem compact_eq_self (h : Compacted P s) : compact P s = s := by
  have hsorted : s.observations.insertionSort InOrder = s.observations :=
    h.sorted.insertionSort_eq
  have hids : ∀ o ∈ s.observations, o.revokedCertIds.Nodup := by
    have hcanon : (canonicalizeState s).observations = s.observations :=
      congrArg RevocationStatusStateV2.observations h.canonical
    intro o ho
    rw [← hcanon] at ho
    obtain ⟨x, -, rfl⟩ := List.mem_map.mp ho
    exact nodup_sortedUnique _
  have hkeys : (([] ++ s.observations).map semanticKey).Nodup := h.keys
  have hloop := foldl_compacted (LoopInvariant.nil s (baseDigest P s)) rfl hkeys h.stripped hids
  rw [List.nil_append] at hloop
  have hsnd : ((s.observations.foldl (compactStep s (baseDigest P s))
      { retained := [], witnessed := [] }).retained.map Prod.snd) = s.observations := by
    rw [hloop, List.map_map]
    exact List.map_id' _
  have hcompact : compact P s = canonicalizeState
      { s with
        observations := settleBase s (baseDigest P s)
          (((s.observations.insertionSort InOrder).foldl (compactStep s (baseDigest P s))
            { retained := [], witnessed := [] }).retained.map Prod.snd) } := rfl
  rw [hcompact, hsorted, hsnd, h.settled]
  exact h.canonical

/-! ## Merging keeps the stripping -/

theorem mustRetain_list_iff (h : o.objectType = LIST) :
    mustRetain s o = true ↔ o.statusKeyEpoch = s.statusKeyEpoch ∧
      s.reconciliationRequired = true ∧
      (s.floor < o.sequence ∨ o.fork = true ∨ o.gap = true ∨ o.futureDated = true) := by
  have hpush : ¬ LIST = PUSH := by decide
  unfold mustRetain
  by_cases hep : o.statusKeyEpoch = s.statusKeyEpoch
  · cases s.acceptedSnapshot <;> simp [hep, h, hpush, or_assoc]
  · simp [hep]

/-- An entry that is not kept in full after a fold was not before, and the folded
observation is not either. -/
theorem keptFull_of_mergeInto (hkey : semanticKey r = semanticKey o) (htype : o.objectType = LIST)
    (hfuture : o.futureDated = false)
    (h : keptFull s base (mergeInto s base o ids r) = false) :
    keptFull s base r = false ∧ keptFull s base o = false := by
  obtain ⟨hep, hty, hseq, -, hfut, hfork⟩ := semanticKey_eq_iff.mp hkey
  have hm : ∀ m, m = mergeInto s base o ids r → m.statusKeyEpoch = r.statusKeyEpoch ∧
      m.objectType = r.objectType ∧ m.sequence = r.sequence ∧ m.fork = (r.fork || o.fork) ∧
      (s.reconciliationRequired = true → m.gap = (r.gap || o.gap)) ∧
      (acceptedBase s base r = true ∨ acceptedBase s base o = true → m.evidenceDigest = base) := by
    rintro m rfl
    unfold mergeInto
    split
    · rename_i hbase
      exact ⟨rfl, rfl, rfl, rfl, fun hrec => by simp [hrec],
        fun _ => (acceptedBase_iff.mp hbase).2.2.2.2⟩
    · rename_i hbase
      exact ⟨rfl, rfl, rfl, rfl, fun _ => rfl,
        fun hor => (acceptedBase_iff.mp (hor.resolve_right hbase)).2.2.2.2⟩
  generalize mergeInto s base o ids r = m at h hm
  obtain ⟨m₁, m₂, m₃, m₄, m₅, m₆⟩ := hm m rfl
  have hmt : m.objectType = LIST := m₂.trans (hty.trans htype)
  simp only [keptFull, Bool.or_eq_false_iff] at h ⊢
  have hbase : ¬ (acceptedBase s base r = true ∨ acceptedBase s base o = true) := by
    intro hor
    have hfields : base ≠ [] ∧ o.statusKeyEpoch = s.statusKeyEpoch ∧
        s.acceptedSnapshot.map (·.sequence) = some o.sequence := by
      rcases hor with hb | hb
      · obtain ⟨h₁, h₂, -, h₄, -⟩ := acceptedBase_iff.mp hb
        exact ⟨h₁, hep ▸ h₂, hseq ▸ h₄⟩
      · obtain ⟨h₁, h₂, -, h₄, -⟩ := acceptedBase_iff.mp hb
        exact ⟨h₁, h₂, h₄⟩
    have : acceptedBase s base m = true := by
      rw [acceptedBase_iff, m₁, m₃, hep, hseq]
      exact ⟨hfields.1, hfields.2.1, hmt, hfields.2.2, m₆ hor⟩
    rw [h.1] at this
    cases this
  have hretain : ¬ (mustRetain s r = true ∨ mustRetain s o = true) := by
    rw [mustRetain_list_iff (hty.trans htype), mustRetain_list_iff htype]
    intro hor
    have : mustRetain s m = true := by
      rw [mustRetain_list_iff hmt]
      rcases hor with ⟨h₁, h₂, h₃⟩ | ⟨h₁, h₂, h₃⟩
      · refine ⟨m₁.trans h₁, h₂, ?_⟩
        rw [m₃, m₄, m₅ h₂]
        rcases h₃ with h₃ | h₃ | h₃ | h₃
        · exact .inl h₃
        · exact .inr (.inl (by simp [h₃]))
        · exact .inr (.inr (.inl (by simp [h₃])))
        · rw [hfut, hfuture] at h₃
          cases h₃
      · refine ⟨m₁.trans (hep.trans h₁), h₂, ?_⟩
        rw [m₃, m₄, m₅ h₂, hseq]
        rcases h₃ with h₃ | h₃ | h₃ | h₃
        · exact .inl h₃
        · exact .inr (.inl (by simp [h₃]))
        · exact .inr (.inr (.inl (by simp [h₃])))
        · rw [hfuture] at h₃
          cases h₃
    rw [h.2] at this
    cases this
  simp only [not_or, Bool.not_eq_true] at hbase hretain
  exact ⟨⟨hbase.1, hretain.1⟩, hbase.2, hretain.2⟩

/-- Two observations of one key may meet only as lists without a future mark. -/
def MeetSettled (a b : RevocationObservationV2) : Prop :=
  semanticKey a = semanticKey b → a.futureDated = false ∧ a.objectType = LIST

/-- Folding into the entry `e` changes that entry alone. -/
theorem map_fold_eq {α β : Type} [DecidableEq α] {front back : List (α × β)} {e : α × β}
    (f : β → β) (h : ((front ++ e :: back).map Prod.fst).Nodup) :
    ((front ++ e :: back).map fun x => if x.1 == e.1 then (x.1, f x.2) else x)
      = front ++ (e.1, f e.2) :: back := by
  rw [List.map_append, List.map_cons, List.nodup_append, List.nodup_cons] at h
  obtain ⟨-, ⟨hback, -⟩, hfront⟩ := h
  rw [List.map_append, List.map_cons]
  congr 1
  · refine (List.map_congr_left fun x hx => if_neg ?_).trans (List.map_id front)
    rw [beq_iff_eq]
    exact hfront _ (List.mem_map_of_mem hx) _ List.mem_cons_self
  · rw [if_pos (beq_self_eq_true e.1)]
    congr 1
    refine (List.map_congr_left fun x hx => if_neg ?_).trans (List.map_id back)
    rw [beq_iff_eq]
    exact fun heq => hback (heq ▸ List.mem_map_of_mem hx)

/-- One round keeps the entries stripped. -/
theorem stripped_step (h : c.retained.Pairwise fun e f => Stripped s base e.2 f.2)
    (hinv : LoopInvariant s base seen c) (hord : LoopOrder P X seen c)
    (hnamed : ∀ id ∈ o.revokedCertIds, Named P X o.revokedSetDigest id)
    (hmeet : ∀ a ∈ seen, MeetSettled a o) :
    (compactStep s base c o).retained.Pairwise fun e f => Stripped s base e.2 f.2 := by
  have hwit : ∀ e ∈ c.retained, ∀ id ∈ e.2.revokedCertIds, id ∈ c.witnessed := by
    intro e he id hid
    obtain ⟨x, hx, hmem⟩ := (hinv.entries e he).ids_of id hid
    exact (hinv.witnessed id).mpr ⟨x, (mem_groupOf.mp hx).1, hmem⟩
  -- What is kept of `o` unless it is kept in full has no witness yet.
  have hfresh : keptFull s base o = false →
      ∀ id ∈ keptIds s base c o, ∀ e ∈ c.retained, id ∉ e.2.revokedCertIds := by
    intro hnf id hid e he hmem
    rw [keptIds, ← keptFull, hnf] at hid
    exact (mem_newWitnesses.mp hid).2 (hwit e he id hmem)
  rcases compactStep_cases s base c o with ⟨⟨e, he, hk⟩, hret⟩ | ⟨-, hret⟩
  · obtain ⟨front, back, hsplit⟩ := List.append_of_mem he
    have hrep := hinv.entries e he
    obtain ⟨a, hag, hset⟩ : ∃ a ∈ groupOf seen e.1, e.2.revokedSetDigest = a.revokedSetDigest := by
      obtain ⟨a, ha, -, -, hset⟩ := hrep.origin
      exact ⟨a, ha, hset⟩
    obtain ⟨ha, hka⟩ := mem_groupOf.mp hag
    obtain ⟨hfa, hta⟩ := hmeet a ha (hka.trans hk)
    obtain ⟨-, hty, -, hdig, hfut, -⟩ := semanticKey_eq_iff.mp (hka.trans hk)
    have hto : o.objectType = LIST := hty ▸ hta
    have hfo : o.futureDated = false := hfut ▸ hfa
    have hseto : e.2.revokedSetDigest = o.revokedSetDigest := by
      rw [hset]
      simpa [hta, hto] using hdig
    have hkey : semanticKey e.2 = semanticKey o := by
      rw [hrep.semanticKey_eq, hk]
      have hfe : e.2.futureDated = false := by
        by_contra hf
        have hkf := hrep.future_of (by simpa using hf)
        rw [hk] at hkf
        exact absurd (hfo.symm.trans hkf) (by decide)
      rw [hfe]
      simp [semanticKey, hfo]
    have hkeys := hinv.keys
    rw [hsplit] at hkeys h
    rw [hret, hsplit, ← hk, map_fold_eq (mergeInto s base o (keptIds s base c o)) hkeys]
    rw [List.pairwise_append, List.pairwise_cons] at h ⊢
    obtain ⟨hfront, ⟨heback, hback⟩, hcross⟩ := h
    have hin : ∀ x, x ∈ front ++ e :: back → x ∈ c.retained := fun x hx => hsplit ▸ hx
    refine ⟨hfront, ⟨fun x hx hnf id hid hmem => ?_, hback⟩, fun x hx y hy hnf id hid => ?_⟩
    · rcases mergeInto_ids.mp hmem with hmem | hmem
      · exact heback x hx hnf id hid hmem
      · by_cases hfull : keptFull s base o = true
        · -- The entries up to `e` witness the whole set already.
          rw [keptIds, ← keptFull, hfull] at hmem
          have hpre : (front ++ [e]).map Prod.snd <+: c.retained.map Prod.snd := by
            rw [hsplit]
            exact List.IsPrefix.map _ ⟨back, by simp⟩
          obtain ⟨w, hw, hwid⟩ := hord.witnessed _ hpre e.2 (by simp) id
            (hseto ▸ hnamed id hmem)
          obtain ⟨f, hf, rfl⟩ := List.mem_map.mp hw
          rcases List.mem_append.mp hf with hf | hf
          · exact hcross f hf x (List.mem_cons_of_mem _ hx) hnf id hid hwid
          · rw [List.mem_singleton.mp hf] at hwid
            exact heback x hx hnf id hid hwid
        · exact hfresh (by simpa using hfull) id hmem x (hin x (by simp [hx])) hid
    · rcases List.mem_cons.mp hy with rfl | hy
      · obtain ⟨hne, hno⟩ := keptFull_of_mergeInto hkey hto hfo hnf
        rcases mergeInto_ids.mp hid with hid | hid
        · exact hcross x hx e List.mem_cons_self hne id hid
        · exact hfresh hno id hid x (hin x (by simp [hx]))
      · exact hcross x hx y (List.mem_cons_of_mem _ hy) hnf id hid
  · rw [hret, List.pairwise_append]
    refine ⟨h, List.pairwise_singleton _ _, fun x hx y hy hnf id hid => ?_⟩
    obtain rfl := List.mem_singleton.mp hy
    exact hfresh hnf id hid x hx

theorem stripped_foldl (h : c.retained.Pairwise fun e f => Stripped s base e.2 f.2)
    (hinv : LoopInvariant s base seen c) (hord : LoopOrder P X seen c)
    (hwit : ∀ pre, pre <+: seen ++ obs → SelfWitnessed P X pre)
    (hnamed : ∀ o ∈ obs, ∀ id ∈ o.revokedCertIds, Named P X o.revokedSetDigest id)
    (hmeet : (seen ++ obs).Pairwise MeetSettled) :
    (obs.foldl (compactStep s base) c).retained.Pairwise
      fun e f => Stripped s base e.2 f.2 := by
  induction obs generalizing seen c with
  | nil => exact h
  | cons o obs ih =>
    have hfirst : ∀ a ∈ seen, MeetSettled a o := fun a ha =>
      (List.pairwise_append.mp hmeet).2.2 a ha o List.mem_cons_self
    rw [← List.singleton_append, ← List.append_assoc] at hwit hmeet
    rw [List.foldl_cons]
    exact ih (stripped_step h hinv hord (hnamed o List.mem_cons_self) hfirst) (hinv.step o)
      (hord.step hinv (hwit _ (List.prefix_append _ _))) hwit
      (fun x hx => hnamed x (List.mem_cons_of_mem _ hx)) hmeet

/-! ## Compacting an arranged state -/

theorem modifyFirst_idem {α : Type} {p : α → Bool} {f : α → α} (hp : ∀ x, p (f x) = p x)
    (hf : ∀ x, f (f x) = f x) (l : List α) :
    modifyFirst p f (modifyFirst p f l) = modifyFirst p f l := by
  induction l with
  | nil => rfl
  | cons x l ih =>
    by_cases hx : p x = true
    · simp [modifyFirst, hx, hp, hf]
    · simp [modifyFirst, hx, ih]

theorem modifyFirst_map_comm {α : Type} {p : α → Bool} {f g : α → α} (hp : ∀ x, p (g x) = p x)
    (hfg : ∀ x, f (g x) = g (f x)) (l : List α) :
    modifyFirst p f (l.map g) = (modifyFirst p f l).map g := by
  induction l with
  | nil => rfl
  | cons x l ih =>
    by_cases hx : p x = true
    · simp [modifyFirst, hx, hp, hfg]
    · simp [modifyFirst, hx, hp, ih]

/-- Settling again, with the IDs sorted in between, changes nothing. -/
theorem settleBase_idem (retained : List RevocationObservationV2) :
    settleBase s base ((settleBase s base retained).map fun o =>
        { o with revokedCertIds := sortedUnique o.revokedCertIds })
      = (settleBase s base retained).map fun o =>
        { o with revokedCertIds := sortedUnique o.revokedCertIds } := by
  unfold settleBase
  cases s.reconciliationRequired with
  | true => rfl
  | false =>
    cases s.acceptedSnapshot with
    | none => rfl
    | some snap =>
      have hcomm := modifyFirst_map_comm (p := isSettledBase s base snap)
        (f := fun o => { o with gap := false })
        (g := fun o => { o with revokedCertIds := sortedUnique o.revokedCertIds })
        (fun _ => rfl) (fun _ => rfl)
      have hidem := modifyFirst_idem (p := isSettledBase s base snap)
        (f := fun o => { o with gap := false }) (fun _ => rfl) (fun _ => rfl)
      simp only [Bool.false_eq_true, ↓reduceIte]
      exact (hcomm _).trans (congrArg _ (hidem retained))

theorem canonicalizeState_idem (s : RevocationStatusStateV2) :
    canonicalizeState (canonicalizeState s) = canonicalizeState s := by
  simp only [canonicalizeState, sortedUnique_idem, List.map_map, Function.comp_def]

/-- An entry alone in its group keeps the future mark of its key. -/
theorem Represents.key_eq {k : SemanticKey} {g : List RevocationObservationV2}
    (h : Represents s base k g r)
    (hg : g.Pairwise fun a b => semanticKey a = semanticKey b → a.futureDated = false) :
    semanticKey r = k := by
  rw [h.semanticKey_eq]
  suffices hf : r.futureDated = k.futureDated by rw [hf]
  cases hk : k.futureDated with
  | false =>
    by_contra hr
    have := h.future_of (by simpa using hr)
    rw [hk] at this
    cases this
  | true =>
    rcases h.future_to hk with hr | ⟨-, hlen⟩
    · exact hr
    · -- Two observations of the key would carry no future mark.
      obtain ⟨a, g, rfl⟩ := List.exists_cons_of_length_pos (l := g) (by omega)
      obtain ⟨b, g, rfl⟩ := List.exists_cons_of_length_pos (l := g)
        (by rw [List.length_cons] at hlen; omega)
      have hka := h.key a (by simp)
      have hfut := (List.pairwise_cons.mp hg).1 b (by simp) (hka.trans (h.key b (by simp)).symm)
      rw [← hka] at hk
      exact absurd (hfut.symm.trans hk) (by decide)

theorem keptFull_clearGap (hrec : s.reconciliationRequired = false) :
    keptFull s base { o with gap := false } = keptFull s base o := by
  have hretain : mustRetain s { o with gap := false } = mustRetain s o := by
    simp [mustRetain, hrec]
  have hbase : acceptedBase s base { o with gap := false } = acceptedBase s base o := rfl
  rw [keptFull, hretain, hbase, keptFull]

/-- Settling and sorting the IDs keep the entries stripped. -/
theorem stripped_compactEntries {entries : List (SemanticKey × RevocationObservationV2)}
    (h : entries.Pairwise fun e f => Stripped s base e.2 f.2) :
    ((settleEntries s base entries).map fun e =>
      (e.1, ({ e.2 with revokedCertIds := sortedUnique e.2.revokedCertIds } :
        RevocationObservationV2))).Pairwise fun e f => Stripped s base e.2 f.2 := by
  -- `Stripped` only looks at these two fields.
  let view : SemanticKey × RevocationObservationV2 → Bool × List String :=
    fun e => (keptFull s base e.2, e.2.revokedCertIds)
  let apart : Bool × List String → Bool × List String → Prop :=
    fun v w => w.1 = false → ∀ id ∈ w.2, id ∉ v.2
  have hview : (settleEntries s base entries).map view = entries.map view := by
    cases hrec : s.reconciliationRequired with
    | true => simp [settleEntries, hrec]
    | false =>
      refine settleEntries_map s base view (fun e => ?_) entries
      simp only [view, keptFull_clearGap hrec]
  have hsettled : (settleEntries s base entries).Pairwise fun e f => Stripped s base e.2 f.2 := by
    have hmap : (entries.map view).Pairwise apart := List.pairwise_map.mpr h
    rw [← hview] at hmap
    exact (List.pairwise_map (R := apart) (f := view)).mp hmap
  rw [List.pairwise_map]
  refine hsettled.imp fun hef hnf id hid hmem => ?_
  exact hef hnf id (mem_sortedUnique.mp hid) (mem_sortedUnique.mp hmem)

/-- Compacting an arranged state leads to a compacted one. -/
theorem compacted_compact (harr : Arranged P X s.observations) (hev : EvidenceOk s)
    (hnamed : ∀ o ∈ s.observations, ∀ id ∈ o.revokedCertIds, Named P X o.revokedSetDigest id) :
    Compacted P (compact P s) := by
  have hsorted : s.observations.insertionSort InOrder = s.observations :=
    harr.sorted.insertionSort_eq
  have hmeet : s.observations.Pairwise MeetSettled := by
    refine (harr.keys.and hev.pushes).imp_of_mem fun {a b} ha _ hab hkey => ?_
    refine ⟨hab.1 hkey, (hev.observations a ha).objectType.resolve_right fun hpush => ?_⟩
    obtain ⟨h₁, h₂, h₃, h₄, -⟩ := semanticKey_eq_iff.mp hkey
    have hpushb : b.objectType = PUSH := h₂ ▸ hpush
    exact hab.2 ⟨hpush, hpushb, h₁, h₃, by
      simpa [hpush, hpushb, show ¬ PUSH = LIST by decide] using h₄⟩
  have hc := compactionOf_compactEntries P s
  have hstrip : (compactEntries P s).Pairwise
      fun e f => Stripped s (baseDigest P s) e.2 f.2 := by
    have hwit : ∀ pre, pre <+: [] ++ s.observations → SelfWitnessed P X pre := harr.witnessed
    have hloop := stripped_foldl .nil (LoopInvariant.nil s (baseDigest P s))
      (LoopOrder.nil (P := P) (X := X)) hwit hnamed (by rwa [List.nil_append])
    rw [← hsorted] at hloop
    exact stripped_compactEntries hloop
  refine ⟨?_, ?_, ?_, ?_, ?_⟩
  · rw [compact]
    exact canonicalizeState_idem _
  · refine (arranged_compact (P := P) (X := X) ?_).sorted
    rw [hsorted]
    exact harr.witnessed
  · have hkeys : (compact P s).observations.map semanticKey
        = (compactEntries P s).map Prod.fst := by
      rw [compact_observations, List.map_map]
      refine List.map_congr_left fun e he => ?_
      obtain ⟨g, hrep, hperm⟩ := hc.represents e he
      refine hrep.key_eq (hperm.symm.pairwise (harr.keys.filter _) fun hab hkey => ?_)
      rw [← hab hkey.symm]
      exact congrArg SemanticKey.futureDated hkey
    rw [hkeys]
    exact hc.keys
  · rw [compact_observations, List.pairwise_map]
    exact hstrip
  · exact settleBase_idem _

end RatifyProtocol.V2
