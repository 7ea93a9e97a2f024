import RatifyProtocol.Foundation.LeastValues
import RatifyProtocol.V2.Delegation.Audience
import RatifyProtocol.V2.Delegation.Chain
import RatifyProtocol.V2.Delegation.ConstraintRoundTrip
import RatifyProtocol.V2.Delegation.LocalLaw
import RatifyProtocol.V2.Reference.State
set_option autoImplicit false

/-!
# Authorization: the reservation batch of a bundle

`v2/rate_reservation.rs`.  The batch that a claim seals is built from the bundle, the one
that the rate stage reserves from the constraints that the local stage put off; both are
the least signed limit of every certificate and window.
-/

namespace RatifyProtocol.V2

open Foundation

/-- A counter of the map as an entry of the batch. -/
def rateReservation (e : RateKey × Int) : V2RateReservation :=
  { issuerId := e.1.issuerId, certId := e.1.certId, windowS := e.1.windowS, limit := e.2 }

/-- `ConstraintV2::from_node` on a constraint of the type it was put off as. -/
def ofDeferredKind (kind : String) (node : JNode) : V2Result ConstraintV2 :=
  match ConstraintV2.fromNode node with
  | .ok c => if c.kind = kind then .ok c else plain "v2 rate constraint has wrong type"
  | .error _ => plain "v2 rate constraint has wrong type"

/-- The body of the loop, with the positions before it: an audience has no counter. -/
def rateCounter (seen : List (Nat × Nat)) (item : V2DeferredConstraint) :
    V2Result (Option (RateKey × Int)) := do
  refuseIf (seen.contains item.position || !validV2Id item.issuerId || item.certId == ""
      || decide ((utf8 item.certId).length > maxIdentifierLengthBytes))
    "v2 rate constraint has invalid identity or duplicate position"
  let node ← withContext (parseJson item.canonicalJson) "v2 rate constraint is invalid"
  withContext (validateV2ConstraintFields node) "v2 rate constraint is invalid"
  let constraint ← ofDeferredKind item.kind node
  refuseIf (!reads constraint.canonicalJson fun encoded => encoded == item.canonicalJson)
    "v2 rate constraint has noncanonical fields"
  refuseIf (item.kind != constraintMaxRate && item.kind != constraintReceiverAudience)
    "v2 rate batch contains an unexpected deferred constraint type"
  if item.kind = constraintReceiverAudience then .ok none
  else do
    refuseIf (decide (constraint.count ≤ 0 ∨ constraint.count > maxSafe
        ∨ constraint.windowS ≤ 0 ∨ constraint.windowS > v2MaxRateWindowSeconds))
      "v2 rate constraint has noncanonical or invalid limits"
    .ok (some (⟨item.issuerId, item.certId, constraint.windowS⟩, constraint.count))

/-- One counter more. -/
def countRate (counters : OrderedMap RateKey Int) : Option (RateKey × Int) → OrderedMap RateKey Int
  | none => counters
  | some (key, limit) => counters.lower key limit

def rateCounters : List (Nat × Nat) → OrderedMap RateKey Int → List V2DeferredConstraint →
    V2Result (OrderedMap RateKey Int)
  | _, counters, [] => .ok counters
  | seen, counters, item :: deferred => do
    let counter ← rateCounter seen item
    rateCounters (item.position :: seen) (countRate counters counter) deferred

/-- `build_v2_rate_reservation_batch_inner`. -/
def buildV2RateReservationBatchInner (deferred : List V2DeferredConstraint) :
    V2Result (List V2RateReservation) := do
  let counters ← rateCounters [] .empty deferred
  .ok (counters.entries.map rateReservation)

/-- `build_v2_rate_reservation_batch`. -/
def buildV2RateReservationBatch (deferred : List V2DeferredConstraint) :
    V2Result (List V2RateReservation) :=
  classify .malformed (buildV2RateReservationBatchInner deferred)

/-- A rate of a bundle as the batch is built from it. -/
def PlacedConstraint.signedRate (p : PlacedConstraint) : V2Result V2DeferredConstraint := do
  let encoded ← p.constraint.canonicalJson
  .ok { delegationIndex := p.delegationIndex, constraintIndex := p.constraintIndex
        issuerId := p.issuerId, certId := p.certId, kind := constraintMaxRate
        canonicalJson := encoded }

/-- `signed_v2_rate_reservation_batch`. -/
def signedV2RateReservationBatch (b : ProofBundleV2) : V2Result (List V2RateReservation) := do
  let rates := b.placed.filter fun p => p.constraint.kind == constraintMaxRate
  let deferred ← rates.mapM PlacedConstraint.signedRate
  buildV2RateReservationBatchInner deferred

/-! ## Rates within bounds -/

/-- The limits of a rate that the registry accepts. -/
structure RateBounded (count windowS : Int) : Prop where
  count : 0 < count ∧ count ≤ maxSafe
  window : 0 < windowS ∧ windowS ≤ v2MaxRateWindowSeconds

/-- The integer member of a body is the one that the registry read. -/
theorem eq_of_bodyValue_int {levels : Nat} {x : JNode} {k n : Int} (hx : Parsed levels x)
    (hbody : BodyValue (.int n) x) (hread : v2IntegerField x = .ok k) : k = n := by
  obtain ⟨hv, hk⟩ := v_of_v2IntegerField hx hread
  cases hbody with
  | int _ i j range =>
    have htoken : String.ofList (encodeInt n) = String.ofList (encodeInt k) := JV.num.inj hv
    have htext : encodeInt n = encodeInt k := by
      simpa using congrArg String.toList htoken
    have hparsed := parseI64_encodeInt range
    rw [htext, parseI64_encodeInt hk] at hparsed
    exact Option.some.inj hparsed
  | params value parsed read => cases value

/-- A decoded rate is within the bounds of the registry. -/
theorem rateBounded_of_fromNode {levels : Nat} {n : JNode} {c : ConstraintV2}
    (hn : Parsed levels n) (h : ConstraintV2.fromNode n = .ok c)
    (hkind : c.kind = constraintMaxRate) : RateBounded c.count c.windowS := by
  obtain ⟨o, i, j, rfl, hbody, -, hmembers⟩ := holdsBody_of_fromNode hn h
  have hparsed : ∀ f ∈ o, ∃ m, Parsed m f.2 := by
    cases hn with
    | obj m _ _ _ names parsed => exact fun f hf => ⟨m, parsed f hf⟩
  have hmax : validateMaxRate c.kind o = .ok () := by
    rw [hkind] at hmembers
    simpa [validateMembersOf, show constraintMaxRate ≠ constraintTimeWindow by decide,
      show constraintMaxRate ≠ constraintMaxAmount by decide, hkind] using hmembers
  have hmember {k : String} {v : Int} (hv : (k, CJ.int v) ∈ constraintBody c) {x : JNode} {r : Int}
      (hx : requiredNode o k = .ok x) (hr : v2IntegerField x = .ok r) : r = v := by
    have hget := get_of_requiredNode hx
    obtain ⟨y, hy, hvalue⟩ := hbody.member _ hv
    obtain rfl : x = y := Option.some.inj (hget.symm.trans hy)
    obtain ⟨m, hm⟩ := hparsed _ ((get_eq_some_iff_mem hbody.nodup).mp hget)
    exact eq_of_bodyValue_int hm hvalue hr
  have hcases : ("count", CJ.int c.count) ∈ constraintBody c
      ∧ ("window_s", CJ.int c.windowS) ∈ constraintBody c := by
    simp [constraintBody, hkind, show constraintMaxRate ≠ constraintTimeWindow by decide,
      show constraintMaxRate ≠ constraintMaxAmount by decide]
  simp only [validateMaxRate, bind_eq_ok_iff, refuseIf_eq_ok_iff] at hmax
  obtain ⟨_, -, x, hx, _, hcount, y, hy, hwindow⟩ := hmax
  obtain ⟨count, hreadCount, hcount⟩ := exists_of_reads (Bool.not_eq_eq_eq_not.mp hcount)
  obtain ⟨window, hreadWindow, hwindow⟩ := exists_of_reads (Bool.not_eq_eq_eq_not.mp hwindow)
  obtain ⟨mx, hmx⟩ := hparsed _ ((get_eq_some_iff_mem hbody.nodup).mp (get_of_requiredNode hx))
  have hsafe := (v_of_v2IntegerField hmx hreadCount).2.2
  obtain rfl := hmember hcases.1 hx hreadCount
  obtain rfl := hmember hcases.2 hy hreadWindow
  exact { count := ⟨by simpa using hcount, hsafe⟩, window := by simpa using hwindow }

/-! ## Constraints that were put off -/

theorem ConstraintV2.canonicalJson_schema {c : ConstraintV2} {b : Bytes}
    (h : c.canonicalJson = .ok b) : c.schema.canonicalJson = .ok b := by
  obtain ⟨v, hv, hb⟩ := bind_eq_ok_iff.mp h
  exact bind_eq_ok_iff.mpr ⟨v, ConstraintV2.toCj_schema hv, hb⟩

/-- A deferred constraint is that of a certificate with valid names, as it is signed. -/
structure Postponed (d : V2DeferredConstraint) (p : PlacedConstraint) : Prop where
  position : d.position = p.position
  issuerId : d.issuerId = p.issuerId
  certId : d.certId = p.certId
  kind : d.kind = p.constraint.kind
  staged : p.constraint.kind = constraintMaxRate ∨ p.constraint.kind = constraintReceiverAudience
  json : p.constraint.canonicalJson = .ok d.canonicalJson
  issuer : validV2Id d.issuerId = true
  cert : d.certId ≠ "" ∧ (utf8 d.certId).length ≤ maxIdentifierLengthBytes

/-- The counter of a rate, with its limit. -/
def PlacedConstraint.counter (p : PlacedConstraint) : Option (RateKey × Int) :=
  if p.constraint.kind = constraintReceiverAudience then none
  else some (⟨p.issuerId, p.certId, p.constraint.windowS⟩, p.constraint.count)

theorem rate_ne_audience : constraintMaxRate ≠ constraintReceiverAudience := by decide

theorem schema_rate {c : ConstraintV2} (h : c.kind = constraintMaxRate) :
    c.schema.count = c.count ∧ c.schema.windowS = c.windowS := by
  simp [ConstraintV2.schema, h, show constraintMaxRate ≠ constraintTimeWindow by decide,
    show constraintMaxRate ≠ constraintMaxAmount by decide]

/-- A constraint at a new position is counted as it was signed. -/
theorem rateCounter_of_postponed {seen : List (Nat × Nat)} {d : V2DeferredConstraint}
    {p : PlacedConstraint} (h : Postponed d p) (hnew : d.position ∉ seen) :
    rateCounter seen d = .ok p.counter := by
  obtain ⟨n, hn, hread⟩ := fromNode_of_canonicalJson h.json
  have hvalid : validateV2ConstraintFields n = .ok () := by
    unfold ConstraintV2.fromNode at hread
    obtain ⟨_, hvalid, -⟩ := bind_eq_ok_iff.mp hread
    exact hvalid
  have hkind : ofDeferredKind d.kind n = .ok p.constraint.schema := by
    rw [ofDeferredKind, hread, h.kind]
    exact if_pos (ConstraintV2.schema_kind _)
  have hidentity : (seen.contains d.position || !validV2Id d.issuerId || d.certId == ""
      || decide ((utf8 d.certId).length > maxIdentifierLengthBytes)) = false := by
    simp [h.issuer, h.cert.1, h.cert.2, hnew]
  have hjson : (!reads p.constraint.schema.canonicalJson fun encoded => encoded == d.canonicalJson)
      = false := by
    rw [ConstraintV2.canonicalJson_schema h.json]
    simp [reads]
  have htype : (d.kind != constraintMaxRate && d.kind != constraintReceiverAudience) = false := by
    rw [h.kind]
    obtain hrate | haudience := h.staged
    · simp [hrate]
    · simp [haudience]
  rw [rateCounter]
  refine refuseIf_bind_eq_ok_iff.mpr ⟨hidentity, ?_⟩
  refine bind_eq_ok_iff.mpr ⟨n, withContext_eq_ok_iff.mpr hn, ?_⟩
  refine bind_eq_ok_iff.mpr ⟨(), withContext_eq_ok_iff.mpr hvalid, ?_⟩
  refine bind_eq_ok_iff.mpr ⟨_, hkind, ?_⟩
  refine refuseIf_bind_eq_ok_iff.mpr ⟨hjson, refuseIf_bind_eq_ok_iff.mpr ⟨htype, ?_⟩⟩
  rw [h.kind]
  by_cases haudience : p.constraint.kind = constraintReceiverAudience
  · rw [if_pos haudience, PlacedConstraint.counter, if_pos haudience]
  · have hrate := h.staged.resolve_right haudience
    obtain ⟨hcount, hwindow⟩ := schema_rate hrate
    have hbounded := rateBounded_of_fromNode (parsed_of_parseJson hn) hread
      (by rw [ConstraintV2.schema_kind, hrate])
    rw [hcount, hwindow] at hbounded
    have hlimits : decide (p.constraint.count ≤ 0 ∨ p.constraint.count > maxSafe
        ∨ p.constraint.windowS ≤ 0 ∨ p.constraint.windowS > v2MaxRateWindowSeconds) = false := by
      have hc := hbounded.count
      have hw := hbounded.window
      simp only [decide_eq_false_iff_not]
      omega
    rw [if_neg haudience, PlacedConstraint.counter, if_neg haudience, hcount, hwindow, hlimits,
      h.issuerId, h.certId]
    rfl

/-- The loop lowers the counter of every rate. -/
theorem rateCounters_eq {ps : List PlacedConstraint} {ds : List V2DeferredConstraint}
    (h : List.Forall₂ Postponed ds ps) :
    ∀ {seen : List (Nat × Nat)} {m : OrderedMap RateKey Int},
      (ps.map PlacedConstraint.position).Nodup → (∀ p ∈ ps, p.position ∉ seen) →
      rateCounters seen m ds
        = .ok ((ps.filterMap PlacedConstraint.counter).foldl (fun m x => m.lower x.1 x.2) m) := by
  induction h with
  | nil =>
    intro seen m _ _
    rfl
  | @cons d p ds ps hd _ ih =>
    intro seen m hnodup hnew
    rw [List.map_cons, List.nodup_cons] at hnodup
    have hfirst : d.position ∉ seen := hd.position ▸ hnew p List.mem_cons_self
    rw [rateCounters, rateCounter_of_postponed hd hfirst, ok_bind, ih hnodup.2 ?_]
    · cases hcounter : p.counter with
      | none => rw [List.filterMap_cons_none hcounter, countRate]
      | some x => rw [List.filterMap_cons_some hcounter, List.foldl_cons, countRate]
    · intro q hq hmem
      obtain heq | hmem := List.mem_cons.mp hmem
      · rw [hd.position] at heq
        exact hnodup.1 (List.mem_map.mpr ⟨q, hq, heq⟩)
      · exact hnew q (List.mem_cons_of_mem p hq) hmem

/-! ## The batch -/

/-- The signed limits of a bundle, each with its counter. -/
def ProofBundleV2.signedRates (b : ProofBundleV2) : Set (RateKey × Int) :=
  {x | ∃ p ∈ b.placed, p.constraint.kind = constraintMaxRate
    ∧ x = (⟨p.issuerId, p.certId, p.constraint.windowS⟩, p.constraint.count)}

/-- A batch reserves the least signed limit of every counter of a bundle, in the order of
the counters. -/
structure SignedBatch (b : ProofBundleV2) (batch : List V2RateReservation) : Prop where
  ascending : batch.Pairwise fun r r' => r.key < r'.key
  least : ∀ r, r ∈ batch ↔ IsLeast {n | (r.key, n) ∈ b.signedRates} r.limit
  bounded : ∀ r ∈ batch, RateBounded r.limit r.windowS

/-- A list of deferred constraints that has the rates of a bundle, perhaps some of its
audiences, and nothing else. -/
structure PutOff (b : ProofBundleV2) (ds : List V2DeferredConstraint)
    (ps : List PlacedConstraint) : Prop where
  postponed : List.Forall₂ Postponed ds ps
  positions : (ps.map PlacedConstraint.position).Nodup
  placed : ∀ p ∈ ps, p ∈ b.placed
  rates : ∀ p ∈ b.placed, p.constraint.kind = constraintMaxRate → p ∈ ps

variable {b : ProofBundleV2} {ds : List V2DeferredConstraint} {ps : List PlacedConstraint}

theorem PutOff.mem_counters (h : PutOff b ds ps) (x : RateKey × Int) :
    x ∈ ps.filterMap PlacedConstraint.counter ↔ x ∈ b.signedRates := by
  have hstaged : ∀ p ∈ ps, p.constraint.kind = constraintMaxRate
      ∨ p.constraint.kind = constraintReceiverAudience := by
    have hpostponed := h.postponed
    clear h
    induction hpostponed with
    | nil => simp
    | cons hd _ ih => exact List.forall_mem_cons.mpr ⟨hd.staged, ih⟩
  rw [List.mem_filterMap]
  constructor
  · rintro ⟨p, hp, hcounter⟩
    rw [PlacedConstraint.counter] at hcounter
    split at hcounter
    · cases hcounter
    · rename_i hkind
      exact ⟨p, h.placed p hp, (hstaged p hp).resolve_right hkind, (Option.some.inj hcounter).symm⟩
  · rintro ⟨p, hp, hkind, rfl⟩
    refine ⟨p, h.rates p hp hkind, ?_⟩
    rw [PlacedConstraint.counter, if_neg (hkind ▸ rate_ne_audience)]

theorem buildV2RateReservationBatchInner_eq (h : PutOff b ds ps) :
    buildV2RateReservationBatchInner ds
      = .ok ((OrderedMap.leastOf (ps.filterMap PlacedConstraint.counter)).entries.map
        rateReservation) := by
  rw [buildV2RateReservationBatchInner,
    rateCounters_eq h.postponed h.positions fun p _ => List.not_mem_nil]
  rfl

/-- What is built from the rates of a bundle. -/
theorem signedBatch_of_putOff (h : PutOff b ds ps)
    (hbounded : ∀ x ∈ b.signedRates, RateBounded x.2 x.1.windowS) :
    SignedBatch b ((OrderedMap.leastOf (ps.filterMap PlacedConstraint.counter)).entries.map
      rateReservation) := by
  set m := OrderedMap.leastOf (ps.filterMap PlacedConstraint.counter) with hm
  have hkey (e : RateKey × Int) : (rateReservation e).key = e.1 := rfl
  have hleast (k : RateKey) (n : Int) :
      (k, n) ∈ m.entries ↔ IsLeast {n | (k, n) ∈ b.signedRates} n := by
    rw [OrderedMap.mem_entries_iff, hm, OrderedMap.get?_leastOf_eq_some_iff]
    simp only [h.mem_counters]
  have hmem (r : V2RateReservation) : r ∈ m.entries.map rateReservation ↔ (r.key, r.limit) ∈ m.entries := by
    rw [List.mem_map]
    constructor
    · rintro ⟨e, he, rfl⟩
      exact he
    · intro he
      exact ⟨_, he, rfl⟩
  refine ⟨?_, fun r => (hmem r).trans (hleast _ _), fun r hr => ?_⟩
  · rw [List.pairwise_map]
    exact m.ascending
  · exact hbounded _ ((hleast _ _).mp ((hmem r).mp hr)).1

/-! ## The two ways to a batch -/

variable {P : Primitives}

/-- What verification says of the place of a constraint. -/
structure WellPlaced (p : PlacedConstraint) : Prop where
  issuer : validV2Id p.issuerId = true
  cert : p.certId ≠ "" ∧ (utf8 p.certId).length ≤ maxIdentifierLengthBytes
  encodes : ∃ encoded, p.constraint.canonicalJson = .ok encoded

theorem SignedChain.wellPlaced (h : SignedChain P b) {p : PlacedConstraint} (hp : p ∈ b.placed) :
    WellPlaced p := by
  obtain ⟨c, hcert, hissuer, hid, hconstraint⟩ := mem_placed_iff.mp hp
  have hvalid := h.certs c (List.mem_of_getElem? hcert)
  obtain ⟨v, hv⟩ := hvalid.constraints _ (List.mem_of_getElem? hconstraint)
  obtain ⟨-, -, encoded, -, hencoded, -⟩ := ConstraintV2.toCj_eq_ok hv
  exact
    { issuer := hissuer ▸ hvalid.issuer.1
      cert := hid ▸ hvalid.certId
      encodes := ⟨encoded, bind_eq_ok_iff.mpr ⟨v, hv, hencoded⟩⟩ }

theorem WellPlaced.postponed {p : PlacedConstraint} (h : WellPlaced p)
    (hstaged : p.constraint.kind = constraintMaxRate
      ∨ p.constraint.kind = constraintReceiverAudience) {encoded : Bytes}
    (hencoded : p.constraint.canonicalJson = .ok encoded) :
    Postponed { delegationIndex := p.delegationIndex, constraintIndex := p.constraintIndex
                issuerId := p.issuerId, certId := p.certId, kind := p.constraint.kind
                canonicalJson := encoded } p :=
  { position := rfl, issuerId := rfl, certId := rfl, kind := rfl, staged := hstaged
    json := hencoded, issuer := h.issuer, cert := h.cert }

/-- The signed rates of a verified bundle are within bounds. -/
theorem SignedChain.rateBounded (h : SignedChain P b) :
    ∀ x ∈ b.signedRates, RateBounded x.2 x.1.windowS := by
  rintro x ⟨p, hp, hkind, rfl⟩
  obtain ⟨encoded, hencoded⟩ := (h.wellPlaced hp).encodes
  obtain ⟨n, hn, hread⟩ := fromNode_of_canonicalJson hencoded
  have hbounded := rateBounded_of_fromNode (parsed_of_parseJson hn) hread
    (by rw [ConstraintV2.schema_kind, hkind])
  rw [(schema_rate hkind).1, (schema_rate hkind).2] at hbounded
  exact hbounded

/-- What the claim's batch is built from. -/
theorem SignedChain.signedRates_putOff (h : SignedChain P b) :
    ∃ ds, (b.placed.filter fun p => p.constraint.kind == constraintMaxRate).mapM
        PlacedConstraint.signedRate = .ok ds
      ∧ PutOff b ds (b.placed.filter fun p => p.constraint.kind == constraintMaxRate) := by
  have hrate : ∀ p ∈ b.placed.filter fun p => p.constraint.kind == constraintMaxRate,
      p ∈ b.placed ∧ p.constraint.kind = constraintMaxRate := by
    intro p hp
    simpa using List.mem_filter.mp hp
  have hone : ∀ p ∈ b.placed.filter fun p => p.constraint.kind == constraintMaxRate,
      ∃ d, p.signedRate = .ok d ∧ Postponed d p := by
    intro p hp
    obtain ⟨hplaced, hkind⟩ := hrate p hp
    have hwell := h.wellPlaced hplaced
    obtain ⟨encoded, hencoded⟩ := hwell.encodes
    refine ⟨_, bind_eq_ok_iff.mpr ⟨encoded, hencoded, rfl⟩, ?_⟩
    rw [← hkind]
    exact hwell.postponed (.inl hkind) hencoded
  obtain ⟨ds, hds, hpostponed⟩ : ∃ ds, List.Forall₂ (fun p d => p.signedRate = .ok d)
      (b.placed.filter fun p => p.constraint.kind == constraintMaxRate) ds
      ∧ List.Forall₂ Postponed ds
        (b.placed.filter fun p => p.constraint.kind == constraintMaxRate) := by
    generalize (b.placed.filter fun p => p.constraint.kind == constraintMaxRate) = ps at hone
    clear hrate
    induction ps with
    | nil => exact ⟨[], .nil, .nil⟩
    | cons p ps ih =>
      obtain ⟨d, hd, hpost⟩ := hone p List.mem_cons_self
      obtain ⟨ds, hds, hrest⟩ := ih fun q hq => hone q (List.mem_cons_of_mem p hq)
      exact ⟨d :: ds, .cons hd hds, .cons hpost hrest⟩
  refine ⟨ds, mapM_eq_ok_iff.mpr hds, hpostponed, ?_, fun p hp => (hrate p hp).1, ?_⟩
  · exact (nodup_placed_position b).sublist (List.filter_sublist.map _)
  · intro p hp hkind
    exact List.mem_filter.mpr ⟨hp, by simpa using hkind⟩

/-- What the rate stage builds its batch from, the audiences that came before it dropped
or not. -/
theorem SignedChain.deferred_putOff (h : SignedChain P b) (s : LocalInputs)
    (keep : V2DeferredConstraint → Bool)
    (hkeep : ∀ d, d.kind = constraintMaxRate → keep d = true) :
    ∃ ps, PutOff b ((evaluateV2LocalConstraints s b).deferred.filter keep) ps := by
  rw [evaluateV2LocalConstraints_deferred]
  have hsub : ∀ ps : List PlacedConstraint, ps.Sublist b.placed →
      ∃ qs : List PlacedConstraint, qs.Sublist ps
        ∧ List.Forall₂ Postponed
          ((ps.filterMap fun p => (p.verdict s).postponed).filter keep) qs
        ∧ ∀ p ∈ ps, p.constraint.kind = constraintMaxRate → p ∈ qs := by
    intro ps hps
    induction ps with
    | nil => exact ⟨[], .slnil, .nil, by simp⟩
    | cons p ps ih =>
      obtain ⟨qs, hqs, hpost, hrates⟩ := ih ((List.sublist_cons_self p ps).trans hps)
      have hwell := h.wellPlaced (hps.subset List.mem_cons_self)
      obtain ⟨encoded, hencoded⟩ := hwell.encodes
      have hdrop (hfirst : p.constraint.kind ≠ constraintMaxRate) :
          ∀ q ∈ p :: ps, q.constraint.kind = constraintMaxRate → q ∈ qs := by
        intro q hq hkind
        obtain rfl | hq := List.mem_cons.mp hq
        · exact absurd hkind hfirst
        · exact hrates q hq hkind
      cases hverdict : (p.verdict s).postponed with
      | none =>
        have hfilter : (p :: ps).filterMap (fun p => (p.verdict s).postponed)
            = ps.filterMap fun p => (p.verdict s).postponed := List.filterMap_cons_none hverdict
        rw [hfilter]
        refine ⟨qs, hqs.cons p, hpost, hdrop fun hkind => ?_⟩
        rw [verdict_staged (.inl hkind) hencoded] at hverdict
        cases hverdict
      | some d =>
        have hfilter : (p :: ps).filterMap (fun p => (p.verdict s).postponed)
            = d :: ps.filterMap fun p => (p.verdict s).postponed :=
          List.filterMap_cons_some hverdict
        rw [hfilter]
        obtain ⟨hstaged, hjson, hd⟩ := postponed_eq_some hverdict
        cases hkept : keep d with
        | false =>
          rw [List.filter_cons_of_neg (by simp [hkept])]
          refine ⟨qs, hqs.cons p, hpost, hdrop fun hkind => ?_⟩
          have hkind' : d.kind = constraintMaxRate := by rw [hd, hkind]
          rw [hkeep d hkind'] at hkept
          cases hkept
        | true =>
          rw [List.filter_cons_of_pos (by simp [hkept]), hd]
          refine ⟨p :: qs, hqs.cons_cons p, .cons (hwell.postponed hstaged hjson) hpost, ?_⟩
          intro q hq hkind
          obtain rfl | hq := List.mem_cons.mp hq
          · exact List.mem_cons_self
          · exact List.mem_cons_of_mem p (hrates q hq hkind)
  obtain ⟨ps, hps, hpost, hrates⟩ := hsub b.placed (List.Sublist.refl _)
  exact ⟨ps, hpost, (nodup_placed_position b).sublist (hps.map _), fun p hp => hps.subset hp,
    hrates⟩

/-- The batch of a bundle: every list of its rates builds it. -/
theorem SignedChain.exists_batch (h : SignedChain P b) :
    ∃ batch, signedV2RateReservationBatch b = .ok batch ∧ SignedBatch b batch
      ∧ ∀ ds ps, PutOff b ds ps → buildV2RateReservationBatchInner ds = .ok batch := by
  obtain ⟨rates, hrates, hsealed⟩ := h.signedRates_putOff
  have hsame : ∀ ds ps, PutOff b ds ps → buildV2RateReservationBatchInner ds
      = .ok ((OrderedMap.leastOf ((b.placed.filter fun p =>
        p.constraint.kind == constraintMaxRate).filterMap PlacedConstraint.counter)).entries.map
          rateReservation) := by
    intro ds ps hds
    rw [buildV2RateReservationBatchInner_eq hds,
      OrderedMap.leastOf_congr fun x => (hds.mem_counters x).trans (hsealed.mem_counters x).symm]
  refine ⟨_, ?_, signedBatch_of_putOff hsealed h.rateBounded, hsame⟩
  rw [signedV2RateReservationBatch]
  exact bind_eq_ok_iff.mpr ⟨rates, hrates, hsame _ _ hsealed⟩

/-- What the local stage puts off builds the batch, and so does what an audience leaves. -/
theorem SignedChain.build_deferred (h : SignedChain P b) (s : LocalInputs)
    {batch : List V2RateReservation}
    (hbatch : ∀ ds ps, PutOff b ds ps → buildV2RateReservationBatchInner ds = .ok batch) :
    buildV2RateReservationBatchInner (evaluateV2LocalConstraints s b).deferred = .ok batch
      ∧ buildV2RateReservationBatchInner ((evaluateV2LocalConstraints s b).deferred.filter
          fun d => d.kind != constraintReceiverAudience) = .ok batch := by
  refine ⟨?_, ?_⟩
  · obtain ⟨ps, hps⟩ := h.deferred_putOff s (fun _ => true) fun _ _ => rfl
    rw [List.filter_true] at hps
    exact hbatch _ _ hps
  · obtain ⟨ps, hps⟩ := h.deferred_putOff s (fun d => d.kind != constraintReceiverAudience)
      fun d hd => by simp [hd, rate_ne_audience]
    exact hbatch _ _ hps

/-- Every verified bundle has a batch: the least signed limit of every counter, in order.
The rate stage builds the same batch from what the local stage put off, with the
audiences or without them, and so does any list of the same constraints. -/
theorem rateBatch_law (P : Primitives) (b : ProofBundleV2)
    (hverified : verifyProofBundleV2Signatures P b = .ok ()) :
    ∃ batch, signedV2RateReservationBatch b = .ok batch ∧ SignedBatch b batch
      ∧ (∀ s, buildV2RateReservationBatchInner (evaluateV2LocalConstraints s b).deferred
          = .ok batch
        ∧ buildV2RateReservationBatchInner ((evaluateV2LocalConstraints s b).deferred.filter
            fun d => d.kind != constraintReceiverAudience) = .ok batch)
      ∧ ∀ ds ps, PutOff b ds ps → buildV2RateReservationBatchInner ds = .ok batch := by
  have hchain := verifyProofBundleV2Signatures_eq_ok_iff.mp hverified
  obtain ⟨batch, hsigned, hbatch, hsame⟩ := hchain.exists_batch
  exact ⟨batch, hsigned, hbatch, fun s => hchain.build_deferred s hsame, hsame⟩

/-! ## A rated bundle -/

/-- A rate of one minute. -/
def ratedConstraint (count : Int) : ConstraintV2 :=
  { ConstraintV2.ofKind constraintMaxRate with count, windowS := 60 }

/-- The certificate of the root `tabledKey 4` for the agent. -/
def ratedCert (cs : List ConstraintV2) : DelegationCertV2 where
  version := 2
  certId := "cert"
  issuerId := hexEncode (4 :: List.replicate 31 0)
  issuerPubKey := tabledKey 4
  subjectId := hexEncode (3 :: List.replicate 31 0)
  subjectPubKey := tabledKey 3
  scope := ["data:read"]
  constraints := cs
  issuedAt := 0
  expiresAt := 1000
  signature := tabledSignature

def ratedBundle (cs : List ConstraintV2) : ProofBundleV2 where
  version := 2
  verifierId := hexEncode (1 :: List.replicate 31 0)
  agentId := hexEncode (3 :: List.replicate 31 0)
  agentPubKey := tabledKey 3
  delegations := [ratedCert cs]
  delegationDigest := List.replicate 48 0
  challenge := List.replicate 32 0
  challengeAt := 100
  challengeSig := tabledSignature
  sessionContext := none
  streamId := none
  streamSeq := none

/-- A constraint that some node reads as. -/
def Readable (k : ConstraintV2) : Prop := ∃ n, Parsed 12 n ∧ ConstraintV2.fromNode n = .ok k

theorem Readable.exists_toCj {k : ConstraintV2} (h : Readable k) : ∃ v, k.toCj = .ok v := by
  obtain ⟨n, hn, hread⟩ := h
  obtain ⟨v, hv, -⟩ := toCj_of_fromNode (hn.mono (by decide)) hread
  exact ⟨v, hv⟩

theorem Readable.nests {k : ConstraintV2} (h : Readable k) : k.Nests 11 := by
  obtain ⟨n, hn, hread⟩ := h
  exact nests_of_fromNode hn hread

def ratedNode (count : Int) : JNode :=
  .mk (.obj [("count", .mk (.num (String.ofList (encodeInt count))) 0 0),
    ("type", .mk (.str constraintMaxRate) 0 0),
    ("window_s", .mk (.num (String.ofList (encodeInt 60))) 0 0)]) 0 0

theorem parsed_ratedNode {count : Int} (h : -maxSafe ≤ count ∧ count ≤ maxSafe) :
    Parsed 12 (ratedNode count) := by
  refine .obj 11 _ 0 0 (by simp) fun f hf => ?_
  simp only [List.mem_cons, List.not_mem_nil, or_false] at hf
  obtain rfl | rfl | rfl := hf
  · exact .int 11 count 0 0 h
  · exact .str 11 _ 0 0
  · exact .int 11 60 0 0 (by decide)

theorem bundleValid_rated {cs : List ConstraintV2} (hcount : cs.length ≤ 32)
    (hcs : ∀ k ∈ cs, Readable k) : BundleValid (counting []) (ratedBundle cs) := by
  have h := accepting_counting []
  have hid : ∀ n : UInt8, validV2Id (hexEncode (n :: List.replicate 31 0)) = true :=
    fun n => validV2Id_of_keyIdV2 (counting []) (h.keyIdV2 n)
  have hsession : ∀ s, (ratedBundle cs).sessionContext = some s → s.length = 32 := by
    intro s hs
    cases hs
  refine
    { version := rfl, verifier := hid 1, agent := hid 3, chain := show 1 ≤ 8 by decide
      challenge := List.length_replicate
      challengeAt := show (0 : Int) ≤ 100 ∧ (100 : Int) ≤ v2MaxTimestampSeconds by decide
      digest := List.length_replicate, session := hsession, streamBoth := rfl
      stream := rfl, lengths := signatureLengths_tabled, certs := fun c hc => ?_ }
  rw [List.mem_singleton.mp hc]
  refine ⟨?_, signatureLengths_tabled⟩
  exact
    { version := rfl
      issuedAt := show (0 : Int) ≤ 0 ∧ (0 : Int) ≤ v2MaxTimestampSeconds by decide
      expiresAt := show (0 : Int) ≤ 1000 ∧ (1000 : Int) ≤ v2MaxTimestampSeconds by decide
      certId := show "cert" ≠ "" ∧ (utf8 "cert").length ≤ maxIdentifierLengthBytes by decide
      issuer := ⟨hid 4, h.keyIdV2 4⟩, subject := ⟨hid 3, h.keyIdV2 3⟩
      scopes := show ∀ s ∈ ["data:read"], (utf8 s).length ≤ maxScopeLengthBytes by decide
      scopeCount := show 1 ≤ 128 by decide, constraintCount := hcount
      constraints := fun k hk => (hcs k hk).exists_toCj }

theorem signedChain_rated {cs : List ConstraintV2} (hcount : cs.length ≤ 32)
    (hcs : ∀ k ∈ cs, Readable k) : SignedChain (counting []) (ratedBundle cs) := by
  have hvalid := bundleValid_rated hcount hcs
  have hsequence : ∀ s, (ratedBundle cs).streamSeq = some s → s ≤ maxSafe := by
    intro s hs
    cases hs
  have hrates : ∀ c ∈ (ratedBundle cs).delegations, ∀ k ∈ c.constraints, k.Nests 11 := by
    intro c hc
    rw [List.mem_singleton.mp hc]
    exact fun k hk => (hcs k hk).nests
  have hsignable : Signable (counting []) (ratedBundle cs) := hvalid.signable hsequence hrates
  refine (accepting_counting []).signedChain hsignable ?_ (fun c hc => (hvalid.certs c hc).1)
    (.singleton _) (List.nodup_singleton _) ?_ ?_ ⟨3, rfl, rfl, rfl⟩ ?_
  · exact
      { version := rfl, depth := hvalid.chain, challenge := hvalid.challenge
        digest := hvalid.digest, sequence := hsequence, session := hvalid.session
        streamBoth := rfl, stream := rfl, agent := hvalid.agent, verifier := hvalid.verifier }
  · intro c hc
    obtain rfl := Option.some.inj hc
    exact ⟨rfl, rfl⟩
  · obtain ⟨digest, hdigest⟩ := hsignable.digest
    have hzero : digest = List.replicate 48 0 := by
      rw [delegationDigestV2] at hdigest
      obtain ⟨_, -, hdigest⟩ := bind_eq_ok_iff.mp hdigest
      obtain ⟨_, -, hdigest⟩ := bind_eq_ok_iff.mp hdigest
      exact (Except.ok.inj hdigest).symm.trans (tableDigest_nil _)
    rw [hdigest, hzero]
    rfl
  · intro c hc
    rw [List.mem_singleton.mp hc]
    exact ⟨4, rfl, rfl⟩

theorem rateBatch_law_rated : ∃ batch,
    signedV2RateReservationBatch (ratedBundle [ratedConstraint 5, ratedConstraint 3]) = .ok batch
      ∧ SignedBatch (ratedBundle [ratedConstraint 5, ratedConstraint 3]) batch := by
  have hcs : ∀ k ∈ [ratedConstraint 5, ratedConstraint 3], Readable k := by
    intro k hk
    obtain rfl | hk := List.mem_cons.mp hk
    · exact ⟨ratedNode 5, parsed_ratedNode (by decide), rfl⟩
    · exact List.mem_singleton.mp hk ▸ ⟨ratedNode 3, parsed_ratedNode (by decide), rfl⟩
  have hverified := verifyProofBundleV2Signatures_eq_ok_iff.mpr (signedChain_rated (by decide) hcs)
  obtain ⟨batch, hbatch, hsigned, -⟩ := rateBatch_law (counting []) _ hverified
  exact ⟨batch, hbatch, hsigned⟩

end RatifyProtocol.V2
