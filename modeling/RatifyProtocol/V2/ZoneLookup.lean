import RatifyProtocol.V2.FooterText
import RatifyProtocol.V2.Zone
set_option autoImplicit false

/-!
# V2: what a zone lookup answers

A lookup finds the offset that the zone defines, by the transition table before
its last entry and by the footer after it, and reports an end up to which that
offset holds.
-/

namespace RatifyProtocol.V2

open Foundation

/-! ## Parsed zones -/

/-- What `parse_tzif` guarantees of a zone. -/
structure Zone.WellFormed (z : Zone) : Prop where
  zones_ne : z.zones ≠ []
  tx_ne : z.tx ≠ []
  index_lt : ∀ t ∈ z.tx, t.index < z.zones.length
  at_range : ∀ t ∈ z.tx, alpha ≤ t.at_ ∧ t.at_ ≤ omegaTime
  offset_range : ∀ zone ∈ z.zones, -2147483648 ≤ zone.offset ∧ zone.offset ≤ 2147483647

theorem big4_lt {d d' : DataIo} {n : Nat} (h : d.big4 = (some n, d')) : n < 4294967296 := by
  unfold DataIo.big4 at h
  dsimp only at h
  split at h
  · rename_i a b c e _
    simp only [Prod.mk.injEq, Option.some.injEq] at h
    have ha := a.toNat_lt
    have hb := b.toNat_lt
    have hc := c.toNat_lt
    have he := e.toNat_lt
    omega
  · simp at h

theorem orBad_ok {α : Type} {r : Option α × DataIo} {value : α} {d : DataIo}
    (h : orBad r = .ok (value, d)) : r = (some value, d) := by
  obtain ⟨o, d₀⟩ := r
  cases o with
  | none => cases h
  | some v =>
    simp only [orBad, Except.ok.injEq, Prod.mk.injEq] at h
    rw [h.1, h.2]

theorem parseZoneTypes_length {abbrevs : Bytes} {n : Nat} {d : DataIo} {zones : List ZoneType}
    (h : parseZoneTypes abbrevs n d = .ok zones) :
    zones.length = n
      ∧ ∀ zone ∈ zones, -2147483648 ≤ zone.offset ∧ zone.offset ≤ 2147483647 := by
  induction n generalizing d zones with
  | zero =>
    obtain rfl := Except.ok.inj h
    exact ⟨rfl, by simp⟩
  | succ n ih =>
    simp only [parseZoneTypes, bind_eq_ok_iff] at h
    obtain ⟨⟨off, d₁⟩, hoff, ⟨dst, d₂⟩, -, ⟨b, d₃⟩, -, h⟩ := h
    split at h
    · cases h
    · simp only [bind_eq_ok_iff] at h
      obtain ⟨rest, hrest, h⟩ := h
      obtain rfl := Except.ok.inj h
      obtain ⟨hlen, hrange⟩ := ih hrest
      refine ⟨by rw [List.length_cons, hlen], fun zone hzone => ?_⟩
      obtain rfl | hzone := List.mem_cons.mp hzone
      · have hlt := big4_lt (orBad_ok hoff)
        simp only [asI32]
        split <;> omega
      · exact hrange zone hzone

theorem map_ok {α β : Type} {r : Except String α} {f : α → β} {b : β}
    (h : r.map f = .ok b) : ∃ a, r = .ok a ∧ f a = b := by
  cases r with
  | error e => cases h
  | ok a => exact ⟨a, rfl, Except.ok.inj h⟩

/-- A transition time is an `i64`. -/
theorem readTransitionTime_range {is64 : Bool} {d d' : DataIo} {at_ : Int}
    (h : readTransitionTime is64 d = .ok (at_, d')) : alpha ≤ at_ ∧ at_ ≤ omegaTime := by
  unfold alpha omegaTime
  unfold readTransitionTime at h
  split at h
  · obtain ⟨r, -, heq⟩ := map_ok h
    obtain ⟨rfl, -⟩ := Prod.mk.inj heq
    have hwrap := IntType.holds_wrap .i64 r.1
    simp only [IntType.holds_i64] at hwrap
    exact hwrap
  · obtain ⟨r, hread, heq⟩ := map_ok h
    obtain ⟨rfl, -⟩ := Prod.mk.inj heq
    have hlt := big4_lt (orBad_ok hread)
    unfold asI32
    split <;> omega

theorem parseTransitions_valid {is64 : Bool} {zoneCount n i : Nat} {txzones : Bytes} {d : DataIo}
    {tx : List ZoneTrans} (h : parseTransitions is64 zoneCount txzones n i d = .ok tx) :
    ∀ t ∈ tx, t.index < zoneCount ∧ alpha ≤ t.at_ ∧ t.at_ ≤ omegaTime := by
  induction n generalizing i d tx with
  | zero =>
    obtain rfl := Except.ok.inj h
    simp
  | succ n ih =>
    simp only [parseTransitions, bind_eq_ok_iff] at h
    obtain ⟨⟨at_, d₁⟩, hat, h⟩ := h
    have hrange := readTransitionTime_range hat
    split at h
    · cases h
    · split at h
      · cases h
      · rename_i hindex
        simp only [bind_eq_ok_iff] at h
        obtain ⟨rest, hrest, h⟩ := h
        obtain rfl := Except.ok.inj h
        intro t ht
        obtain rfl | ht := List.mem_cons.mp ht
        · exact ⟨not_le.mp hindex, hrange⟩
        · exact ih hrest t ht

theorem parseZoneData_wellFormed {name : String} {is64 : Bool} {n : Counts} {d : DataIo} {z : Zone}
    (h : parseZoneData name is64 n d = .ok z) : z.WellFormed := by
  unfold parseZoneData at h
  generalize (if is64 = true then 8 else 4) = size at h
  dsimp only at h
  split at h
  · cases h
  split at h
  · cases h
  rename_i hzone
  simp only [bind_eq_ok_iff] at h
  obtain ⟨zones, hzones, tx, htx, h⟩ := h
  obtain ⟨hlen, hoffsets⟩ := parseZoneTypes_length hzones
  have hvalid := parseTransitions_valid htx
  obtain rfl := Except.ok.inj h
  have hpos : 0 < zones.length := by omega
  refine ⟨List.ne_nil_of_length_pos hpos, ?_, ?_, ?_, hoffsets⟩
  · dsimp only
    split
    · exact List.cons_ne_nil _ _
    · assumption
  · intro t ht
    dsimp only at ht ⊢
    split at ht
    · obtain rfl := List.mem_singleton.mp ht
      exact hpos
    · exact (hvalid t ht).1
  · intro t ht
    dsimp only at ht
    split at ht
    · obtain rfl := List.mem_singleton.mp ht
      decide
    · exact (hvalid t ht).2

/-- Every zone that parses is well formed. -/
theorem parseTzif_wellFormed {name : String} {data : Bytes} {z : Zone}
    (h : parseTzif name data = .ok z) : z.WellFormed := by
  unfold parseTzif at h
  dsimp only at h
  split at h
  · cases h
  split at h
  · cases h
  simp only [bind_eq_ok_iff] at h
  obtain ⟨_, -, _, -, h⟩ := h
  exact parseZoneData_wellFormed h

/-! ## The binary search -/

/-- The search ends between two neighbours: the entry found is not later than the
instant, and the entry after it, if there is one, is. -/
theorem searchTx_spec (tx : List ZoneTrans) (sec : Int) (fuel lo hi : Nat) (stop : Int)
    (hfuel : hi - lo ≤ fuel + 1) (hlohi : lo < hi) (hhi : hi ≤ tx.length)
    (hlo : ∀ t, tx[lo]? = some t → t.at_ ≤ sec)
    (hstop : (hi = tx.length ∧ stop = omegaTime) ∨ ∃ t, tx[hi]? = some t ∧ sec < t.at_
      ∧ stop = t.at_) :
    ∃ k stop', Zone.searchTx tx sec fuel lo hi stop = (k, stop') ∧ k < tx.length
      ∧ (∀ t, tx[k]? = some t → t.at_ ≤ sec)
      ∧ ((k + 1 = tx.length ∧ stop' = omegaTime) ∨ ∃ t, tx[k + 1]? = some t ∧ sec < t.at_
        ∧ stop' = t.at_) := by
  induction fuel generalizing lo hi stop with
  | zero =>
    obtain rfl : hi = lo + 1 := by omega
    exact ⟨lo, stop, rfl, by omega, hlo, hstop⟩
  | succ fuel ih =>
    unfold Zone.searchTx
    split
    · rename_i hwide
      dsimp only
      have hm : lo + (hi - lo) / 2 < tx.length := by omega
      rw [List.getElem?_eq_getElem hm]
      dsimp only
      split
      · rename_i hlt
        exact ih lo (lo + (hi - lo) / 2) _ (by omega) (by omega) (by omega) hlo
          (Or.inr ⟨_, List.getElem?_eq_getElem hm, hlt, rfl⟩)
      · rename_i hge
        refine ih (lo + (hi - lo) / 2) hi stop (by omega) (by omega) hhi ?_ hstop
        intro t ht
        rw [List.getElem?_eq_getElem hm] at ht
        obtain rfl := Option.some.inj ht
        exact not_lt.mp hge
    · obtain rfl : hi = lo + 1 := by omega
      exact ⟨lo, stop, rfl, by omega, hlo, hstop⟩

/-! ## The entry in effect -/

namespace Zone

/-- The transition times strictly increase. -/
def Sorted (z : Zone) : Prop := z.tx.Pairwise fun a b => a.at_ < b.at_

/-- The rules of the footer take effect within their UTC year. -/
def FooterWithinYear (z : Zone) : Prop :=
  ∀ footer, tzsetFooter z.extend = some footer → footer.WithinYear

/-- Entry `k` of the table is in effect at an instant. -/
def EntryAt (z : Zone) (t : Int) (k : Nat) (e : ZoneTrans) : Prop :=
  z.tx[k]? = some e ∧ e.at_ ≤ t ∧ ∀ e', z.tx[k + 1]? = some e' → t < e'.at_

theorem Sorted.lt {z : Zone} (h : z.Sorted) {i j : Nat} {a b : ZoneTrans} (ha : z.tx[i]? = some a)
    (hb : z.tx[j]? = some b) (hij : i < j) : a.at_ < b.at_ := by
  obtain ⟨hi, rfl⟩ := List.getElem?_eq_some_iff.mp ha
  obtain ⟨hj, rfl⟩ := List.getElem?_eq_some_iff.mp hb
  exact List.pairwise_iff_getElem.mp h i j hi hj hij

theorem Sorted.le {z : Zone} (h : z.Sorted) {i j : Nat} {a b : ZoneTrans} (ha : z.tx[i]? = some a)
    (hb : z.tx[j]? = some b) (hij : i ≤ j) : a.at_ ≤ b.at_ := by
  obtain rfl | hij := Nat.eq_or_lt_of_le hij
  · rw [ha] at hb
    exact le_of_eq (congrArg ZoneTrans.at_ (Option.some.inj hb))
  · exact (h.lt ha hb hij).le

/-- An entry in effect stays in effect until the next one. -/
theorem EntryAt.unique {z : Zone} (h : z.Sorted) {t u : Int} {k j : Nat} {a b : ZoneTrans}
    (ha : z.EntryAt t k a) (hb : z.EntryAt u j b) (htu : t ≤ u)
    (hu : ∀ e', z.tx[k + 1]? = some e' → u < e'.at_) : j = k ∧ b = a := by
  obtain ⟨hka, hat, -⟩ := ha
  obtain ⟨hjb, hbu, hbnext⟩ := hb
  obtain ⟨hjlen, -⟩ := List.getElem?_eq_some_iff.mp hjb
  obtain ⟨hklen, -⟩ := List.getElem?_eq_some_iff.mp hka
  obtain hlt | rfl | hgt := lt_trichotomy j k
  · have hnext := List.getElem?_eq_getElem (l := z.tx) (i := j + 1) (by omega)
    have hbefore := hbnext _ hnext
    have hmono := h.le hnext hka hlt
    omega
  · rw [hka] at hjb
    exact ⟨rfl, (Option.some.inj hjb).symm⟩
  · have hnext := List.getElem?_eq_getElem (l := z.tx) (i := k + 1) (by omega)
    have hbefore := hu _ hnext
    have hmono := h.le hnext hjb hgt
    omega

/-- The entry in effect is the latest one that is not in the future. -/
theorem EntryAt.latest {z : Zone} (h : z.Sorted) {t : Int} {k : Nat} {e x : ZoneTrans}
    (he : z.EntryAt t k e) (hx : x ∈ z.tx) (hxt : x.at_ ≤ t) : x.at_ ≤ e.at_ := by
  obtain ⟨i, hi, rfl⟩ := List.getElem_of_mem hx
  have hget := List.getElem?_eq_getElem hi
  by_contra hlater
  have hik : k < i := by
    by_contra hle
    exact hlater (h.le hget he.1 (not_lt.mp hle))
  have hnext := List.getElem?_eq_getElem (l := z.tx) (i := k + 1) (by omega)
  have hbefore := he.2.2 _ hnext
  have hmono := h.le hnext hget hik
  omega

/-! ## The cases of a lookup -/

theorem standardBefore_lt {zones : List ZoneType} {n i : Nat}
    (h : standardBefore zones n = some i) : i < zones.length := by
  induction n with
  | zero => cases h
  | succ n ih =>
    unfold standardBefore at h
    split at h
    · rename_i hany
      obtain rfl := Option.some.inj h
      cases hzone : zones[n]? with
      | none =>
        rw [hzone] at hany
        cases hany
      | some zone => exact (List.getElem?_eq_some_iff.mp hzone).1
    · exact ih h

theorem lookupFirstZone_lt {z : Zone} (h : z.zones ≠ []) : z.lookupFirstZone < z.zones.length := by
  have hpos : 0 < z.zones.length := List.length_pos_iff.mpr h
  unfold lookupFirstZone
  split
  · exact hpos
  · dsimp only
    split
    · rename_i zi hearlier
      obtain ⟨t, -, hfound⟩ := Option.bind_eq_some_iff.mp hearlier
      split at hfound
      · exact standardBefore_lt hfound
      · cases hfound
    · cases hfind : z.zones.findIdx? fun zone => !zone.isDst with
      | none => exact hpos
      | some i => exact (List.findIdx?_eq_some_iff_getElem.mp hfind).1

/-- The ways in which a lookup finds its answer. -/
inductive LookupCase (z : Zone) (t : Int) : Prop
  | beforeTable (zone : ZoneType) (e : ZoneTrans) (he : z.tx[0]? = some e) (hlt : t < e.at_)
      (hzone : z.zones[z.lookupFirstZone]? = some zone)
      (heq : z.lookupRaw t = .fromZone zone alpha e.at_)
  | table (k : Nat) (e e' : ZoneTrans) (zone : ZoneType) (he : z.EntryAt t k e)
      (he' : z.tx[k + 1]? = some e') (hzone : z.zones[e.index]? = some zone)
      (heq : z.lookupRaw t = .fromZone zone e.at_ e'.at_)
  | lastEntry (k : Nat) (e : ZoneTrans) (zone : ZoneType) (he : z.EntryAt t k e)
      (hlast : k + 1 = z.tx.length) (hnone : z.extend = [] ∨ tzsetFooter z.extend = none)
      (hzone : z.zones[e.index]? = some zone)
      (heq : z.lookupRaw t = .fromZone zone e.at_ omegaTime)
  | footer (k : Nat) (e : ZoneTrans) (f : Footer) (he : z.EntryAt t k e)
      (hlast : k + 1 = z.tx.length) (hext : z.extend ≠ []) (hf : tzsetFooter z.extend = some f)
      (heq : z.lookupRaw t = f.lookup e.at_ t)

theorem lookupCase {z : Zone} (h : z.WellFormed) (t : Int) : z.LookupCase t := by
  obtain ⟨first, hfirst⟩ : ∃ first, z.tx[0]? = some first := by
    have hpos : 0 < z.tx.length := List.length_pos_iff.mpr h.tx_ne
    exact ⟨_, List.getElem?_eq_getElem hpos⟩
  have hhead : z.tx.head? = some first := by rw [List.head?_eq_getElem?, hfirst]
  by_cases hbefore : t < first.at_
  · obtain ⟨zone, hzone⟩ : ∃ zone, z.zones[z.lookupFirstZone]? = some zone :=
      ⟨_, List.getElem?_eq_getElem (lookupFirstZone_lt h.zones_ne)⟩
    refine .beforeTable zone first hfirst hbefore hzone ?_
    unfold lookupRaw
    rw [if_neg h.zones_ne]
    simp [hhead, hbefore, hzone]
  · have hlen : 0 < z.tx.length := (List.getElem?_eq_some_iff.mp hfirst).1
    obtain ⟨k, stop, hsearch, hk, hle, hnext⟩ :=
      searchTx_spec z.tx t z.tx.length 0 z.tx.length omegaTime (by omega) hlen
        (le_refl _) (fun e he => by
          rw [hfirst] at he
          obtain rfl := Option.some.inj he
          exact not_lt.mp hbefore) (Or.inl ⟨rfl, rfl⟩)
    obtain ⟨e, he⟩ : ∃ e, z.tx[k]? = some e := ⟨_, List.getElem?_eq_getElem hk⟩
    have hmem : e ∈ z.tx := List.mem_of_getElem? he
    obtain ⟨zone, hzone⟩ : ∃ zone, z.zones[e.index]? = some zone :=
      ⟨_, List.getElem?_eq_getElem (h.index_lt e hmem)⟩
    have hraw : z.lookupRaw t = if k + 1 = z.tx.length ∧ z.extend ≠ [] then
        (tzset z.extend e.at_ t).getD (.fromZone zone e.at_ stop)
        else .fromZone zone e.at_ stop := by
      unfold lookupRaw
      rw [if_neg h.zones_ne]
      simp only [hhead, Option.map_some, Option.all_some, decide_eq_true_eq, if_neg hbefore,
        hsearch, he, hzone]
    obtain ⟨hlast, rfl⟩ | ⟨e', he', hlt, rfl⟩ := hnext
    · have hentry : z.EntryAt t k e := by
        refine ⟨he, hle e he, fun e' he' => ?_⟩
        have hbound := (List.getElem?_eq_some_iff.mp he').1
        omega
      by_cases hext : z.extend = []
      · rw [if_neg (fun hboth => hboth.2 hext)] at hraw
        exact .lastEntry k e zone hentry hlast (Or.inl hext) hzone hraw
      · rw [if_pos ⟨hlast, hext⟩] at hraw
        cases hf : tzsetFooter z.extend with
        | none =>
          refine .lastEntry k e zone hentry hlast (Or.inr hf) hzone ?_
          rw [hraw, tzset, hf]
          rfl
        | some f =>
          refine .footer k e f hentry hlast hext hf ?_
          rw [hraw, tzset, hf]
          rfl
    · have hshort : ¬ (k + 1 = z.tx.length ∧ z.extend ≠ []) := by
        have hbound := (List.getElem?_eq_some_iff.mp he').1
        omega
      rw [if_neg hshort] at hraw
      refine .table k e e' zone ⟨he, hle e he, fun x hx => ?_⟩ he' hzone hraw
      rw [he'] at hx
      obtain rfl := Option.some.inj hx
      exact hlt

/-! ## Soundness -/

/-- The offset that a zone defines at an instant: by the entry in effect before the
last one, from the last one on by the footer, when there is one that can be
read. -/
inductive OffsetAt (z : Zone) (t : Int) : Int → Prop
  | beforeTable {zone : ZoneType} (hbefore : ∀ e ∈ z.tx, t < e.at_)
      (hzone : z.zones[z.lookupFirstZone]? = some zone) : OffsetAt z t zone.offset
  | table {e : ZoneTrans} {zone : ZoneType} (he : e ∈ z.tx) (hle : e.at_ ≤ t)
      (hlatest : ∀ x ∈ z.tx, x.at_ ≤ t → x.at_ ≤ e.at_) (hlater : ∃ x ∈ z.tx, t < x.at_)
      (hzone : z.zones[e.index]? = some zone) : OffsetAt z t zone.offset
  | lastEntry {e : ZoneTrans} {zone : ZoneType} (he : e ∈ z.tx) (hle : e.at_ ≤ t)
      (hlast : ∀ x ∈ z.tx, x.at_ ≤ e.at_) (hnone : z.extend = [] ∨ tzsetFooter z.extend = none)
      (hzone : z.zones[e.index]? = some zone) : OffsetAt z t zone.offset
  | footer {e : ZoneTrans} {f : Footer} {offset : Int} (he : e ∈ z.tx) (hle : e.at_ ≤ t)
      (hlast : ∀ x ∈ z.tx, x.at_ ≤ e.at_) (htext : FooterText z.extend f)
      (hoffset : f.OffsetAt t offset) : OffsetAt z t offset

variable {z : Zone} {t : Int}

/-- The last entry of the table is the latest one. -/
theorem Sorted.le_last (h : z.Sorted) {k : Nat} {e x : ZoneTrans} (he : z.tx[k]? = some e)
    (hlast : k + 1 = z.tx.length) (hx : x ∈ z.tx) : x.at_ ≤ e.at_ := by
  obtain ⟨i, hi, rfl⟩ := List.getElem_of_mem hx
  exact h.le (List.getElem?_eq_getElem hi) he (by omega)

/-- A lookup reports the offset that the zone defines. -/
theorem offsetAt_lookupRaw (hz : z.WellFormed) (hs : z.Sorted) (hy : z.FooterWithinYear)
    (ht : 0 ≤ t ∧ t ≤ 253402300799) : z.OffsetAt t (z.lookupRaw t).offset := by
  cases z.lookupCase hz t with
  | beforeTable zone e he hlt hzone heq =>
    rw [heq]
    refine .beforeTable (fun x hx => ?_) hzone
    obtain ⟨i, hi, rfl⟩ := List.getElem_of_mem hx
    have hle := hs.le he (List.getElem?_eq_getElem hi) (Nat.zero_le i)
    omega
  | table k e e' zone he he' hzone heq =>
    rw [heq]
    exact .table (List.mem_of_getElem? he.1) he.2.1 (fun x hx hxt => he.latest hs hx hxt)
      ⟨e', List.mem_of_getElem? he', he.2.2 e' he'⟩ hzone
  | lastEntry k e zone he hlast hnone hzone heq =>
    rw [heq]
    exact .lastEntry (List.mem_of_getElem? he.1) he.2.1 (fun x hx => hs.le_last he.1 hlast hx)
      hnone hzone
  | footer k e f he hlast hext hf heq =>
    rw [heq]
    have htext := tzsetFooter_sound hf
    exact .footer (List.mem_of_getElem? he.1) he.2.1 (fun x hx => hs.le_last he.1 hlast hx) htext
      (Footer.offsetAt_lookup htext.valid (hy f hf) ht e.at_)

/-- An entry in effect stays the answer until the next one. -/
theorem lookupRaw_of_entryAt (hz : z.WellFormed) (hs : z.Sorted) {u : Int} {k : Nat}
    {e : ZoneTrans} (he : z.EntryAt t k e) (htu : t ≤ u)
    (hu : ∀ e', z.tx[k + 1]? = some e' → u < e'.at_) :
    (∃ zone, z.zones[e.index]? = some zone ∧ (k + 1 = z.tx.length →
        z.extend = [] ∨ tzsetFooter z.extend = none)
        ∧ (z.lookupRaw u).offset = zone.offset)
      ∨ ∃ f, k + 1 = z.tx.length ∧ z.extend ≠ [] ∧ tzsetFooter z.extend = some f
        ∧ z.lookupRaw u = f.lookup e.at_ u := by
  cases z.lookupCase hz u with
  | beforeTable zone first hfirst hlt hzone heq =>
    have hle := hs.le hfirst he.1 (Nat.zero_le k)
    have hat := he.2.1
    omega
  | table j b b' zone hb hb' hzone heq =>
    obtain ⟨rfl, rfl⟩ := he.unique hs hb htu hu
    refine Or.inl ⟨zone, hzone, fun hlast => ?_, by rw [heq]; rfl⟩
    have hbound := (List.getElem?_eq_some_iff.mp hb').1
    omega
  | lastEntry j b zone hb hlast hnone hzone heq =>
    obtain ⟨rfl, rfl⟩ := he.unique hs hb htu hu
    exact Or.inl ⟨zone, hzone, fun _ => hnone, by rw [heq]; rfl⟩
  | footer j b f hb hlast hext hf heq =>
    obtain ⟨rfl, rfl⟩ := he.unique hs hb htu hu
    exact Or.inr ⟨f, hlast, hext, hf, heq⟩

/-- Up to the end that a lookup reports, its offset holds. -/
theorem lookupRaw_until_stop (hz : z.WellFormed) (hs : z.Sorted) (hy : z.FooterWithinYear)
    (ht : 0 ≤ t ∧ t ≤ 253402300799) {u : Int} (htu : t ≤ u) (hu : u < (z.lookupRaw t).stop) :
    (z.lookupRaw u).offset = (z.lookupRaw t).offset := by
  cases z.lookupCase hz t with
  | beforeTable zone e he hlt hzone heq =>
    rw [heq] at hu ⊢
    have hue : u < e.at_ := hu
    cases z.lookupCase hz u with
    | beforeTable zone' e' he' hlt' hzone' heq' =>
      rw [hzone] at hzone'
      rw [heq', Option.some.inj hzone']
      rfl
    | table k b _ _ hb _ _ _ =>
      have hle := hs.le he hb.1 (Nat.zero_le k)
      have hat := hb.2.1
      omega
    | lastEntry k b _ hb _ _ _ _ =>
      have hle := hs.le he hb.1 (Nat.zero_le k)
      have hat := hb.2.1
      omega
    | footer k b _ hb _ _ _ _ =>
      have hle := hs.le he hb.1 (Nat.zero_le k)
      have hat := hb.2.1
      omega
  | table k e e' zone he he' hzone heq =>
    rw [heq] at hu ⊢
    have hnext : ∀ x, z.tx[k + 1]? = some x → u < x.at_ := by
      intro x hx
      rw [he'] at hx
      obtain rfl := Option.some.inj hx
      exact hu
    obtain ⟨zone', hzone', -, hoffset⟩ | ⟨f, hlast, -, -, -⟩ :=
      lookupRaw_of_entryAt hz hs he htu hnext
    · rw [hzone] at hzone'
      rw [hoffset, Option.some.inj hzone']
      rfl
    · have hbound := (List.getElem?_eq_some_iff.mp he').1
      omega
  | lastEntry k e zone he hlast hnone hzone heq =>
    rw [heq]
    have hnext : ∀ x, z.tx[k + 1]? = some x → u < x.at_ := by
      intro x hx
      have hbound := (List.getElem?_eq_some_iff.mp hx).1
      omega
    obtain ⟨zone', hzone', -, hoffset⟩ | ⟨f, -, hext, hf, -⟩ :=
      lookupRaw_of_entryAt hz hs he htu hnext
    · rw [hzone] at hzone'
      rw [hoffset, Option.some.inj hzone']
      rfl
    · obtain hnone | hnone := hnone
      · exact absurd hnone hext
      · rw [hf] at hnone
        cases hnone
  | footer k e f he hlast hext hf heq =>
    rw [heq] at hu ⊢
    have hnext : ∀ x, z.tx[k + 1]? = some x → u < x.at_ := by
      intro x hx
      have hbound := (List.getElem?_eq_some_iff.mp hx).1
      omega
    obtain ⟨zone', -, hnone, -⟩ | ⟨f', -, -, hf', heq'⟩ :=
      lookupRaw_of_entryAt hz hs he htu hnext
    · obtain hnone | hnone := hnone hlast
      · exact absurd hnone hext
      · rw [hf] at hnone
        cases hnone
    · rw [hf] at hf'
      obtain rfl := Option.some.inj hf'
      rw [heq']
      exact Footer.lookup_until_stop (tzsetFooter_sound hf).valid (hy f hf) ht e.at_ htu hu

end Zone

/-- In a parsed zone with increasing transition times whose footer rules stay
within their UTC year, a lookup reports the offset that the zone defines, and an
end up to which every instant looks up to that offset. -/
theorem lookup_interval {name : String} {data : Bytes} {z : Zone} {t : Int}
    (hparse : parseTzif name data = .ok z) (hsorted : z.Sorted) (hyear : z.FooterWithinYear)
    (ht : validV2Timestamp t = true) :
    z.OffsetAt t (z.lookupRaw t).offset
      ∧ ∀ u, t ≤ u → u < (z.lookupRaw t).stop →
        (z.lookupRaw u).offset = (z.lookupRaw t).offset := by
  have hz := parseTzif_wellFormed hparse
  rw [validV2Timestamp_iff, v2MaxTimestampSeconds] at ht
  exact ⟨Zone.offsetAt_lookupRaw hz hsorted hyear ht,
    fun u htu hu => Zone.lookupRaw_until_stop hz hsorted hyear ht htu hu⟩

/-! ## A zone with a seasonal footer -/

/-- A rule in the middle of a year takes effect within it. -/
theorem julian_withinYear {r : Rule} {year off : Int} {d : Date} (hkind : r.kind = .julian)
    (hday : 10 ≤ r.day ∧ r.day ≤ 355) (htime : -608399 ≤ r.time ∧ r.time ≤ 608399)
    (hoff : -86400 ≤ off ∧ off ≤ 86400) (hd : r.NamesDay year d) :
    0 ≤ r.seconds year off d ∧ r.seconds year off d < yearLength year * 86400 := by
  simp only [Rule.NamesDay, hkind] at hd
  obtain ⟨rfl, -, hcount⟩ := hd
  have hbefore := daysBefore_eq d.year d.month_range
  have hcommon := daysBefore_eq 2001 d.month_range
  have hleap : leapYear 2001 = false := by decide
  simp only [hleap, Bool.false_eq_true, false_and, if_false, add_zero] at hcommon
  have hlength := yearLength_cases d.year
  simp only [Rule.seconds, Date.dayNumber]
  split at hbefore <;> omega

/-- Four bytes of a count. -/
def u32Bytes (n : UInt8) : Bytes := [0, 0, 0, n]

/-- Version 2: an empty 32-bit block, one transition to one zone type, and the
footer `AAA0BBB,J300,J100` of a southern zone. -/
def southernData : Bytes :=
  utf8 "TZif2" ++ List.replicate 15 0 ++ List.replicate 24 0
    ++ utf8 "TZif2" ++ List.replicate 15 0
    ++ u32Bytes 0 ++ u32Bytes 0 ++ u32Bytes 0 ++ u32Bytes 1 ++ u32Bytes 1 ++ u32Bytes 4
    ++ (u32Bytes 0 ++ u32Bytes 100) ++ [0] ++ (u32Bytes 0 ++ [0, 0]) ++ utf8 "AAA\x00"
    ++ utf8 "\nAAA0BBB,J300,J100\n"

def southernZone : Zone :=
  { name := "South", zones := [{ name := utf8 "AAA", offset := 0, isDst := false }]
    tx := [{ at_ := 100, index := 0 }], extend := utf8 "AAA0BBB,J300,J100" }

def southernFooter : Footer :=
  .seasonal (utf8 "AAA") 0 (utf8 "BBB") 3600
    { kind := .julian, day := 300, week := 0, mon := 0, time := 7200 }
    { kind := .julian, day := 100, week := 0, mon := 0, time := 7200 }

theorem southernZone_withinYear : southernZone.FooterWithinYear := by
  intro footer hfooter
  have hread : tzsetFooter southernZone.extend = some southernFooter := by rfl
  rw [hread] at hfooter
  obtain rfl := Option.some.inj hfooter
  intro year _ _ d
  exact ⟨julian_withinYear rfl (by decide) (by decide) (by decide),
    julian_withinYear rfl (by decide) (by decide) (by decide)⟩

theorem parseTzif_southernData : parseTzif "South" southernData = .ok southernZone := by
  decide +kernel

/-- 1 January 2024: summer in the south. -/
theorem lookup_interval_southern :
    southernZone.OffsetAt 1704067200 3600
      ∧ ∀ u, 1704067200 ≤ u → u < (southernZone.lookupRaw 1704067200).stop →
        (southernZone.lookupRaw u).offset = 3600 :=
  lookup_interval parseTzif_southernData (List.pairwise_singleton _ _)
    southernZone_withinYear (by decide)

end RatifyProtocol.V2
