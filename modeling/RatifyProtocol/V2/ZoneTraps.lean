import RatifyProtocol.V2.FooterTraps
import RatifyProtocol.V2.ZipIndex
import RatifyProtocol.V2.ZoneLookup
set_option autoImplicit false

/-!
# V2: the zone functions step by step

`parse_tzif` and `lookup` with every step that may trap.  The counts of a header
are added and multiplied as `u64` before anything is known about them; every
slice is taken by `DataIo::read`, which compares the count with what is left.
Every lawful reading computes what `parseTzif` and `lookup` compute, on the data
as they are.
-/

namespace RatifyProtocol.V2

open Foundation

section Functions

variable {m : Type → Type} [Monad m] (M : Machine m)

/-! ## Reading TZif -/

namespace DataIo

/-- `DataIo::read`; a count beyond `usize` is treated as one beyond the data. -/
def readIn (d : DataIo) (n : Int) : m (Bytes × DataIo) :=
  if M.usize.Holds n ∧ n ≤ d.p.length then do
    let (head, tail) ← M.splitAt d.p n.toNat
    pure (head, { d with p := tail })
  else pure ([], { p := [], error := true })

/-- `big4`. -/
def big4In (d : DataIo) : m (Option Nat × DataIo) := do
  let (bytes, d) ← d.readIn M 4
  pure (match bytes with
    | [a, b, c, e] =>
      (some (a.toNat * 16777216 + b.toNat * 65536 + c.toNat * 256 + e.toNat), d)
    | _ => (none, { d with error := true }))

/-- `big8`. -/
def big8In (d : DataIo) : m (Option Nat × DataIo) := do
  let (hi, d) ← d.big4In M
  let (lo, d) ← d.big4In M
  pure (match hi, lo with
    | some hi, some lo => (some (hi * 4294967296 + lo), d)
    | _, _ => (none, { d with error := true }))

/-- `byte`. -/
def byteIn (d : DataIo) : m (Option UInt8 × DataIo) := do
  let (bytes, d) ← d.readIn M 1
  pure (match bytes with
    | [b] => (some b, d)
    | _ => (none, { d with error := true }))

end DataIo

/-- `ok_or_else(bad_data)` on a read. -/
def orBadIn {α : Type} (x : m (Option α × DataIo)) : m (Except String (α × DataIo)) := do
  let r ← x
  pure (orBad r)

/-- The loop over the slots of the counts. -/
def readCountsIn (d : DataIo) : m (Except String (Counts × DataIo)) :=
  tryResult (orBadIn (d.big4In M)) fun (utcLocal, d) =>
    tryResult (orBadIn (d.big4In M)) fun (stdWall, d) =>
      tryResult (orBadIn (d.big4In M)) fun (leap, d) =>
        tryResult (orBadIn (d.big4In M)) fun (time, d) =>
          tryResult (orBadIn (d.big4In M)) fun (zone, d) =>
            tryResult (orBadIn (d.big4In M)) fun (char, d) =>
              pure (.ok ({ utcLocal, stdWall, leap, time, zone, char }, d))

/-- The loop over the zone types. -/
def parseZoneTypesIn (abbrevs : Bytes) : Nat → DataIo → m (Except String (List ZoneType))
  | 0, _ => pure (.ok [])
  | n + 1, d =>
    tryResult (orBadIn (d.big4In M)) fun (off, d) =>
      tryResult (orBadIn (d.byteIn M)) fun (dst, d) =>
        tryResult (orBadIn (d.byteIn M)) fun (b, d) =>
          let tail := abbrevs.drop b.toNat
          if tail = [] then pure (.error badData)
          else
            let zone : ZoneType :=
              { name := tail.takeWhile (· != 0), offset := asI32 off, isDst := dst != 0 }
            tryResult (parseZoneTypesIn abbrevs n d) fun rest => pure (.ok (zone :: rest))

/-- The time of a transition. -/
def readTransitionTimeIn (is64 : Bool) (d : DataIo) : m (Except String (Int × DataIo)) :=
  if is64 then tryResult (orBadIn (d.big8In M)) fun r => pure (.ok (asI64Bits r.1, r.2))
  else tryResult (orBadIn (d.big4In M)) fun r => pure (.ok (asI32 r.1, r.2))

/-- The loop over the transitions. -/
def parseTransitionsIn (is64 : Bool) (zoneCount : Nat) (txzones : Bytes) :
    Nat → Nat → DataIo → m (Except String (List ZoneTrans))
  | 0, _, _ => pure (.ok [])
  | n + 1, i, d =>
    tryResult (readTransitionTimeIn M is64 d) fun (at_, d) =>
      match (if M.usize.Holds i then txzones[i]? else none) with
      | none => pure (.error badData)
      | some idx =>
        if idx.toNat ≥ zoneCount then pure (.error badData)
        else
          tryResult (parseTransitionsIn is64 zoneCount txzones n (i + 1) d) fun rest =>
            pure (.ok ({ at_, index := idx.toNat } :: rest))

/-- The length of the 32-bit data and the second header. -/
def skipIn (n : Counts) : m Int := do
  let times ← M.fit .u64 (n.time * 4)
  let skip ← M.fit .u64 (times + n.time)
  let zones ← M.fit .u64 (n.zone * 6)
  let skip ← M.fit .u64 (skip + zones)
  let skip ← M.fit .u64 (skip + n.char)
  let leaps ← M.fit .u64 (n.leap * 8)
  let skip ← M.fit .u64 (skip + leaps)
  let skip ← M.fit .u64 (skip + n.stdWall)
  let skip ← M.fit .u64 (skip + n.utcLocal)
  let skip ← M.fit .u64 (skip + 4)
  M.fit .u64 (skip + 16)

/-- The counts that apply. -/
def readDataCountsIn (version : Nat) (n : Counts) (d : DataIo) :
    m (Except String (Counts × DataIo)) :=
  if version > 1 then do
    let skip ← skipIn M n
    let (_, d) ← d.readIn M skip
    readCountsIn M d
  else pure (.ok (n, d))

/-- The part of `parse_tzif` after the headers. -/
def parseZoneDataIn (name : String) (is64 : Bool) (n : Counts) (d : DataIo) :
    m (Except String Zone) := do
  let size : Int := if is64 then 8 else 4
  let length ← M.fit .u64 (n.time * size)
  let (txtimes, d) ← d.readIn M length
  let (txzones, d) ← d.readIn M n.time
  let length ← M.fit .u64 (n.zone * 6)
  let (zonedata, d) ← d.readIn M length
  let (abbrevs, d) ← d.readIn M n.char
  let leap ← M.fit .u64 (size + 4)
  let length ← M.fit .u64 (n.leap * leap)
  let (_, d) ← d.readIn M length
  let (_, d) ← d.readIn M n.stdWall
  let (_, d) ← d.readIn M n.utcLocal
  if d.error then pure (.error badData)
  else if n.zone = 0 then pure (.error badData)
  else
    tryResult (parseZoneTypesIn M abbrevs n.zone { p := zonedata, error := false }) fun zones =>
      tryResult (parseTransitionsIn M is64 zones.length txzones n.time 0
          { p := txtimes, error := false }) fun tx =>
        let tx := if tx = [] then [{ at_ := alpha, index := 0 }] else tx
        pure (.ok { name, zones, tx, extend := tzifExtend d.p })

/-- `parse_tzif`. -/
def parseTzifIn (name : String) (data : Bytes) : m (Except String Zone) := do
  let (magic, d) ← ({ p := data, error := false } : DataIo).readIn M 4
  if magic ≠ utf8 "TZif" then pure (.error badData)
  else do
    let (p, d) ← d.readIn M 16
    match tzifVersion p with
    | none => pure (.error badData)
    | some version =>
      tryResult (readCountsIn M d) fun (n, d) =>
        tryResult (readDataCountsIn M version n d) fun (n, d) =>
          parseZoneDataIn M name (decide (version > 1)) n d

/-! ## Lookup -/

namespace Zone

/-- The binary search of `lookup_raw`: it must be over when its rounds are. -/
def searchTxIn (tx : List ZoneTrans) (sec : Int) : Nat → Nat → Nat → Int → m (Nat × Int)
  | 0, lo, hi, stop => do
    let width ← M.fit M.usize (hi - lo)
    M.demand (decide (width ≤ 1))
    pure (lo, stop)
  | fuel + 1, lo, hi, stop => do
    let width ← M.fit M.usize (hi - lo)
    if width > 1 then do
      let half ← M.quot M.usize width 2
      let mid ← M.fit M.usize (lo + half)
      match tx[mid.toNat]? with
      | some t =>
        if sec < t.at_ then searchTxIn tx sec fuel lo mid.toNat t.at_
        else searchTxIn tx sec fuel mid.toNat hi stop
      | none => pure (lo, stop)
    else pure (lo, stop)

/-- `lookup_raw`. -/
def lookupRawIn (z : Zone) (sec : Int) : m RawLookup :=
  if z.zones = [] then pure .utc
  else
    let firstWhen := z.tx.head?.map (·.at_)
    if firstWhen.all fun w => decide (sec < w) then
      pure (match z.zones[z.lookupFirstZone]? with
        | none => .utc
        | some zone => .fromZone zone alpha (firstWhen.getD omegaTime))
    else do
      let (lo, stop) ← searchTxIn M z.tx sec z.tx.length 0 z.tx.length omegaTime
      match z.tx[lo]? with
      | none => pure .utc
      | some t =>
        match z.zones[t.index]? with
        | none => pure .utc
        | some zone => do
          let result := RawLookup.fromZone zone t.at_ stop
          let next ← M.fit M.usize (lo + 1)
          if next = z.tx.length ∧ z.extend ≠ [] then do
            let e ← tzsetIn M z.extend t.at_ sec
            pure (e.getD result)
          else pure result

/-- `lookup`. -/
def lookupIn (z : Zone) (unixSeconds : Int) : m ZoneInfo := do
  let r ← z.lookupRawIn M unixSeconds
  pure { offsetSeconds := r.offset, isDst := r.isDst, name := r.name
         start := if r.start ≠ alpha then some r.start else none
         stop := if r.stop ≠ omegaTime then some r.stop else none }

end Zone

end Functions

section Readings

variable {m : Type → Type} [Monad m] [LawfulMonad m] {M : Machine m}

/-! ## Reads -/

namespace DataIo

theorem readIn_eq (hM : M.Lawful) {d : DataIo} (hd : M.Addressable d.p) (n : Nat) :
    d.readIn M n = pure (d.read n) := by
  unfold readIn read
  by_cases hn : n ≤ d.p.length
  · rw [if_pos ⟨hd.holds hM (by omega), Int.ofNat_le.mpr hn⟩, if_pos hn, Int.toNat_natCast,
      hM.splitAt_eq hn, pure_bind]
  · have hout : ¬(M.usize.Holds n ∧ (n : Int) ≤ d.p.length) := fun h => hn (Int.ofNat_le.mp h.2)
    rw [if_neg hout, if_neg hn]

theorem readIn_of_eq (hM : M.Lawful) {d : DataIo} (hd : M.Addressable d.p) {n : Int} {k : Nat}
    (h : n = k) : d.readIn M n = pure (d.read k) := by
  rw [h, readIn_eq hM hd]

/-- A read leaves less and returns no more than there was. -/
theorem read_le (d : DataIo) (n : Nat) :
    (d.read n).1.length ≤ d.p.length ∧ (d.read n).2.p.length ≤ d.p.length := by
  unfold read
  split
  · simp
  · simp

theorem le_of_read {d d' : DataIo} {n : Nat} {bytes : Bytes} (h : d.read n = (bytes, d')) :
    bytes.length ≤ d.p.length ∧ d'.p.length ≤ d.p.length := by
  have hle := d.read_le n
  rw [h] at hle
  exact hle

theorem big4_le (d : DataIo) : d.big4.2.p.length ≤ d.p.length := by
  have hread := (d.read_le 4).2
  unfold big4
  dsimp only
  split
  · exact hread
  · exact hread

theorem big8_le (d : DataIo) : d.big8.2.p.length ≤ d.p.length := by
  have hhi := d.big4_le
  have hlo := d.big4.2.big4_le
  unfold big8
  dsimp only
  split
  · exact hlo.trans hhi
  · exact hlo.trans hhi

theorem byte_le (d : DataIo) : d.byte.2.p.length ≤ d.p.length := by
  have hread := (d.read_le 1).2
  unfold byte
  dsimp only
  split
  · exact hread
  · exact hread

theorem big4In_eq (hM : M.Lawful) {d : DataIo} (hd : M.Addressable d.p) :
    d.big4In M = pure d.big4 := by
  unfold big4In big4
  rw [readIn_of_eq hM hd (n := 4) (k := 4) rfl]
  exact pure_bind _ _

theorem big8In_eq (hM : M.Lawful) {d : DataIo} (hd : M.Addressable d.p) :
    d.big8In M = pure d.big8 := by
  unfold big8In big8
  rw [big4In_eq hM hd, pure_bind]
  dsimp only
  rw [big4In_eq hM (hd.of_le d.big4_le)]
  exact pure_bind _ _

theorem byteIn_eq (hM : M.Lawful) {d : DataIo} (hd : M.Addressable d.p) :
    d.byteIn M = pure d.byte := by
  unfold byteIn byte
  rw [readIn_of_eq hM hd (n := 1) (k := 1) rfl]
  exact pure_bind _ _

end DataIo

theorem orBadIn_eq {α : Type} {x : m (Option α × DataIo)} {r : Option α × DataIo}
    (h : x = pure r) : orBadIn x = pure (orBad r) := by
  rw [orBadIn, h, pure_bind]

/-! ## Counts -/

/-- The counts of a header are 32-bit numbers. -/
structure Counts.Bounded (n : Counts) : Prop where
  utcLocal : n.utcLocal < 4294967296
  stdWall : n.stdWall < 4294967296
  leap : n.leap < 4294967296
  time : n.time < 4294967296
  zone : n.zone < 4294967296
  char : n.char < 4294967296

/-- A count that is read, and what is left after it. -/
theorem orBad_big4 {d d' : DataIo} {n : Nat} (h : orBad d.big4 = .ok (n, d')) :
    n < 4294967296 ∧ d'.p.length ≤ d.p.length := by
  have hread := orBad_ok h
  have hle := d.big4_le
  rw [hread] at hle
  exact ⟨big4_lt hread, hle⟩

theorem orBad_byte {d d' : DataIo} {b : UInt8} (h : orBad d.byte = .ok (b, d')) :
    d'.p.length ≤ d.p.length := by
  have hle := d.byte_le
  rw [orBad_ok h] at hle
  exact hle

theorem readCountsIn_eq (hM : M.Lawful) {d : DataIo} (hd : M.Addressable d.p) :
    readCountsIn M d = pure (readCounts d) := by
  unfold readCountsIn readCounts
  apply tryResult_eq (orBadIn_eq (d.big4In_eq hM hd))
  rintro ⟨utcLocal, d₁⟩ h₁
  have hd₁ := hd.of_le (orBad_big4 h₁).2
  apply tryResult_eq (orBadIn_eq (d₁.big4In_eq hM hd₁))
  rintro ⟨stdWall, d₂⟩ h₂
  have hd₂ := hd₁.of_le (orBad_big4 h₂).2
  apply tryResult_eq (orBadIn_eq (d₂.big4In_eq hM hd₂))
  rintro ⟨leap, d₃⟩ h₃
  have hd₃ := hd₂.of_le (orBad_big4 h₃).2
  apply tryResult_eq (orBadIn_eq (d₃.big4In_eq hM hd₃))
  rintro ⟨time, d₄⟩ h₄
  have hd₄ := hd₃.of_le (orBad_big4 h₄).2
  apply tryResult_eq (orBadIn_eq (d₄.big4In_eq hM hd₄))
  rintro ⟨zone, d₅⟩ h₅
  have hd₅ := hd₄.of_le (orBad_big4 h₅).2
  apply tryResult_eq (orBadIn_eq (d₅.big4In_eq hM hd₅))
  intro _ _
  rfl

theorem readCounts_bounded {d d' : DataIo} {n : Counts} (h : readCounts d = .ok (n, d')) :
    n.Bounded ∧ d'.p.length ≤ d.p.length := by
  simp only [readCounts, bind_eq_ok_iff] at h
  obtain ⟨⟨utcLocal, d₁⟩, h₁, ⟨stdWall, d₂⟩, h₂, ⟨leap, d₃⟩, h₃, ⟨time, d₄⟩, h₄, ⟨zone, d₅⟩, h₅,
    ⟨char, d₆⟩, h₆, h⟩ := h
  obtain ⟨rfl, rfl⟩ := Prod.mk.inj (Except.ok.inj h)
  have hle₁ := orBad_big4 h₁
  have hle₂ := orBad_big4 h₂
  have hle₃ := orBad_big4 h₃
  have hle₄ := orBad_big4 h₄
  have hle₅ := orBad_big4 h₅
  have hle₆ := orBad_big4 h₆
  refine ⟨⟨hle₁.1, hle₂.1, hle₃.1, hle₄.1, hle₅.1, hle₆.1⟩, ?_⟩
  calc d₆.p.length ≤ d₅.p.length := hle₆.2
    _ ≤ d₄.p.length := hle₅.2
    _ ≤ d₃.p.length := hle₄.2
    _ ≤ d₂.p.length := hle₃.2
    _ ≤ d₁.p.length := hle₂.2
    _ ≤ d.p.length := hle₁.2

/-! ## The tables -/

theorem parseZoneTypesIn_eq (hM : M.Lawful) (abbrevs : Bytes) (n : Nat) {d : DataIo}
    (hd : M.Addressable d.p) :
    parseZoneTypesIn M abbrevs n d = pure (parseZoneTypes abbrevs n d) := by
  induction n generalizing d with
  | zero => rfl
  | succ n ih =>
    unfold parseZoneTypesIn parseZoneTypes
    apply tryResult_eq (orBadIn_eq (d.big4In_eq hM hd))
    rintro ⟨off, d₁⟩ h₁
    have hd₁ := hd.of_le (orBad_big4 h₁).2
    apply tryResult_eq (orBadIn_eq (d₁.byteIn_eq hM hd₁))
    rintro ⟨dst, d₂⟩ h₂
    have hd₂ := hd₁.of_le (orBad_byte h₂)
    apply tryResult_eq (orBadIn_eq (d₂.byteIn_eq hM hd₂))
    rintro ⟨b, d₃⟩ h₃
    have hd₃ := hd₂.of_le (orBad_byte h₃)
    dsimp only
    split
    · rfl
    · apply tryResult_eq (ih hd₃)
      intro _ _
      rfl

theorem map_eq_bind {α β : Type} (r : Except String α) (f : α → β) :
    r.map f = r >>= fun a => .ok (f a) := by
  cases r <;> rfl

theorem readTransitionTimeIn_eq (hM : M.Lawful) (is64 : Bool) {d : DataIo}
    (hd : M.Addressable d.p) :
    readTransitionTimeIn M is64 d = pure (readTransitionTime is64 d) := by
  unfold readTransitionTimeIn readTransitionTime
  split
  · rw [map_eq_bind]
    apply tryResult_eq (orBadIn_eq (d.big8In_eq hM hd))
    intro _ _
    rfl
  · rw [map_eq_bind]
    apply tryResult_eq (orBadIn_eq (d.big4In_eq hM hd))
    intro _ _
    rfl

theorem readTransitionTime_le {is64 : Bool} {d d' : DataIo} {at_ : Int}
    (h : readTransitionTime is64 d = .ok (at_, d')) : d'.p.length ≤ d.p.length := by
  unfold readTransitionTime at h
  split at h
  · obtain ⟨⟨value, d₁⟩, hread, heq⟩ := map_ok h
    obtain ⟨-, rfl⟩ := Prod.mk.inj heq
    have hle := d.big8_le
    rw [orBad_ok hread] at hle
    exact hle
  · obtain ⟨⟨value, d₁⟩, hread, heq⟩ := map_ok h
    obtain ⟨-, rfl⟩ := Prod.mk.inj heq
    exact (orBad_big4 hread).2

theorem parseTransitionsIn_eq (hM : M.Lawful) (is64 : Bool) (zoneCount : Nat) {txzones : Bytes}
    (hz : M.Addressable txzones) (n i : Nat) {d : DataIo} (hd : M.Addressable d.p) :
    parseTransitionsIn M is64 zoneCount txzones n i d
      = pure (parseTransitions is64 zoneCount txzones n i d) := by
  induction n generalizing i d with
  | zero => rfl
  | succ n ih =>
    unfold parseTransitionsIn parseTransitions
    apply tryResult_eq (readTransitionTimeIn_eq hM is64 hd)
    rintro ⟨at_, d₁⟩ h₁
    have hd₁ := hd.of_le (readTransitionTime_le h₁)
    have hindex : (if M.usize.Holds i then txzones[i]? else none) = txzones[i]? := by
      by_cases hi : i < txzones.length
      · rw [if_pos (hz.holds hM (by omega))]
      · rw [List.getElem?_eq_none (not_lt.mp hi), ite_self]
    dsimp only
    rw [hindex]
    cases txzones[i]? with
    | none => rfl
    | some idx =>
      dsimp only
      split
      · rfl
      · apply tryResult_eq (ih (i + 1) hd₁)
        intro _ _
        rfl

/-- Every transition has its byte in the table of zone numbers. -/
theorem parseTransitions_length {is64 : Bool} {zoneCount n i : Nat} {txzones : Bytes}
    {d : DataIo} {tx : List ZoneTrans}
    (h : parseTransitions is64 zoneCount txzones n i d = .ok tx) :
    tx.length = n ∧ (n = 0 ∨ i + n ≤ txzones.length) := by
  induction n generalizing i d tx with
  | zero =>
    obtain rfl := Except.ok.inj h
    exact ⟨rfl, Or.inl rfl⟩
  | succ n ih =>
    simp only [parseTransitions, bind_eq_ok_iff] at h
    obtain ⟨⟨at_, d₁⟩, -, h⟩ := h
    split at h
    · cases h
    · rename_i idx hidx
      split at h
      · cases h
      · simp only [bind_eq_ok_iff] at h
        obtain ⟨rest, hrest, h⟩ := h
        obtain rfl := Except.ok.inj h
        obtain ⟨hlen, hend⟩ := ih hrest
        obtain ⟨hlt, -⟩ := List.getElem?_eq_some_iff.mp hidx
        rw [List.length_cons, hlen]
        omega

/-! ## The file -/

theorem skipIn_eq (hM : M.Lawful) {n : Counts} (hn : n.Bounded) :
    skipIn M n = pure ((n.time * 4 + n.time + n.zone * 6 + n.char + n.leap * 8 + n.stdWall
      + n.utcLocal + 4 + 16 : Nat) : Int) := by
  obtain ⟨hutc, hstd, hleap, htime, hzone, hchar⟩ := hn
  have hfit : ∀ k : Int, 0 ≤ k ∧ k ≤ 2 ^ 40 → M.fit .u64 k = pure k := by
    intro k hk
    apply hM.fit_of_holds
    simp only [IntType.holds_u64]
    omega
  unfold skipIn
  simp (disch := omega) only [hfit, pure_bind]
  push_cast
  rfl

theorem readDataCountsIn_eq (hM : M.Lawful) (version : Nat) {n : Counts} (hn : n.Bounded)
    {d : DataIo} (hd : M.Addressable d.p) :
    readDataCountsIn M version n d = pure (readDataCounts version n d) := by
  unfold readDataCountsIn readDataCounts
  split
  · rw [skipIn_eq hM hn, pure_bind, d.readIn_eq hM hd, pure_bind]
    exact readCountsIn_eq hM (hd.of_le (d.read_le _).2)
  · rfl

theorem readDataCounts_bounded {version : Nat} {n n' : Counts} {d d' : DataIo} (hn : n.Bounded)
    (h : readDataCounts version n d = .ok (n', d')) :
    n'.Bounded ∧ d'.p.length ≤ d.p.length := by
  unfold readDataCounts at h
  split at h
  · obtain ⟨hbounded, hle⟩ := readCounts_bounded h
    exact ⟨hbounded, hle.trans (d.read_le _).2⟩
  · obtain ⟨rfl, rfl⟩ := Prod.mk.inj (Except.ok.inj h)
    exact ⟨hn, le_refl _⟩

theorem parseZoneDataIn_eq (hM : M.Lawful) (name : String) (is64 : Bool) {n : Counts}
    (hn : n.Bounded) {d : DataIo} (hd : M.Addressable d.p) :
    parseZoneDataIn M name is64 n d = pure (parseZoneData name is64 n d) := by
  have hfit : ∀ count k : Nat, count < 4294967296 → k ≤ 12 →
      M.fit .u64 ((count : Int) * k) = pure ((count * k : Nat) : Int) := by
    intro count k hcount hk
    have hmul := Nat.mul_le_mul hcount.le hk
    rw [← Nat.cast_mul]
    apply hM.fit_of_holds
    simp only [IntType.holds_u64]
    omega
  obtain ⟨size, hsize, hsizeIn, hle⟩ : ∃ size : Nat, (if is64 then 8 else 4) = size
      ∧ (if is64 then 8 else 4 : Int) = size ∧ size ≤ 8 := by
    cases is64
    · exact ⟨4, rfl, rfl, by decide⟩
    · exact ⟨8, rfl, rfl, by decide⟩
  unfold parseZoneDataIn parseZoneData
  simp only [hsize, hsizeIn]
  obtain ⟨⟨txtimes, d₁⟩, h₁⟩ : ∃ r, d.read (n.time * size) = r := ⟨_, rfl⟩
  have hle₁ := DataIo.le_of_read h₁
  have hd₁ := hd.of_le hle₁.2
  rw [hfit n.time size hn.time (by omega), pure_bind, d.readIn_eq hM hd, pure_bind, h₁]
  dsimp only
  obtain ⟨⟨txzones, d₂⟩, h₂⟩ : ∃ r, d₁.read n.time = r := ⟨_, rfl⟩
  have hle₂ := DataIo.le_of_read h₂
  have hd₂ := hd₁.of_le hle₂.2
  rw [d₁.readIn_eq hM hd₁, pure_bind, h₂]
  dsimp only
  obtain ⟨⟨zonedata, d₃⟩, h₃⟩ : ∃ r, d₂.read (n.zone * 6) = r := ⟨_, rfl⟩
  have hle₃ := DataIo.le_of_read h₃
  have hd₃ := hd₂.of_le hle₃.2
  have hzones : M.fit .u64 ((n.zone : Int) * 6) = pure ((n.zone * 6 : Nat) : Int) :=
    hfit n.zone 6 hn.zone (by decide)
  rw [hzones, pure_bind, d₂.readIn_eq hM hd₂, pure_bind, h₃]
  dsimp only
  obtain ⟨⟨abbrevs, d₄⟩, h₄⟩ : ∃ r, d₃.read n.char = r := ⟨_, rfl⟩
  have hle₄ := DataIo.le_of_read h₄
  have hd₄ := hd₃.of_le hle₄.2
  have hleap : M.fit .u64 ((size : Int) + 4) = pure ((size + 4 : Nat) : Int) := by
    apply hM.fit_of_holds
    simp only [IntType.holds_u64]
    omega
  rw [d₃.readIn_eq hM hd₃, pure_bind, h₄]
  dsimp only
  obtain ⟨⟨leaps, d₅⟩, h₅⟩ : ∃ r, d₄.read (n.leap * (size + 4)) = r := ⟨_, rfl⟩
  have hd₅ := hd₄.of_le (DataIo.le_of_read h₅).2
  rw [hleap, pure_bind, hfit n.leap (size + 4) hn.leap (by omega), pure_bind, d₄.readIn_eq hM hd₄,
    pure_bind, h₅]
  dsimp only
  obtain ⟨⟨isstd, d₆⟩, h₆⟩ : ∃ r, d₅.read n.stdWall = r := ⟨_, rfl⟩
  have hd₆ := hd₅.of_le (DataIo.le_of_read h₆).2
  rw [d₅.readIn_eq hM hd₅, pure_bind, h₆]
  dsimp only
  rw [d₆.readIn_eq hM hd₆, pure_bind]
  obtain ⟨⟨isutc, d₇⟩, h₇⟩ : ∃ r, d₆.read n.utcLocal = r := ⟨_, rfl⟩
  rw [h₇]
  dsimp only
  split
  · rfl
  split
  · rfl
  apply tryResult_eq (parseZoneTypesIn_eq hM abbrevs n.zone (hd₂.of_le hle₃.1))
  intro zones _
  apply tryResult_eq (parseTransitionsIn_eq hM is64 zones.length (hd₁.of_le hle₂.1) n.time 0
    (hd.of_le hle₁.1))
  intro _ _
  rfl

/-- `parse_tzif` neither overflows nor reads past the data. -/
theorem parseTzifIn_eq (hM : M.Lawful) (name : String) {data : Bytes}
    (hdata : M.Addressable data) : parseTzifIn M name data = pure (parseTzif name data) := by
  unfold parseTzifIn parseTzif
  obtain ⟨⟨magic, d₁⟩, h₁⟩ : ∃ r, ({ p := data, error := false } : DataIo).read 4 = r :=
    ⟨_, rfl⟩
  have hd₁ : M.Addressable d₁.p := hdata.of_le (DataIo.le_of_read h₁).2
  rw [DataIo.readIn_of_eq hM hdata (n := 4) (k := 4) rfl, pure_bind, h₁]
  dsimp only
  split
  · rfl
  obtain ⟨⟨p, d₂⟩, h₂⟩ : ∃ r, d₁.read 16 = r := ⟨_, rfl⟩
  have hd₂ := hd₁.of_le (DataIo.le_of_read h₂).2
  rw [DataIo.readIn_of_eq hM hd₁ (n := 16) (k := 16) rfl, pure_bind, h₂]
  dsimp only
  cases tzifVersion p with
  | none => rfl
  | some version =>
    apply tryResult_eq (readCountsIn_eq hM hd₂)
    rintro ⟨n, d₃⟩ h₃
    obtain ⟨hn, hle₃⟩ := readCounts_bounded h₃
    have hd₃ := hd₂.of_le hle₃
    apply tryResult_eq (readDataCountsIn_eq hM version hn hd₃)
    rintro ⟨n', d₄⟩ h₄
    obtain ⟨hn', hle₄⟩ := readDataCounts_bounded hn h₄
    exact parseZoneDataIn_eq hM name _ hn' (hd₃.of_le hle₄)

/-- The tables of the zone fit in memory. -/
structure Zone.Addressable (M : Machine m) (z : Zone) : Prop where
  tx : (z.tx.length : Int) ≤ M.usize.max / 2
  extend : M.Addressable z.extend

theorem tzifExtend_le (rest : Bytes) : (tzifExtend rest).length ≤ rest.length := by
  unfold tzifExtend
  split
  · simp only [List.length_dropLast, List.length_drop]
    omega
  · exact Nat.zero_le _

/-- The tables of a zone are no longer than the data they are read from. -/
theorem parseZoneData_tables {name : String} {is64 : Bool} {n : Counts} {d : DataIo} {z : Zone}
    (h : parseZoneData name is64 n d = .ok z) :
    (z.tx.length ≤ 1 ∨ z.tx.length ≤ d.p.length) ∧ z.extend.length ≤ d.p.length := by
  unfold parseZoneData at h
  generalize (if is64 = true then 8 else 4) = size at h
  dsimp only at h
  split at h
  · cases h
  split at h
  · cases h
  simp only [bind_eq_ok_iff] at h
  obtain ⟨zones, -, tx, htx, h⟩ := h
  obtain rfl := Except.ok.inj h
  obtain ⟨hlen, hend⟩ := parseTransitions_length htx
  have hzones := ((d.read (n.time * size)).2.read_le n.time).1.trans (d.read_le _).2
  constructor
  · dsimp only
    split
    · exact Or.inl (le_refl 1)
    · omega
  · apply (tzifExtend_le _).trans
    iterate 6 apply (DataIo.read_le _ _).2.trans
    exact (d.read_le _).2

omit [LawfulMonad m] in
theorem parseTzif_addressable (hM : M.Lawful) {name : String} {data : Bytes} {z : Zone}
    (hdata : M.Addressable data) (h : parseTzif name data = .ok z) : z.Addressable M := by
  unfold parseTzif at h
  dsimp only at h
  split at h
  · cases h
  split at h
  · cases h
  simp only [bind_eq_ok_iff] at h
  obtain ⟨⟨n, d₁⟩, h₁, ⟨n', d₂⟩, h₂, h⟩ := h
  obtain ⟨htx, hextend⟩ := parseZoneData_tables h
  dsimp only at htx hextend
  obtain ⟨hn, hle₁⟩ := readCounts_bounded h₁
  have hle₂ := (readDataCounts_bounded hn h₂).2
  have hle : d₂.p.length ≤ data.length :=
    calc d₂.p.length ≤ d₁.p.length := hle₂
      _ ≤ _ := hle₁
      _ ≤ _ := (DataIo.read_le _ _).2
      _ ≤ data.length := (DataIo.read_le _ _).2
  have hmax : 1 ≤ M.usize.max / 2 := by
    obtain hu | hu := hM.usize <;> rw [hu] <;> decide
  have hd := hdata.of_le hle
  refine ⟨?_, hd.of_le hextend⟩
  unfold Machine.Addressable at hd
  omega

/-! ## Lookup -/

namespace Zone

/-- The search ends before its rounds do. -/
theorem searchTxIn_eq (hM : M.Lawful) {tx : List ZoneTrans}
    (htx : (tx.length : Int) ≤ M.usize.max / 2) (sec : Int) (fuel : Nat) {lo hi : Nat} (stop : Int)
    (hlohi : lo ≤ hi) (hhi : hi ≤ tx.length) (hfuel : hi - lo ≤ fuel + 1) :
    searchTxIn M tx sec fuel lo hi stop = pure (searchTx tx sec fuel lo hi stop) := by
  have hfit : ∀ k : Int, 0 ≤ k ∧ k ≤ tx.length → M.fit M.usize k = pure k := by
    intro k hk
    exact hM.fit_of_holds (hM.holds_usize hk.1 (by omega))
  induction fuel generalizing lo hi stop with
  | zero =>
    have hdone : decide ((hi : Int) - lo ≤ 1) = true := by
      rw [decide_eq_true_eq]
      omega
    unfold searchTxIn searchTx
    rw [hfit _ (by omega), pure_bind, hdone, hM.demand_true, pure_bind]
  | succ fuel ih =>
    unfold searchTxIn searchTx
    rw [hfit _ (by omega), pure_bind]
    by_cases hwide : hi - lo > 1
    · have hhalf : ((hi : Int) - lo).tdiv 2 = ((hi - lo) / 2 : Nat) := by
        rw [Int.tdiv_eq_ediv_of_nonneg (by omega)]
        omega
      have hmid : (lo : Int) + ((hi - lo) / 2 : Nat) = (lo + (hi - lo) / 2 : Nat) := by
        push_cast
        rfl
      have hquot : M.usize.Holds (((hi : Int) - lo).tdiv 2) := by
        rw [hhalf]
        exact hM.holds_usize (by omega) (by omega)
      rw [if_pos (by omega), if_pos hwide, hM.quot_eq (by decide) hquot, pure_bind, hhalf, hmid,
        hfit _ (by omega), pure_bind, Int.toNat_natCast]
      dsimp only
      cases tx[lo + (hi - lo) / 2]? with
      | none => rfl
      | some t =>
        dsimp only
        split
        · exact ih _ (by omega) (by omega) (by omega)
        · exact ih _ (by omega) hhi (by omega)
    · rw [if_neg (by omega), if_neg hwide]

theorem lookupRawIn_eq (hM : M.Lawful) {z : Zone} (hz : z.Addressable M) {t : Int}
    (ht : 0 ≤ t ∧ t ≤ 253402300799) : z.lookupRawIn M t = pure (z.lookupRaw t) := by
  unfold lookupRawIn lookupRaw
  split
  · rfl
  dsimp only
  split
  · rfl
  rw [searchTxIn_eq hM hz.tx t z.tx.length omegaTime (Nat.zero_le _) (le_refl _) (by omega),
    pure_bind]
  obtain ⟨⟨lo, stop⟩, hsearch⟩ : ∃ r, searchTx z.tx t z.tx.length 0 z.tx.length omegaTime = r :=
    ⟨_, rfl⟩
  rw [hsearch]
  dsimp only
  cases hentry : z.tx[lo]? with
  | none => rfl
  | some e =>
    dsimp only
    cases z.zones[e.index]? with
    | none => rfl
    | some zone =>
      obtain ⟨hlt, -⟩ := List.getElem?_eq_some_iff.mp hentry
      have htx := hz.tx
      have hnext : M.usize.Holds ((lo : Int) + 1) := hM.holds_usize (by omega) (by omega)
      have hlast : ((lo : Int) + 1 = z.tx.length ∧ z.extend ≠ [])
          ↔ (lo + 1 = z.tx.length ∧ z.extend ≠ []) := by
        rw [← Nat.cast_one, ← Nat.cast_add, Nat.cast_inj]
      dsimp only
      rw [hM.fit_bind hnext]
      simp only [hlast]
      split
      · rw [tzsetIn_eq hM hz.extend e.at_ ht, pure_bind]
      · rfl

/-- `lookup` neither overflows nor reads past a table nor divides by zero. -/
theorem lookupIn_eq (hM : M.Lawful) {z : Zone} (hz : z.Addressable M) {t : Int}
    (ht : 0 ≤ t ∧ t ≤ 253402300799) : z.lookupIn M t = pure (z.lookup t) := by
  unfold lookupIn
  rw [lookupRawIn_eq hM hz ht, pure_bind]
  rfl

end Zone

end Readings

/-! ## Every byte string -/

/-- On a machine where every overflow, every index outside its table and every
division by zero fails, the archive and the zone readers return on every byte
string, and so does every lookup in a zone they accept. -/
theorem zone_readers_return (usize : IntType) (husize : usize = .u32 ∨ usize = .u64)
    (name : String) (data : Bytes) (hdata : (Machine.checked usize).Addressable data) :
    (∃ index, zipIndexIn (.checked usize) data = some index)
      ∧ parseTzifIn (.checked usize) name data = some (parseTzif name data)
      ∧ ∀ z, parseTzif name data = .ok z → ∀ t, 0 ≤ t ∧ t ≤ 253402300799 →
        z.lookupIn (.checked usize) t = some (z.lookup t) := by
  have hM := Machine.lawful_checked husize
  refine ⟨?_, parseTzifIn_eq hM name hdata, fun z hz t ht => ?_⟩
  · obtain ⟨index, hindex, -⟩ := returns_zipIndex hM hdata
    exact ⟨index, hindex⟩
  · exact z.lookupIn_eq hM (parseTzif_addressable hM hdata hz) ht

/-- A zone with a footer, on 1 January 2024. -/
theorem zone_readers_return_southern :
    parseTzifIn (.checked .u64) "South" southernData = some (.ok southernZone)
      ∧ southernZone.lookupIn (.checked .u64) 1704067200
        = some (southernZone.lookup 1704067200) := by
  have hdata : (Machine.checked .u64).Addressable southernData := by
    unfold Machine.Addressable
    decide +kernel
  obtain ⟨-, hparse, hlookup⟩ :=
    zone_readers_return .u64 (Or.inr rfl) "South" southernData hdata
  rw [parseTzif_southernData] at hparse hlookup
  exact ⟨hparse, hlookup southernZone rfl 1704067200 (by decide)⟩

end RatifyProtocol.V2
