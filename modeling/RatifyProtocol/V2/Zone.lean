import RatifyProtocol.V2.Footer
set_option autoImplicit false

/-!
# V2: time zones

Zones of `v2/tzdb.rs`: the TZif reader and the lookup of an instant.  The
embedded archive is a parameter elsewhere; here a zone is what `parse_tzif`
makes of the bytes of one entry.
-/

namespace RatifyProtocol.V2

open Foundation

structure ZoneType where
  name : Bytes
  offset : Int
  isDst : Bool
  deriving DecidableEq, Repr

/-- `ZoneTrans`: from `at_` on, the zone type `index`. -/
structure ZoneTrans where
  at_ : Int
  index : Nat
  deriving DecidableEq, Repr

structure Zone where
  name : String
  zones : List ZoneType
  tx : List ZoneTrans
  extend : Bytes
  deriving DecidableEq, Repr

/-- What a lookup reports; the bounds are absent where they are unbounded. -/
structure ZoneInfo where
  offsetSeconds : Int
  isDst : Bool
  name : Bytes
  start : Option Int
  stop : Option Int
  deriving DecidableEq, Repr

/-! ## Lookup -/

namespace RawLookup

def fromZone (z : ZoneType) (start stop : Int) : RawLookup :=
  { name := z.name, offset := z.offset, start, stop, isDst := z.isDst }

def utc : RawLookup :=
  { name := utf8 "UTC", offset := 0, start := alpha, stop := omegaTime, isDst := false }

end RawLookup

namespace Zone

/-- The closest zone type before `idx` that is not daylight saving. -/
def standardBefore (zones : List ZoneType) : Nat → Option Nat
  | 0 => none
  | zi + 1 =>
    if (zones[zi]?).any fun z => !z.isDst then some zi else standardBefore zones zi

/-- `lookup_first_zone`. -/
def lookupFirstZone (z : Zone) : Nat :=
  -- Case 1: the first zone is unused by the transitions.
  if !(z.tx.any fun t => t.index == 0) then 0
  else
    -- Case 2: first transition is to DST; closest earlier non-DST zone.
    let earlier := z.tx.head?.bind fun t =>
      if (z.zones[t.index]?).any (·.isDst) then standardBefore z.zones t.index else none
    match earlier with
    | some zi => zi
    -- Case 3: first non-DST zone; case 4: there is none.
    | none => (z.zones.findIdx? fun zone => !zone.isDst).getD 0

/-- The binary search of `lookup_raw`: the position found, and the time of the
entry after it.  Every round narrows `hi - lo`, so `tx.len()` rounds are enough. -/
def searchTx (tx : List ZoneTrans) (sec : Int) : Nat → Nat → Nat → Int → Nat × Int
  | 0, lo, _, stop => (lo, stop)
  | fuel + 1, lo, hi, stop =>
    if hi - lo > 1 then
      let m := lo + (hi - lo) / 2
      match tx[m]? with
      | some t =>
        if sec < t.at_ then searchTx tx sec fuel lo m t.at_ else searchTx tx sec fuel m hi stop
      | none => (lo, stop)
    else (lo, stop)

/-- `lookup_raw`. -/
def lookupRaw (z : Zone) (sec : Int) : RawLookup :=
  if z.zones = [] then .utc
  else
    let firstWhen := z.tx.head?.map (·.at_)
    if firstWhen.all fun w => decide (sec < w) then
      match z.zones[z.lookupFirstZone]? with
      | none => .utc
      | some zone => .fromZone zone alpha (firstWhen.getD omegaTime)
    else
      let (lo, stop) := searchTx z.tx sec z.tx.length 0 z.tx.length omegaTime
      match z.tx[lo]? with
      | none => .utc
      | some t =>
        match z.zones[t.index]? with
        | none => .utc
        | some zone =>
          let result := RawLookup.fromZone zone t.at_ stop
          -- At the end of the known transitions, try the extend string.
          if lo + 1 = z.tx.length ∧ z.extend ≠ [] then (tzset z.extend t.at_ sec).getD result
          else result

/-- `lookup`. -/
def lookup (z : Zone) (unixSeconds : Int) : ZoneInfo :=
  let r := z.lookupRaw unixSeconds
  { offsetSeconds := r.offset, isDst := r.isDst, name := r.name
    start := if r.start ≠ alpha then some r.start else none
    stop := if r.stop ≠ omegaTime then some r.stop else none }

end Zone

/-! ## Reading TZif -/

/-- `DataIo`: the bytes left, and whether a read ran past them. -/
structure DataIo where
  p : Bytes
  error : Bool
  deriving DecidableEq, Repr

namespace DataIo

def read (d : DataIo) (n : Nat) : Bytes × DataIo :=
  if n ≤ d.p.length then (d.p.take n, { d with p := d.p.drop n })
  else ([], { p := [], error := true })

/-- `big4`. -/
def big4 (d : DataIo) : Option Nat × DataIo :=
  let (bytes, d) := d.read 4
  match bytes with
  | [a, b, c, e] =>
    (some (a.toNat * 16777216 + b.toNat * 65536 + c.toNat * 256 + e.toNat), d)
  | _ => (none, { d with error := true })

/-- `big8`. -/
def big8 (d : DataIo) : Option Nat × DataIo :=
  let (hi, d) := d.big4
  let (lo, d) := d.big4
  match hi, lo with
  | some hi, some lo => (some (hi * 4294967296 + lo), d)
  | _, _ => (none, { d with error := true })

/-- `byte`. -/
def byte (d : DataIo) : Option UInt8 × DataIo :=
  let (bytes, d) := d.read 1
  match bytes with
  | [b] => (some b, d)
  | _ => (none, { d with error := true })

end DataIo

/-- `bad_data`. -/
def badData : String := "malformed time zone information"

/-- `value as i32`. -/
def asI32 (value : Nat) : Int := if value < 2147483648 then value else value - 4294967296

/-- `value as i64`. -/
def asI64Bits (value : Nat) : Int := IntType.i64.wrap value

/-- The six counts of a header, in file order. -/
structure Counts where
  utcLocal : Nat
  stdWall : Nat
  leap : Nat
  time : Nat
  zone : Nat
  char : Nat
  deriving DecidableEq, Repr

/-- `ok_or_else(bad_data)?` on a read. -/
def orBad {α : Type} (r : Option α × DataIo) : Except String (α × DataIo) :=
  match r.1 with
  | some value => .ok (value, r.2)
  | none => .error badData

def readCounts (d : DataIo) : Except String (Counts × DataIo) := do
  let (utcLocal, d) ← orBad d.big4
  let (stdWall, d) ← orBad d.big4
  let (leap, d) ← orBad d.big4
  let (time, d) ← orBad d.big4
  let (zone, d) ← orBad d.big4
  let (char, d) ← orBad d.big4
  .ok ({ utcLocal, stdWall, leap, time, zone, char }, d)

/-- The loop over the zone types. -/
def parseZoneTypes (abbrevs : Bytes) : Nat → DataIo → Except String (List ZoneType)
  | 0, _ => .ok []
  | n + 1, d => do
    let (off, d) ← orBad d.big4
    let (dst, d) ← orBad d.byte
    let (b, d) ← orBad d.byte
    let tail := abbrevs.drop b.toNat
    if tail = [] then .error badData
    else
      let zone : ZoneType :=
        { name := tail.takeWhile (· != 0), offset := asI32 off, isDst := dst != 0 }
      let rest ← parseZoneTypes abbrevs n d
      .ok (zone :: rest)

/-- The time of a transition. -/
def readTransitionTime (is64 : Bool) (d : DataIo) : Except String (Int × DataIo) :=
  if is64 then (orBad d.big8).map fun r => (asI64Bits r.1, r.2)
  else (orBad d.big4).map fun r => (asI32 r.1, r.2)

/-- The loop over the transitions. -/
def parseTransitions (is64 : Bool) (zoneCount : Nat) (txzones : Bytes) :
    Nat → Nat → DataIo → Except String (List ZoneTrans)
  | 0, _, _ => .ok []
  | n + 1, i, d => do
    let (at_, d) ← readTransitionTime is64 d
    match txzones[i]? with
    | none => .error badData
    | some idx =>
      if idx.toNat ≥ zoneCount then .error badData
      else
        let rest ← parseTransitions is64 zoneCount txzones n (i + 1) d
        .ok ({ at_, index := idx.toNat } :: rest)

/-- The version byte of a header. -/
def tzifVersion (p : Bytes) : Option Nat :=
  if p.length ≠ 16 then none
  else if p.head? = some 0 then some 1
  else if p.head? = some (ascii '2') then some 2
  else if p.head? = some (ascii '3') then some 3
  else none

/-- The footer between two newlines. -/
def tzifExtend (rest : Bytes) : Bytes :=
  if rest.length > 2 ∧ rest.head? = some (ascii '\n') ∧ rest.getLast? = some (ascii '\n') then
    (rest.drop 1).dropLast
  else []

/-- The counts that apply: from version 2 on, those of the second header, after
the 32-bit data. -/
def readDataCounts (version : Nat) (n : Counts) (d : DataIo) : Except String (Counts × DataIo) :=
  if version > 1 then
    let skip := n.time * 4 + n.time + n.zone * 6 + n.char + n.leap * 8 + n.stdWall + n.utcLocal
      + 4 + 16
    readCounts (d.read skip).2
  else .ok (n, d)

/-- The part of `parse_tzif` after the headers. -/
def parseZoneData (name : String) (is64 : Bool) (n : Counts) (d : DataIo) : Except String Zone :=
  let size := if is64 then 8 else 4
  let (txtimes, d) := d.read (n.time * size)
  let (txzones, d) := d.read n.time
  let (zonedata, d) := d.read (n.zone * 6)
  let (abbrevs, d) := d.read n.char
  let (_, d) := d.read (n.leap * (size + 4))
  let (_, d) := d.read n.stdWall
  let (_, d) := d.read n.utcLocal
  if d.error then .error badData
  else if n.zone = 0 then .error badData
  else do
    let zones ← parseZoneTypes abbrevs n.zone { p := zonedata, error := false }
    let tx ← parseTransitions is64 zones.length txzones n.time 0 { p := txtimes, error := false }
    -- Fake transition to cover all time.
    let tx := if tx = [] then [{ at_ := alpha, index := 0 }] else tx
    .ok { name, zones, tx, extend := tzifExtend d.p }

/-- `parse_tzif`. -/
def parseTzif (name : String) (data : Bytes) : Except String Zone :=
  let (magic, d) := ({ p := data, error := false } : DataIo).read 4
  if magic ≠ utf8 "TZif" then .error badData
  else
    let (p, d) := d.read 16
    match tzifVersion p with
    | none => .error badData
    | some version => do
      let (n, d) ← readCounts d
      let (n, d) ← readDataCounts version n d
      parseZoneData name (decide (version > 1)) n d

end RatifyProtocol.V2
