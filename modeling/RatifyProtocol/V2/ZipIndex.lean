import RatifyProtocol.Foundation.OrderedMap
import RatifyProtocol.Foundation.Traps
set_option autoImplicit false

/-!
# V2: the index of the zone archive

`zip_index` of `v2/tzdb.rs` with every step that may trap: the end record is
searched from the end of the archive, then headers are read from the offset it
gives until a signature does not match.  A field outside the archive is an error
of the archive, whatever the offsets and the lengths it states.
-/

namespace RatifyProtocol.V2

open Foundation

structure ZipEntry where
  isDir : Bool
  flags : Nat
  method : Nat
  crc32 : Nat
  compressedSize : Nat
  uncompressedSize : Nat
  headerOffset : Nat
  deriving DecidableEq, Repr

def directoryEndLen : Nat := 22
def directoryHeaderLen : Nat := 46
def directoryEndSig : Nat := 0x06054b50
def directoryHeaderSig : Nat := 0x02014b50

/-- `corrupt`. -/
def corrupt : String := "embedded tzdata archive is unreadable: zip: not a valid zip file"

/-- `b.get(i..j)`. -/
def getRange (b : Bytes) (i j : Nat) : Option Bytes :=
  if i ≤ j ∧ j ≤ b.length then some ((b.drop i).take (j - i)) else none

/-- `le16`; the end of the range is a checked sum. -/
def le16 (usize : IntType) (b : Bytes) (off : Nat) : Option Nat :=
  if usize.Holds (off + 2) then
    match getRange b off (off + 2) with
    | some [x, y] => some (x.toNat + y.toNat * 256)
    | _ => none
  else none

/-- `le32`. -/
def le32 (usize : IntType) (b : Bytes) (off : Nat) : Option Nat :=
  if usize.Holds (off + 4) then
    match getRange b off (off + 4) with
    | some [a, c, d, e] =>
      some (a.toNat + c.toNat * 256 + d.toNat * 65536 + e.toNat * 16777216)
    | _ => none
  else none

/-- What a header of the central directory says. -/
structure ZipHeader where
  creatorVersion : Nat
  flags : Nat
  method : Nat
  crc32 : Nat
  compressedSize : Nat
  uncompressedSize : Nat
  nameLen : Nat
  extraLen : Nat
  commentLen : Nat
  externalAttrs : Nat
  headerOffset : Nat
  deriving DecidableEq, Repr

namespace ZipHeader

/-- Sizes and offsets that stand for those of zip64. -/
def isZip64 (h : ZipHeader) : Bool :=
  h.compressedSize == 0xffffffff || h.uncompressedSize == 0xffffffff
    || h.headerOffset == 0xffffffff

/-- Go's `FileHeader.Mode().IsDir()`, before the name is looked at. -/
def attrDir (h : ZipHeader) : Bool :=
  match h.creatorVersion / 256 with
  | 3 | 19 => (h.externalAttrs / 65536) &&& 0xf000 == 0x4000
  | 0 | 11 | 14 => h.externalAttrs &&& 0x10 != 0
  | _ => false

/-- The entry under its name, the last one of a name winning.  A name that is not
UTF-8 is skipped. -/
def enter (h : ZipHeader) (name : Bytes) (index : OrderedMap String ZipEntry) :
    OrderedMap String ZipEntry :=
  match fromUtf8 name with
  | none => index
  | some name =>
    index.insert name
      { isDir := h.attrDir || name.toList.getLast? == some '/'
        flags := h.flags, method := h.method, crc32 := h.crc32
        compressedSize := h.compressedSize, uncompressedSize := h.uncompressedSize
        headerOffset := h.headerOffset }

end ZipHeader

section Functions

variable {m : Type → Type} [Monad m] (M : Machine m)

/-- The loop over the places of the end record, from the last one down to
`lowest`: the first signature decides. -/
def findEndIn (z : Bytes) (lowest : Nat) : Nat → m (Except String (Option Nat))
  | 0 => pure (.ok none)
  | n + 1 =>
    let i := lowest + n
    if le32 M.usize z i = some directoryEndSig then do
      let stop ← M.index (i + directoryEndLen)
      let off ← M.fit M.usize ((stop : Int) - 2)
      match le16 M.usize z off.toNat with
      | none => pure (.error corrupt)
      | some comment => do
        let stop ← M.index (comment + directoryEndLen)
        let stop ← M.index (stop + i)
        pure (if stop > z.length then .error corrupt else .ok (some i))
    else findEndIn z lowest n

/-- `field16`. -/
def field16In (z : Bytes) (pos o : Nat) : m (Except String Nat) := do
  let off ← M.index (pos + o)
  pure ((le16 M.usize z off).elim (.error corrupt) .ok)

/-- `field32`. -/
def field32In (z : Bytes) (pos o : Nat) : m (Except String Nat) := do
  let off ← M.index (pos + o)
  pure ((le32 M.usize z off).elim (.error corrupt) .ok)

/-- The fields of a header. -/
def readHeaderIn (z : Bytes) (pos : Nat) : m (Except String ZipHeader) :=
  tryResult (field16In M z pos 4) fun creatorVersion =>
    tryResult (field16In M z pos 8) fun flags =>
      tryResult (field16In M z pos 10) fun method =>
        tryResult (field32In M z pos 16) fun crc32 =>
          tryResult (field32In M z pos 20) fun compressedSize =>
            tryResult (field32In M z pos 24) fun uncompressedSize =>
              tryResult (field16In M z pos 28) fun nameLen =>
                tryResult (field16In M z pos 30) fun extraLen =>
                  tryResult (field16In M z pos 32) fun commentLen =>
                    tryResult (field32In M z pos 38) fun externalAttrs =>
                      tryResult (field32In M z pos 42) fun headerOffset =>
                        pure (.ok
                          { creatorVersion, flags, method, crc32, compressedSize
                            uncompressedSize, nameLen, extraLen, commentLen
                            externalAttrs, headerOffset })

/-- The loop over the headers: it must be over when its rounds are. -/
def readHeadersIn (z : Bytes) : Nat → Nat → Nat → OrderedMap String ZipEntry →
    m (Except String (Nat × OrderedMap String ZipEntry))
  | 0, pos, count, index => do
    M.demand (decide (le32 M.usize z pos ≠ some directoryHeaderSig))
    pure (.ok (count, index))
  | fuel + 1, pos, count, index =>
    if le32 M.usize z pos = some directoryHeaderSig then
      tryResult (readHeaderIn M z pos) fun h => do
        let nameStart ← M.index (pos + directoryHeaderLen)
        let nameEnd ← M.index (nameStart + h.nameLen)
        match getRange z nameStart nameEnd with
        | none => pure (.error corrupt)
        | some name =>
          if h.isZip64 then pure (.error corrupt)
          else do
            let pos ← M.index (nameStart + h.nameLen)
            let pos ← M.index (pos + h.extraLen)
            let pos ← M.index (pos + h.commentLen)
            let count ← M.index (count + 1)
            readHeadersIn z fuel pos count (h.enter name index)
    else pure (.ok (count, index))

/-- `zip_index` from the end record on. -/
def readDirectoryIn (z : Bytes) (eocd : Nat) : m (Except String (OrderedMap String ZipEntry)) :=
  tryResult (field16In M z eocd 10) fun records =>
    tryResult (field32In M z eocd 12) fun dirSize =>
      tryResult (field32In M z eocd 16) fun dirOffset =>
        if records = 0xffff ∨ dirSize = 0xffffffff ∨ dirOffset = 0xffffffff then
          pure (.error corrupt)
        else if ¬M.usize.Holds dirOffset then pure (.error corrupt)
        else
          tryResult (readHeadersIn M z z.length dirOffset 0 .empty) fun (count, index) =>
            pure (if count % 65536 ≠ records then .error corrupt else .ok index)

/-- `zip_index`. -/
def zipIndexIn (z : Bytes) : m (Except String (OrderedMap String ZipEntry)) :=
  let lowest := z.length - (directoryEndLen + 65535)
  if z.length < directoryEndLen then pure (.error corrupt)
  else
    let top := z.length - directoryEndLen
    tryResult (findEndIn M z lowest (top + 1 - lowest)) fun eocd =>
      match eocd with
      | none => pure (.error corrupt)
      | some eocd => readDirectoryIn M z eocd

end Functions

/-! ## Fields inside the archive -/

theorem length_of_getRange {b part : Bytes} {i j : Nat} (h : getRange b i j = some part) :
    i ≤ j ∧ j ≤ b.length := by
  unfold getRange at h
  split at h
  · assumption
  · cases h

theorem le16_lt {usize : IntType} {b : Bytes} {off n : Nat} (h : le16 usize b off = some n) :
    n < 65536 := by
  unfold le16 at h
  split at h
  · split at h
    · rename_i x y _
      have hx := x.toNat_lt
      have hy := y.toNat_lt
      have heq := Option.some.inj h
      omega
    · cases h
  · cases h

/-- A field that is read lies in the archive. -/
theorem length_of_le32 {usize : IntType} {b : Bytes} {off n : Nat}
    (h : le32 usize b off = some n) : off + 4 ≤ b.length := by
  unfold le32 at h
  split at h
  · split at h
    · rename_i hrange
      exact (length_of_getRange hrange).2
    · cases h
  · cases h

section Readings

variable {m : Type → Type} [Monad m] [LawfulMonad m] {M : Machine m} {z : Bytes}

/-- An index somewhat beyond the archive is computed. -/
theorem returns_index {β : Type} (hM : M.Lawful) (hz : M.Addressable z) {n : Nat}
    {k : Nat → m β} {q : β → Prop} (h : n ≤ z.length + 2147483647) (hk : Returns (k n) q) :
    Returns (M.index n >>= k) q := by
  rw [hz.index_eq hM h, pure_bind]
  exact hk

theorem returns_field16 (hM : M.Lawful) (hz : M.Addressable z) {pos : Nat}
    (hpos : pos ≤ z.length) {o : Nat} (ho : o ≤ 100) :
    Returns (field16In M z pos o) fun r => ∀ v, r = .ok v → v < 65536 := by
  apply returns_index hM hz (by omega)
  apply Returns.pure
  intro v hv
  cases hread : le16 M.usize z (pos + o) with
  | none =>
    rw [hread] at hv
    cases hv
  | some n =>
    rw [hread] at hv
    obtain rfl := Except.ok.inj hv
    exact le16_lt hread

theorem returns_field32 (hM : M.Lawful) (hz : M.Addressable z) {pos : Nat}
    (hpos : pos ≤ z.length) {o : Nat} (ho : o ≤ 100) :
    Returns (field32In M z pos o) fun r => ∀ v, r = .ok v → True :=
  returns_index hM hz (by omega) (Returns.pure fun _ _ => trivial)

/-! ## The end record -/

theorem returns_findEnd (hM : M.Lawful) (hz : M.Addressable z) {lowest : Nat} (n : Nat)
    (hn : lowest + n ≤ z.length) :
    Returns (findEndIn M z lowest n) fun r => ∀ o, r = .ok o → ∀ i, o = some i →
      i ≤ z.length := by
  induction n with
  | zero =>
    apply Returns.pure
    rintro o ho i rfl
    cases ho
  | succ n ih =>
    unfold findEndIn
    dsimp only
    split
    · apply returns_index hM hz (by unfold directoryEndLen; omega)
      have hfit : M.usize.Holds (((lowest + n + directoryEndLen : Nat) : Int) - 2) := by
        have heq : ((lowest + n + directoryEndLen : Nat) : Int) - 2
            = ((lowest + n + 20 : Nat) : Int) := by
          unfold directoryEndLen
          omega
        rw [heq]
        exact hz.holds hM (by omega)
      apply Returns.fit hM.toLawful hfit
      split
      · apply Returns.pure
        intro o ho
        cases ho
      · rename_i comment hcomment
        have hlt := le16_lt hcomment
        apply returns_index hM hz (by unfold directoryEndLen; omega)
        apply returns_index hM hz (by unfold directoryEndLen; omega)
        apply Returns.pure
        intro o ho i hi
        split at ho
        · cases ho
        · obtain rfl := Except.ok.inj ho
          obtain rfl := Option.some.inj hi
          omega
    · exact ih (by omega)

/-! ## The headers -/

/-- The lengths in a header are 16-bit numbers. -/
def ZipHeader.Bounded (h : ZipHeader) : Prop :=
  h.nameLen < 65536 ∧ h.extraLen < 65536 ∧ h.commentLen < 65536

theorem returns_readHeader (hM : M.Lawful) (hz : M.Addressable z) {pos : Nat}
    (hpos : pos ≤ z.length) :
    Returns (readHeaderIn M z pos) fun r => ∀ h, r = .ok h → h.Bounded := by
  have herr : ∀ e : String, ∀ h : ZipHeader, Except.error e = .ok h → h.Bounded := by
    intro e h hne
    cases hne
  unfold readHeaderIn
  apply Returns.tryResult (returns_field16 hM hz hpos (by decide)) herr
  intro creatorVersion _
  apply Returns.tryResult (returns_field16 hM hz hpos (by decide)) herr
  intro flags _
  apply Returns.tryResult (returns_field16 hM hz hpos (by decide)) herr
  intro method _
  apply Returns.tryResult (returns_field32 hM hz hpos (by decide)) herr
  intro crc32 _
  apply Returns.tryResult (returns_field32 hM hz hpos (by decide)) herr
  intro compressedSize _
  apply Returns.tryResult (returns_field32 hM hz hpos (by decide)) herr
  intro uncompressedSize _
  apply Returns.tryResult (returns_field16 hM hz hpos (by decide)) herr
  intro nameLen hname
  apply Returns.tryResult (returns_field16 hM hz hpos (by decide)) herr
  intro extraLen hextra
  apply Returns.tryResult (returns_field16 hM hz hpos (by decide)) herr
  intro commentLen hcomment
  apply Returns.tryResult (returns_field32 hM hz hpos (by decide)) herr
  intro externalAttrs _
  apply Returns.tryResult (returns_field32 hM hz hpos (by decide)) herr
  intro headerOffset _
  apply Returns.pure
  intro h hh
  obtain rfl := Except.ok.inj hh
  exact ⟨hname, hextra, hcomment⟩

/-- Every header takes the position further, so that the headers end before the
rounds do, and their number stays below the position. -/
theorem returns_readHeaders (hM : M.Lawful) (hz : M.Addressable z) (fuel : Nat)
    {pos count : Nat} (index : OrderedMap String ZipEntry) (hfuel : z.length ≤ pos + fuel)
    (hcount : count ≤ pos) :
    Returns (readHeadersIn M z fuel pos count index) fun _ => True := by
  induction fuel generalizing pos count index with
  | zero =>
    have hnone : le32 M.usize z pos ≠ some directoryHeaderSig := by
      intro hsome
      have hlen := length_of_le32 hsome
      omega
    unfold readHeadersIn
    rw [decide_eq_true hnone, hM.demand_true, pure_bind]
    exact Returns.pure trivial
  | succ fuel ih =>
    unfold readHeadersIn
    split
    · rename_i hsig
      have hlen := length_of_le32 hsig
      apply Returns.tryResult (returns_readHeader hM hz (by omega)) (fun _ => trivial)
      rintro h ⟨hname, hextra, hcomment⟩
      apply returns_index hM hz (by unfold directoryHeaderLen; omega)
      apply returns_index hM hz (by unfold directoryHeaderLen; omega)
      split
      · exact Returns.pure trivial
      · rename_i name hrange
        have hend := (length_of_getRange hrange).2
        split
        · exact Returns.pure trivial
        · apply returns_index hM hz (by omega)
          apply returns_index hM hz (by omega)
          apply returns_index hM hz (by omega)
          apply returns_index hM hz (by omega)
          apply ih
          · unfold directoryHeaderLen
            omega
          · unfold directoryHeaderLen
            omega
    · exact Returns.pure trivial

/-! ## The index -/

theorem returns_readDirectory (hM : M.Lawful) (hz : M.Addressable z) {eocd : Nat}
    (heocd : eocd ≤ z.length) : Returns (readDirectoryIn M z eocd) fun _ => True := by
  unfold readDirectoryIn
  apply Returns.tryResult (returns_field16 hM hz heocd (by decide)) (fun _ => trivial)
  intro records _
  apply Returns.tryResult (returns_field32 hM hz heocd (by decide)) (fun _ => trivial)
  intro dirSize _
  apply Returns.tryResult (returns_field32 hM hz heocd (by decide)) (fun _ => trivial)
  intro dirOffset _
  split
  · exact Returns.pure trivial
  split
  · exact Returns.pure trivial
  apply Returns.tryResult (p := fun _ => True) ?_ (fun _ => trivial)
  · intro _ _
    exact Returns.pure trivial
  · apply (returns_readHeaders hM hz z.length .empty (by omega) (Nat.zero_le _)).mono
    intro _ _ _ _
    trivial

/-- Every archive is indexed or refused. -/
theorem returns_zipIndex (hM : M.Lawful) (hz : M.Addressable z) :
    Returns (zipIndexIn M z) fun _ => True := by
  unfold zipIndexIn
  dsimp only
  split
  · exact Returns.pure trivial
  rename_i hlen
  have hplaces : z.length - (directoryEndLen + 65535)
      + (z.length - directoryEndLen + 1 - (z.length - (directoryEndLen + 65535))) ≤ z.length := by
    unfold directoryEndLen at hlen ⊢
    omega
  apply Returns.tryResult (returns_findEnd hM hz _ hplaces) (fun _ => trivial)
  intro eocd heocd
  cases eocd with
  | none => exact Returns.pure trivial
  | some i => exact returns_readDirectory hM hz (heocd i rfl)

end Readings

end RatifyProtocol.V2
