import RatifyProtocol.Foundation.Base64
import RatifyProtocol.V2.Crypto
import Mathlib.Data.List.Sort
set_option autoImplicit false

/-!
# V2: strict wire JSON

`v2/json.rs` and the string writer of `canonical.rs`.  The parser enforces the
strict value model in one pass (no duplicate keys, integer tokens inside the
safe-integer range, no negative zero, bounded nesting, no trailing data); the
writer emits the canonical form, with object keys in UTF-8 byte order.

The source scans bytes it has already validated as UTF-8 and every byte it
tests is ASCII, which never occurs inside a longer UTF-8 sequence; the scanner
here reads the decoded characters and counts the bytes of each.
-/

namespace RatifyProtocol.V2

open Foundation

/-! ## Parsed values -/

mutual

/-- A parsed value.  A number keeps its token text. -/
inductive JV where
  | null
  | bool (b : Bool)
  | num (text : String)
  | str (s : String)
  | arr (items : List JNode)
  | obj (fields : List (String × JNode))

/-- A parsed value with the byte span it was read from. -/
inductive JNode where
  | mk (v : JV) (start stop : Nat)

end

namespace JNode

def v : JNode → JV
  | .mk v _ _ => v

def start : JNode → Nat
  | .mk _ start _ => start

def stop : JNode → Nat
  | .mk _ _ stop => stop

def isNull (n : JNode) : Bool :=
  match n.v with
  | .null => true
  | _ => false

end JNode

/-! ## Scanner -/

/-- The unread text, with the byte offset of its first character. -/
structure Cursor where
  pos : Nat
  rest : List Char
  deriving DecidableEq, Repr

def isWs (c : Char) : Bool := c == ' ' || c == '\t' || c == '\n' || c == '\r'

/-- Skip insignificant white space. -/
def ws (c : Cursor) : Cursor :=
  ⟨c.pos + (c.rest.takeWhile isWs).length, c.rest.dropWhile isWs⟩

/-- The signed value of a digit string, when it fits an `i64`. -/
def parseMagnitude (negative : Bool) (ds : List Char) : Option Int :=
  if ds = [] ∨ ds.all Char.isDigit = false then none
  else
    let magnitude : Int := Nat.ofDigitChars 10 ds 0
    let n := if negative then -magnitude else magnitude
    if -9223372036854775808 ≤ n ∧ n ≤ 9223372036854775807 then some n else none

/-- `str::parse::<i64>` on the characters of a token. -/
def parseI64 (text : List Char) : Option Int :=
  match text with
  | '-' :: ds => parseMagnitude true ds
  | '+' :: ds => parseMagnitude false ds
  | ds => parseMagnitude false ds

/-- The integer part of a number: `0`, or digits that do not start with `0`. -/
def wholePart (r : List Char) : V2Result (List Char × List Char) :=
  match r with
  | [] => plain "wire: invalid JSON number"
  | d :: tl =>
    if d = '0' then .ok (['0'], tl)
    else if '1' ≤ d ∧ d ≤ '9' then
      .ok (d :: tl.takeWhile Char.isDigit, tl.dropWhile Char.isDigit)
    else plain "wire: invalid JSON number"

/-- The fraction of a number, if there is one. -/
def fractionPart (r : List Char) : V2Result (List Char × List Char) :=
  match r with
  | [] => .ok ([], [])
  | p :: tl =>
    if p = '.' then
      if tl.takeWhile Char.isDigit = [] then plain "wire: invalid JSON number"
      else .ok ('.' :: tl.takeWhile Char.isDigit, tl.dropWhile Char.isDigit)
    else .ok ([], p :: tl)

/-- The exponent of a number, if there is one. -/
def exponentPart (r : List Char) : V2Result (List Char × List Char) :=
  match r with
  | [] => .ok ([], [])
  | e :: tl =>
    if e = 'e' ∨ e = 'E' then
      let (expSign, tl) := match tl with
        | '+' :: tl => (['+'], tl)
        | '-' :: tl => (['-'], tl)
        | tl => ([], tl)
      if tl.takeWhile Char.isDigit = [] then plain "wire: invalid JSON number"
      else .ok (e :: expSign ++ tl.takeWhile Char.isDigit, tl.dropWhile Char.isDigit)
    else .ok ([], e :: tl)

/-- One number token, which must be an integer of the safe range. -/
def number (c : Cursor) : V2Result (String × Cursor) := do
  let sign := if c.rest.head? = some '-' then ['-'] else []
  let (whole, r) ← wholePart (c.rest.drop sign.length)
  let (fraction, r) ← fractionPart r
  let (exponent, r) ← exponentPart r
  let text := sign ++ whole ++ fraction ++ exponent
  let shown := String.ofList text
  refuseIf (text.any fun ch => ch == '.' || ch == 'e' || ch == 'E')
    s!"wire: number {shown} is not an integer; v2 forbids floating point"
  refuseIf (text == ['-', '0']) "wire: negative zero is not a canonical number"
  refuseIf (match parseI64 text with
      | some n => !(-maxSafe ≤ n && n ≤ maxSafe)
      | none => true)
    s!"wire: integer {shown} outside the safe-integer range [-(2^53-1), 2^53-1]"
  .ok (shown, ⟨c.pos + text.length, r⟩)

/-- The value of one hexadecimal digit of either case. -/
def hexValue? (c : Char) : Option Nat :=
  if '0' ≤ c ∧ c ≤ '9' then some (c.toNat - 48)
  else if 'a' ≤ c ∧ c ≤ 'f' then some (c.toNat - 87)
  else if 'A' ≤ c ∧ c ≤ 'F' then some (c.toNat - 55)
  else none

/-- The four characters of a `\u` escape, read by `u32::from_str_radix`, which
also takes a leading `+`. -/
def hex4 (c : Cursor) : V2Result (Nat × Cursor) :=
  match c.rest with
  | a :: x :: y :: z :: tl =>
    let high := if a = '+' then some 0 else hexValue? a
    match high, hexValue? x, hexValue? y, hexValue? z with
    | some a, some x, some y, some z =>
      .ok (a * 4096 + x * 256 + y * 16 + z, ⟨c.pos + 4, tl⟩)
    | _, _, _, _ => plain "wire: invalid JSON escape"
  | _ => plain "wire: invalid JSON escape"

/-- `char::from_u32`. -/
def charFromU32 (code : Nat) : V2Result Char :=
  if code.isValidChar then .ok (Char.ofNat code) else plain "wire: invalid JSON escape"

/-- The scalar named by a `\u` escape, surrogate pairs included. -/
def unicodeEscape (c : Cursor) : V2Result (Char × Cursor) := do
  let (first, c) ← hex4 c
  if 0xD800 ≤ first ∧ first < 0xDC00 then
    match c.rest with
    | '\\' :: 'u' :: tl =>
      let (second, c) ← hex4 ⟨c.pos + 2, tl⟩
      if 0xDC00 ≤ second ∧ second < 0xE000 then
        let ch ← charFromU32 (0x10000 + (first - 0xD800) * 1024 + (second - 0xDC00))
        .ok (ch, c)
      else plain "wire: unpaired UTF-16 surrogate escape"
    | _ => plain "wire: unpaired UTF-16 surrogate escape"
  else if 0xDC00 ≤ first ∧ first < 0xE000 then
    plain "wire: unpaired UTF-16 surrogate escape"
  else do
    let ch ← charFromU32 first
    .ok (ch, c)

/-- One escape, the backslash already read. -/
def escape (c : Cursor) : V2Result (Char × Cursor) :=
  match c.rest with
  | [] => plain "wire: invalid JSON escape"
  | e :: tl =>
    let c' : Cursor := ⟨c.pos + e.utf8Size, tl⟩
    match e with
    | '"' => .ok ('"', c')
    | '\\' => .ok ('\\', c')
    | '/' => .ok ('/', c')
    | 'b' => .ok ('\x08', c')
    | 'f' => .ok ('\x0c', c')
    | 'n' => .ok ('\n', c')
    | 'r' => .ok ('\r', c')
    | 't' => .ok ('\t', c')
    | 'u' => unicodeEscape c'
    | _ => plain "wire: invalid JSON escape"

/-- The characters of a string up to its closing quote.  Every round reads at
least one character, so the unread length bounds the rounds. -/
def stringBody : Nat → List Char → Cursor → V2Result (String × Cursor)
  | 0, _, _ => plain "wire: invalid JSON: unterminated string"
  | fuel + 1, out, c =>
    match c.rest with
    | [] => plain "wire: invalid JSON: unterminated string"
    | ch :: tl =>
      if ch = '"' then .ok (String.ofList out, ⟨c.pos + 1, tl⟩)
      else if ch = '\\' then do
        let (e, c) ← escape ⟨c.pos + 1, tl⟩
        stringBody fuel (out ++ [e]) c
      else if ch.toNat < 0x20 then
        plain "wire: invalid JSON: control character in string"
      else stringBody fuel (out ++ [ch]) ⟨c.pos + ch.utf8Size, tl⟩

/-- A string; the caller guarantees the opening quote. -/
def string (c : Cursor) : V2Result (String × Cursor) :=
  stringBody c.rest.length [] ⟨c.pos + 1, c.rest.tail⟩

/-- An expected literal. -/
def literal (text : List Char) (v : JV) (c : Cursor) : V2Result (JV × Cursor) :=
  if text.isPrefixOf c.rest then .ok (v, ⟨c.pos + text.length, c.rest.drop text.length⟩)
  else plain "wire: invalid JSON literal"

/-! ## Parser -/

/-- The items of a non-empty array.  Every round reads at least one character. -/
def items (element : Cursor → V2Result (JNode × Cursor)) :
    Nat → List JNode → Cursor → V2Result (List JNode × Cursor)
  | 0, _, _ => plain "wire: invalid JSON: unexpected end of input"
  | fuel + 1, acc, c => do
    let (item, c) ← element c
    let acc := acc ++ [item]
    let c := ws c
    match c.rest with
    | ',' :: tl => items element fuel acc ⟨c.pos + 1, tl⟩
    | ']' :: tl => .ok (acc, ⟨c.pos + 1, tl⟩)
    | _ => plain "wire: invalid JSON: expected ',' or ']'"

/-- One member: a key not seen before, a colon and a value. -/
def member (element : Cursor → V2Result (JNode × Cursor)) (fields : List (String × JNode))
    (c : Cursor) : V2Result ((String × JNode) × Cursor) := do
  let c := ws c
  refuseIf (c.rest.head? != some '"') "wire: invalid JSON: expected object key"
  let (key, c) ← string c
  refuseIf (fields.any fun f => f.1 == key) s!"wire: duplicate key {debugQuote key} in JSON object"
  let c := ws c
  refuseIf (c.rest.head? != some ':') "wire: invalid JSON: expected ':'"
  let (value, c) ← element ⟨c.pos + 1, c.rest.tail⟩
  .ok ((key, value), c)

/-- The members of a non-empty object.  Every round reads at least one character. -/
def members (element : Cursor → V2Result (JNode × Cursor)) :
    Nat → List (String × JNode) → Cursor → V2Result (List (String × JNode) × Cursor)
  | 0, _, _ => plain "wire: invalid JSON: unexpected end of input"
  | fuel + 1, fields, c => do
    let (field, c) ← member element fields c
    let fields := fields ++ [field]
    let c := ws c
    match c.rest with
    | ',' :: tl => members element fuel fields ⟨c.pos + 1, tl⟩
    | '}' :: tl => .ok (fields, ⟨c.pos + 1, tl⟩)
    | _ => plain "wire: invalid JSON: expected ',' or '\x7d'"

/-- The body of an array or object, the opening bracket already read. -/
def container {α : Type} (close : Char) (empty : α) (c : Cursor)
    (body : Nat → Cursor → V2Result (α × Cursor)) : V2Result (α × Cursor) :=
  let c := ws c
  match c.rest with
  | ch :: tl =>
    if ch = close then .ok (empty, ⟨c.pos + 1, tl⟩) else body (c.rest.length + 1) c
  | [] => body (c.rest.length + 1) c

/-- One value, given the parser for the elements of a container, which is
absent at the nesting limit. -/
def valueBody (element? : Option (Cursor → V2Result (JNode × Cursor))) (c : Cursor) :
    V2Result (JNode × Cursor) := do
  let c := ws c
  let (v, c') ← match c.rest with
    | [] => plain "wire: invalid JSON: unexpected end of input"
    | ch :: tl =>
      let inside : Cursor := ⟨c.pos + 1, tl⟩
      if ch = '\x7b' then
        match element? with
        | none => plain "wire: JSON nesting exceeds MAX_JSON_NESTING_DEPTH"
        | some element => do
          let (fields, c') ← container '\x7d' [] inside fun fuel c => members element fuel [] c
          .ok (JV.obj fields, c')
      else if ch = '[' then
        match element? with
        | none => plain "wire: JSON nesting exceeds MAX_JSON_NESTING_DEPTH"
        | some element => do
          let (xs, c') ← container ']' [] inside fun fuel c => items element fuel [] c
          .ok (JV.arr xs, c')
      else if ch = '"' then do
        let (s, c') ← string c
        .ok (JV.str s, c')
      else if ch = 't' then literal ['t', 'r', 'u', 'e'] (.bool true) c
      else if ch = 'f' then literal ['f', 'a', 'l', 's', 'e'] (.bool false) c
      else if ch = 'n' then literal ['n', 'u', 'l', 'l'] .null c
      else if ch = '-' || ch.isDigit then do
        let (text, c') ← number c
        .ok (JV.num text, c')
      else plain "wire: invalid JSON: unexpected character"
  .ok (.mk v c.pos c'.pos, c')

/-- One value with at most `levels` further levels of containers. -/
def value : Nat → Cursor → V2Result (JNode × Cursor)
  | 0 => valueBody none
  | levels + 1 => valueBody (some (value levels))

/-- Parse strict JSON without byte-field checks. -/
def parseJson (data : Bytes) : V2Result JNode :=
  match fromUtf8 data with
  | none => plain "wire: invalid UTF-8"
  | some text => do
    let (root, c) ← value maxJsonNestingDepth ⟨0, text.toList⟩
    refuseIf ((ws c).rest != []) "wire: trailing data after JSON document"
    .ok root

/-! ## Schema-wide checks -/

/-- Decode canonical standard base64. -/
def b64Decode (s : String) : V2Result Bytes :=
  match Base64.decodeChars s.toList with
  | some decoded =>
    if Base64.encodeChars decoded = s.toList then .ok decoded
    else plain "wire: malformed or non-canonical base64"
  | none => plain "wire: malformed or non-canonical base64"

/-- `check_canonical_base64`: the same test under the member's name. -/
def checkCanonicalBase64 (key s : String) : V2Result Unit :=
  match Base64.decodeChars s.toList with
  | some decoded =>
    refuseIf (Base64.encodeChars decoded != s.toList)
      s!"wire: field {debugQuote key}: malformed or non-canonical base64"
  | none => plain s!"wire: field {debugQuote key}: malformed or non-canonical base64"

/-- Protocol byte-field member names, checked at any depth. -/
def wireByteFields : List String :=
  ["bundle_hash", "chain_hash", "challenge", "context_hash", "ed25519", "entry_data", "mac",
    "ml_dsa_65", "prev_hash", "session_context", "stream_id", "terms_canonical_json"]

/-- The base64 check a single member needs under its name at depth `d`. -/
def checkByteMember (topByte topText : List String) (d : Nat) (k : String) (v : JV) :
    V2Result Unit :=
  match v with
  | .str s =>
    if (wireByteFields.contains k && !(d == 1 && topText.contains k))
        || (d == 1 && topByte.contains k) then
      checkCanonicalBase64 k s
    else .ok ()
  | _ => .ok ()

mutual

/-- `check_byte_fields` on the value of a node. -/
def checkByteFields (topByte topText : List String) : Nat → JV → V2Result Unit
  | depth, .obj fields => checkByteMembers topByte topText (depth + 1) fields
  | depth, .arr xs => checkByteItems topByte topText (depth + 1) xs
  | _, _ => .ok ()

def checkByteNode (topByte topText : List String) : Nat → JNode → V2Result Unit
  | depth, .mk v _ _ => checkByteFields topByte topText depth v

def checkByteItems (topByte topText : List String) : Nat → List JNode → V2Result Unit
  | _, [] => .ok ()
  | depth, x :: xs => do
    checkByteNode topByte topText depth x
    checkByteItems topByte topText depth xs

def checkByteMembers (topByte topText : List String) :
    Nat → List (String × JNode) → V2Result Unit
  | _, [] => .ok ()
  | d, (k, x) :: fields => do
    checkByteMember topByte topText d k x.v
    -- Values inside `params` are application data, not protocol byte fields.
    if k = "params" then .ok () else checkByteNode topByte topText d x
    checkByteMembers topByte topText d fields

end

/-- The only schema members whose value may be `null`. -/
def nullableMembers : List String :=
  ["session_context", "stream_id", "stream_seq", "context_policy_digest", "floor",
    "accepted_snapshot", "preceding_checkpoint"]

mutual

/-- `reject_unexpected_null` on the value of a node. -/
def rejectUnexpectedNull : JV → V2Result Unit
  | .null => plain "wire v2: null is not permitted here"
  | .obj fields => rejectNullMembers fields
  | .arr xs => rejectNullItems xs
  | _ => .ok ()

def rejectNullNode : JNode → V2Result Unit
  | .mk v _ _ => rejectUnexpectedNull v

def rejectNullItems : List JNode → V2Result Unit
  | [] => .ok ()
  | x :: xs => do
    rejectNullNode x
    rejectNullItems xs

def rejectNullMembers : List (String × JNode) → V2Result Unit
  | [] => .ok ()
  | (k, x) :: fields => do
    if k = "params" || (x.isNull && nullableMembers.contains k) then .ok ()
    else rejectNullNode x
    rejectNullMembers fields

end

/-- Parse untrusted wire JSON, with canonical base64 in byte fields and no
undeclared `null`. -/
def parseWire (data : Bytes) (topByte topText : List String) : V2Result JNode := do
  let root ← parseJson data
  checkByteNode topByte topText 0 root
  rejectNullNode root
  .ok root

/-! ## Object views -/

/-- The members of an object node. -/
abbrev Obj := List (String × JNode)

def obj (node : JNode) : V2Result Obj :=
  match node.v with
  | .obj fields => .ok fields
  | _ => plain "wire: expected a JSON object"

def asStr (n : JNode) : V2Result String :=
  match n.v with
  | .str s => .ok s
  | _ => plain "wire: expected a JSON string"

def asI64 (n : JNode) : V2Result Int :=
  match n.v with
  | .num t =>
    if t.toList.any fun ch => ch == '.' || ch == 'e' || ch == 'E' then
      plain "wire: expected a JSON integer"
    else match parseI64 t.toList with
      | some i => .ok i
      | none => plain "wire: integer out of range"
  | _ => plain "wire: expected a JSON integer"

namespace Obj

def get (o : Obj) (key : String) : Option JNode :=
  (o.find? fun f => f.1 == key).map (·.2)

/-- Every name present and non-null unless nullable. -/
def require (o : Obj) (names nullable : List String) : V2Result Unit :=
  match names with
  | [] => .ok ()
  | name :: names =>
    match o.get name with
    | none => plain s!"wire v2: required field {debugQuote name} is missing"
    | some n =>
      if n.isNull && !nullable.contains name then
        plain s!"wire v2: required field {debugQuote name} must not be null"
      else require o names nullable

/-- Reject any member outside `allowed`. -/
def only (o : Obj) (allowed : List String) : V2Result Unit :=
  match o.find? fun f => !allowed.contains f.1 with
  | some f => plain s!"wire: unknown field {debugQuote f.1}"
  | none => .ok ()

/-- A member that is there and not `null`. -/
def present (o : Obj) (key : String) : Option JNode :=
  (o.get key).filter fun n => !n.isNull

def str (o : Obj) (key : String) : V2Result String :=
  match o.present key with
  | none => .ok ""
  | some n => asStr n

def i64 (o : Obj) (key : String) : V2Result Int :=
  match o.present key with
  | none => .ok 0
  | some n => asI64 n

def bytes (o : Obj) (key : String) : V2Result Bytes :=
  match o.present key with
  | none => .ok []
  | some n => do
    let s ← asStr n
    b64Decode s

def array (o : Obj) (key : String) : V2Result (List JNode) :=
  match o.present key with
  | none => .ok []
  | some n =>
    match n.v with
    | .arr xs => .ok xs
    | _ => plain s!"wire: {key} must be an array"

def optStr (o : Obj) (key : String) : V2Result (Option String) :=
  match o.present key with
  | none => .ok none
  | some n => do
    let s ← asStr n
    .ok (some s)

def optI64 (o : Obj) (key : String) : V2Result (Option Int) :=
  match o.present key with
  | none => .ok none
  | some n => do
    let i ← asI64 n
    .ok (some i)

def u16 (o : Obj) (key : String) : V2Result Nat := do
  let n ← o.i64 key
  if 0 ≤ n ∧ n ≤ 65535 then .ok n.toNat else plain s!"wire: {key} out of range"

def strArray (o : Obj) (key : String) : V2Result (List String) :=
  match o.present key with
  | none => .ok []
  | some n =>
    match n.v with
    | .arr xs => xs.mapM asStr
    | _ => plain s!"wire: {key} must be an array of strings"

/-- The two components of a hybrid key or signature. -/
def pair (o : Obj) (key : String) : V2Result (Bytes × Bytes) :=
  match o.present key with
  | none => .ok ([], [])
  | some n => do
    let inner ← obj n
    only inner ["ed25519", "ml_dsa_65"]
    require inner ["ed25519", "ml_dsa_65"] []
    let ed25519 ← bytes inner "ed25519"
    let mlDsa65 ← bytes inner "ml_dsa_65"
    .ok (ed25519, mlDsa65)

def pubKey (o : Obj) (key : String) : V2Result HybridPublicKey := do
  let (ed25519, mlDsa65) ← o.pair key
  .ok { ed25519, mlDsa65 }

def sig (o : Obj) (key : String) : V2Result HybridSignature := do
  let (ed25519, mlDsa65) ← o.pair key
  .ok { ed25519, mlDsa65 }

end Obj

/-! ## Canonical writer -/

/-- A canonical JSON output value. -/
inductive CJ where
  | null
  | bool (b : Bool)
  | int (n : Int)
  | str (s : String)
  | bytes (b : Bytes)
  | arr (xs : List CJ)
  | obj (fields : List (String × CJ))

namespace CJ

def strs (values : List String) : CJ := .arr (values.map .str)

def key (k : HybridPublicKey) : CJ :=
  .obj [("ed25519", .bytes k.ed25519), ("ml_dsa_65", .bytes k.mlDsa65)]

def sig (s : HybridSignature) : CJ :=
  .obj [("ed25519", .bytes s.ed25519), ("ml_dsa_65", .bytes s.mlDsa65)]

end CJ

/-- One character of a canonical string. -/
def encodeChar (c : Char) : List Char :=
  if c = '"' then ['\\', '"']
  else if c = '\\' then ['\\', '\\']
  else if c = '\x08' then ['\\', 'b']
  else if c = '\t' then ['\\', 't']
  else if c = '\n' then ['\\', 'n']
  else if c = '\x0c' then ['\\', 'f']
  else if c = '\r' then ['\\', 'r']
  else if c.toNat = 0x2028 then ['\\', 'u', '2', '0', '2', '8']
  else if c.toNat = 0x2029 then ['\\', 'u', '2', '0', '2', '9']
  else if c.toNat < 0x20 then
    ['\\', 'u', '0', '0', hexDigit (c.toNat / 16), hexDigit (c.toNat % 16)]
  else [c]

/-- A canonical string literal. -/
def encodeString (cs : List Char) : List Char := '"' :: cs.flatMap encodeChar ++ ['"']

/-- Shortest decimal of an integer. -/
def encodeInt (n : Int) : List Char :=
  if n < 0 then '-' :: Nat.toDigits 10 n.natAbs else Nat.toDigits 10 n.natAbs

/-- The texts of a list with a comma between neighbours. -/
def commaSeparated (xs : List (List Char)) : List Char :=
  (xs.intersperse [',']).flatten

/-- The text of an object from its members' texts, in key order. -/
def writeObject (fields : List (String × V2Result (List Char))) : V2Result (List Char) := do
  let sorted := fields.insertionSort fun a b => a.1 ≤ b.1
  let texts ← sorted.mapM fun f => do
    let text ← f.2
    .ok (encodeString f.1.toList ++ ':' :: text)
  .ok ('\x7b' :: commaSeparated texts ++ ['\x7d'])

mutual

/-- The canonical text of a value. -/
def write : CJ → V2Result (List Char)
  | .null => .ok ['n', 'u', 'l', 'l']
  | .bool true => .ok ['t', 'r', 'u', 'e']
  | .bool false => .ok ['f', 'a', 'l', 's', 'e']
  | .int n =>
    if -maxSafe ≤ n ∧ n ≤ maxSafe then .ok (encodeInt n)
    else plain ("canonical JSON: integer " ++ toString n
      ++ " outside the safe-integer range [-(2^53-1), 2^53-1]")
  | .str s => .ok (encodeString s.toList)
  | .bytes b => .ok (encodeString (Base64.encodeChars b))
  | .arr xs => do
    let texts ← writeItems xs
    .ok ('[' :: commaSeparated texts ++ [']'])
  | .obj fields => writeObject (writeMembers fields)

def writeItems : List CJ → V2Result (List (List Char))
  | [] => .ok []
  | x :: xs => do
    let text ← write x
    let texts ← writeItems xs
    .ok (text :: texts)

/-- Every member with the text of its value; sorting comes after, so that the
first failing key in key order decides the error. -/
def writeMembers : List (String × CJ) → List (String × V2Result (List Char))
  | [] => []
  | (k, x) :: fields => (k, write x) :: writeMembers fields

end

mutual

/-- The canonical text of a parsed value; a number keeps its token text. -/
def writeNode : JNode → List Char
  | .mk v _ _ => writeParsed v

def writeParsed : JV → List Char
  | .null => ['n', 'u', 'l', 'l']
  | .bool true => ['t', 'r', 'u', 'e']
  | .bool false => ['f', 'a', 'l', 's', 'e']
  | .num text => text.toList
  | .str s => encodeString s.toList
  | .arr xs => '[' :: commaSeparated (writeNodes xs) ++ [']']
  | .obj fields =>
    let sorted := (writeFields fields).insertionSort fun a b => a.1 ≤ b.1
    '\x7b' :: commaSeparated (sorted.map fun f => encodeString f.1.toList ++ ':' :: f.2)
      ++ ['\x7d']

def writeNodes : List JNode → List (List Char)
  | [] => []
  | x :: xs => writeNode x :: writeNodes xs

def writeFields : List (String × JNode) → List (String × List Char)
  | [] => []
  | (k, x) :: fields => (k, writeNode x) :: writeFields fields

end

/-- `canonical(node_to_cj(node))`: a parsed node re-encoded canonically. -/
def canonicalNode (n : JNode) : Bytes := utf8Chars (writeNode n)

/-- The canonical JSON bytes of `v`.  Integers outside the safe-integer range
are an error, never emitted. -/
def canonical (v : CJ) : V2Result Bytes := do
  let text ← write v
  .ok (utf8Chars text)

end RatifyProtocol.V2
