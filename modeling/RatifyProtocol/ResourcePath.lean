import RatifyProtocol.Foundation.Text
set_option autoImplicit false

/-!
# Resource paths

`resource_path.rs`: the logical path model that both protocol versions share.
A path names a place inside the namespace of a resource; it is compared byte for
byte, and a prefix covers a path on segment boundaries only.
-/

namespace RatifyProtocol

open Foundation

/-- `p.strip_suffix('/').unwrap_or(p)`. -/
def stripSlash (p : List Char) : List Char :=
  if p.getLast? = some '/' then p.dropLast else p

/-- The check of one segment. -/
def segmentError (segment : List Char) : Option String :=
  if segment = [] then some "path contains an empty segment"
  else if segment = ['.'] ∨ segment = ['.', '.'] then
    some "path contains a dot-segment; dot-segments are rejected, never resolved"
  else none

/-- `normalize_resource_path`: the comparison form of a valid logical path. -/
def normalizeResourcePath (p : String) : Except String String :=
  if p = "" then .error "path is empty"
  else if p.toList.head? ≠ some '/' then .error "path must begin with '/'"
  else if p.toList.contains '\x00' then .error "path contains a NUL byte"
  else if p.toList.contains '\\' then
    .error "path contains a backslash; '/' is the only separator"
  else if p = "/" then .ok "/"
  else
    let trimmed := stripSlash p.toList
    match (trimmed.tail.splitOn '/').findSome? segmentError with
    | some e => .error e
    | none => .ok (String.ofList trimmed)

/-- `resource_path_matches`: whether a path is at or below a prefix. -/
def resourcePathMatches (pathPrefix requestedPath : String) : Bool :=
  match normalizeResourcePath pathPrefix, normalizeResourcePath requestedPath with
  | .ok covering, .ok path =>
    covering == "/" || path == covering || startsWith path (covering ++ "/")
  | _, _ => false

/-- `resource_paths_nested`: whether two prefixes are comparable; an absent one is
the root. -/
def resourcePathsNested (a b : String) : Bool :=
  let a := if a = "" then "/" else a
  let b := if b = "" then "/" else b
  resourcePathMatches a b || resourcePathMatches b a

end RatifyProtocol
