import RatifyProtocol.Foundation.Text
set_option autoImplicit false

/-!
# Foundation: what the machine holds

An allocation never exceeds `isize::MAX` bytes, so a string or a buffer carries
that bound.
-/

namespace RatifyProtocol.Foundation

/-- `isize::MAX`, the size of the largest allocation. -/
def isizeMax : Nat := 2 ^ 63 - 1

/-- `Vec<u8>`: a byte string that fits in memory. -/
abbrev Buffer : Type := { b : Bytes // b.length ≤ isizeMax }

/-- `String`: a text that fits in memory. -/
abbrev Text : Type := { s : String // (utf8 s).length ≤ isizeMax }

/-- The bytes of a text. -/
def Text.asBytes (t : Text) : Buffer := ⟨utf8 t.1, t.2⟩

theorem Text.asBytes_injective : Function.Injective Text.asBytes := by
  intro s t h
  exact Subtype.ext (utf8_injective (congrArg Subtype.val h))

end RatifyProtocol.Foundation
