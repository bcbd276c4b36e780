/-!
# Colors

Eight bits for each of red, green, blue and opacity, and the hexadecimal notation of settings.
-/

namespace WidgetToolkit

structure Color where
  red : UInt8
  green : UInt8
  blue : UInt8
  alpha : UInt8
deriving DecidableEq, Repr

namespace Color

def black : Color := ⟨0, 0, 0, 255⟩

def white : Color := ⟨255, 255, 255, 255⟩

/-- The opaque color with equal channels. -/
def gray (level : UInt8) : Color := ⟨level, level, level, 255⟩

def hexDigit? (c : Char) : Option UInt8 :=
  if '0' ≤ c ∧ c ≤ '9' then some (c.toNat - '0'.toNat).toUInt8
  else if 'a' ≤ c ∧ c ≤ 'f' then some (c.toNat - 'a'.toNat + 10).toUInt8
  else if 'A' ≤ c ∧ c ≤ 'F' then some (c.toNat - 'A'.toNat + 10).toUInt8
  else none

/-- A channel is two hexadecimal digits, or one behind a plus sign. -/
def channel? (first second : Char) : Option UInt8 :=
  if first = '+' then hexDigit? second
  else do
    let high ← hexDigit? first
    let low ← hexDigit? second
    some (16 * high + low)

/-- Reads a number sign and three or four channels. A missing fourth channel is opaque. -/
def ofHex? (text : String) : Option Color :=
  match text.toList with
  | ['#', r, r', g, g', b, b'] => do
    some ⟨← channel? r r', ← channel? g g', ← channel? b b', 255⟩
  | ['#', r, r', g, g', b, b', a, a'] => do
    some ⟨← channel? r r', ← channel? g g', ← channel? b b', ← channel? a a'⟩
  | _ => none

end Color

end WidgetToolkit
