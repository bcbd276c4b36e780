/-!
# Binary floating-point values read exactly

A bit pattern of an interchange format stands for a sign and a whole number times a power of two,
for an infinity, or for no number.
-/

namespace WidgetToolkit.Decimal

/-- The widths of the two lower fields of an interchange format. -/
structure BinaryFormat where
  exponentBits : Nat
  fractionBits : Nat

def BinaryFormat.single : BinaryFormat := ⟨8, 23⟩

def BinaryFormat.double : BinaryFormat := ⟨11, 52⟩

/-- The value `significand * 2 ^ exponent`. -/
structure Dyadic where
  significand : Nat
  exponent : Int
  /-- The neighbour below is half as far away as the neighbour above. -/
  narrowBelow : Bool
deriving DecidableEq, Repr

inductive BinaryValue where
  | notANumber
  | infinite (negative : Bool)
  | finite (negative : Bool) (value : Dyadic)
deriving DecidableEq, Repr

/-- Reads the bits of a format. An exponent field of zero has no leading bit and the spacing of the
field one. -/
def BinaryFormat.decode (format : BinaryFormat) (bits : Nat) : BinaryValue :=
  let leading := Nat.pow 2 format.fractionBits
  let fields := Nat.pow 2 format.exponentBits
  let fraction := bits % leading
  let field := bits / leading % fields
  let negative := bits / (leading * fields) % 2 == 1
  let least : Int := 2 - Nat.pow 2 (format.exponentBits - 1) - format.fractionBits
  if field = fields - 1 then
    if fraction = 0 then .infinite negative else .notANumber
  else if field = 0 then .finite negative ⟨fraction, least, false⟩
  else .finite negative
    ⟨leading + fraction, least + (field - 1), fraction == 0 && decide (1 < field)⟩

end WidgetToolkit.Decimal
