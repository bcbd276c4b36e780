import WidgetToolkit.Decimal.Shortest

/-!
# Plain decimals

Numbers in messages are written with their shortest digits in positional notation, whatever their
size: no exponent, no point after a whole number, and a sign also on a negative zero.
-/

namespace WidgetToolkit.Decimal

/-- Positional notation of `digits * 10 ^ exponent`. -/
def Digits.plain (d : Digits) : String :=
  let digits := String.ofList (Nat.toDigits 10 d.digits)
  if 0 ≤ d.exponent then
    if d.digits = 0 then "0" else digits ++ String.ofList (List.replicate d.exponent.toNat '0')
  else
    let places := (-d.exponent).toNat
    let padded := List.replicate (places + 1 - digits.length) '0' ++ Nat.toDigits 10 d.digits
    let whole := padded.length - places
    String.ofList (padded.take whole) ++ "." ++ String.ofList (padded.drop whole)

def BinaryValue.plain : BinaryValue → String
  | .notANumber => "NaN"
  | .infinite false => "inf"
  | .infinite true => "-inf"
  | .finite false value => value.shortest.plain
  | .finite true value => "-" ++ value.shortest.plain

def ofFloat (x : Float) : String :=
  (BinaryFormat.double.decode x.toBits.toNat).plain

def ofFloat32 (x : Float32) : String :=
  (BinaryFormat.single.decode x.toBits.toNat).plain

end WidgetToolkit.Decimal
