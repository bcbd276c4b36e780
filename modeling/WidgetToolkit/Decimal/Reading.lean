/-!
# Reading decimals

A decimal number in text is an optional sign, digits with at most one point among or around them,
and an optional power of ten; infinities and the value that is no number have names. It is read as
the nearest binary value, ties to the even one, and too large a number as an infinity.
-/

namespace WidgetToolkit.Decimal

/-- The number `digits * 10 ^ exponent` with a sign. -/
structure Literal where
  negative : Bool
  digits : Nat
  exponent : Int
deriving DecidableEq, Repr

/-- The nearest binary value. Numbers far outside its range need no arithmetic: from `10 ^ 400` on
they are infinite, and below `10 ^ (-400)` they are zero. -/
def Literal.toFloat (n : Literal) : Float :=
  let places : Int := (Nat.toDigits 10 n.digits).length + n.exponent
  let magnitude : Float :=
    if n.digits = 0 ∨ places < -400 then 0.0
    else if 400 < places then 1.0 / 0.0
    else Float.ofScientific n.digits (decide (n.exponent < 0)) n.exponent.natAbs
  if n.negative then -magnitude else magnitude

/-- The value of a string of digits. -/
def natOfDigits (digits : List Char) : Nat :=
  digits.foldl (fun n c => 10 * n + (c.toNat - '0'.toNat)) 0

/-- A sign in front, and what follows it. -/
def splitSign : List Char → Bool × List Char
  | '-' :: rest => (true, rest)
  | '+' :: rest => (false, rest)
  | rest => (false, rest)

/-- A power of ten behind the digits: nothing, or a letter and a whole number. -/
def readExponent? : List Char → Option Int
  | [] => some 0
  | c :: rest =>
    if c = 'e' ∨ c = 'E' then
      let (negative, digits) := splitSign rest
      if digits.isEmpty ∨ ¬ digits.all Char.isDigit then none
      else some (if negative then -(natOfDigits digits : Int) else natOfDigits digits)
    else none

/-- Digits with a point before, among or behind them. At least one digit is needed. -/
def readUnsigned? (cs : List Char) : Option (Nat × Int) := do
  let whole := cs.takeWhile Char.isDigit
  let rest := cs.dropWhile Char.isDigit
  let (fraction, rest) := match rest with
    | '.' :: rest => (rest.takeWhile Char.isDigit, rest.dropWhile Char.isDigit)
    | rest => ([], rest)
  if whole.isEmpty ∧ fraction.isEmpty then none
  let exponent ← readExponent? rest
  some (natOfDigits (whole ++ fraction), exponent - fraction.length)

/-- Reads a whole text as a number. -/
def readFloat? (cs : List Char) : Option Float :=
  let (negative, rest) := splitSign cs
  let name := String.ofList (rest.map Char.toLower)
  if name = "inf" ∨ name = "infinity" then some (if negative then -(1.0 / 0.0) else 1.0 / 0.0)
  else if name = "nan" then some (0.0 / 0.0)
  else (readUnsigned? rest).map fun (digits, exponent) => Literal.toFloat ⟨negative, digits, exponent⟩

end WidgetToolkit.Decimal
