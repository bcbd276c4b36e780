import WidgetToolkit.Decimal.Binary

/-!
# Shortest decimals

The fewest decimal digits that read back as a binary value: of all decimals among the reals that
round to the value, those with the fewest digits, of those the nearest, and of two equally near the
larger.
-/

namespace WidgetToolkit.Decimal

/-- The number `digits * 10 ^ exponent`. -/
structure Digits where
  digits : Nat
  exponent : Int
deriving DecidableEq, Repr

/-- The same number without zeros at the end of its digits. -/
def Digits.trim (d : Digits) : Digits :=
  if d.digits = 0 then ⟨0, 0⟩
  else
    let zeros := ((Nat.toDigits 10 d.digits).reverse.takeWhile (· == '0')).length
    ⟨d.digits / Nat.pow 10 zeros, d.exponent + zeros⟩

/-- Compares `a * 10 ^ i` with `b * 2 ^ j`. -/
def compareScaled (a : Nat) (i : Int) (b : Nat) (j : Int) : Ordering :=
  compare (a * Nat.pow 10 i.toNat * Nat.pow 2 (-j).toNat)
    (b * Nat.pow 2 j.toNat * Nat.pow 10 (-i).toNat)

namespace Dyadic

/-- Whether a decimal lies among the reals that round to the value. The ends of that interval are
halfway to the neighbours, and belong to it when the significand is even. -/
def readsBack (value : Dyadic) (d : Digits) : Bool :=
  let below := if value.narrowBelow then 4 * value.significand - 1 else 4 * value.significand - 2
  let above := 4 * value.significand + 2
  let closed := value.significand % 2 == 0
  let fromBelow := compareScaled d.digits d.exponent below (value.exponent - 2)
  let fromAbove := compareScaled d.digits d.exponent above (value.exponent - 2)
  (fromBelow == .gt || closed && fromBelow == .eq) && (fromAbove == .lt || closed && fromAbove == .eq)

/-- How many times ten goes into the value: the least `k` with the value below `10 ^ k`. The start
is a lower bound, from the binary logarithm. -/
def decimalScale (value : Dyadic) : Int :=
  let bits : Int := value.significand.log2 + value.exponent
  let start : Int := bits * 30103 / 100000 - 1
  let steps := (List.range 5).takeWhile fun (n : Nat) =>
    compareScaled 1 (start + n) value.significand value.exponent != .gt
  start + steps.length

/-- The last multiple of `10 ^ grid` that is not above the value, as a number of steps. -/
def stepsBelow (value : Dyadic) (grid : Int) : Nat :=
  value.significand * Nat.pow 2 value.exponent.toNat * Nat.pow 10 (-grid).toNat /
    (Nat.pow 2 (-value.exponent).toNat * Nat.pow 10 grid.toNat)

/-- The one of the value's two neighbours on a decimal grid that reads back, the nearer if both
do. -/
def onGrid? (value : Dyadic) (grid : Int) : Option Digits :=
  let below : Digits := ⟨value.stepsBelow grid, grid⟩
  let above : Digits := ⟨value.stepsBelow grid + 1, grid⟩
  match value.readsBack below, value.readsBack above with
  | false, false => none
  | true, false => some below
  | false, true => some above
  | true, true =>
    match compareScaled (2 * value.stepsBelow grid + 1) grid value.significand (value.exponent + 1) with
    | .gt => some below
    | _ => some above

/-- The exact decimal of the value. -/
def exact (value : Dyadic) : Digits :=
  if 0 ≤ value.exponent then ⟨value.significand * Nat.pow 2 value.exponent.toNat, 0⟩
  else ⟨value.significand * Nat.pow 5 (-value.exponent).toNat, value.exponent⟩

/-- The shortest decimal of the value: on the coarsest grid with a neighbour that reads back.
Seventeen digits always suffice for the formats in use. -/
def shortest (value : Dyadic) : Digits :=
  let found := (List.range 17).findSome? fun (n : Nat) =>
    value.onGrid? (value.decimalScale - (n + 1))
  (found.getD value.exact).trim

end Dyadic

end WidgetToolkit.Decimal
