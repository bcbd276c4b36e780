/-!
# Coordinates

Geometry is written once, for every type of coordinates. A program lays out on `Float`; a statement
that reads coordinates as exact numbers uses the same definitions on `Rat`.
-/

namespace WidgetToolkit

/-- What geometry asks of a coordinate type. A comparison with a value that is not a number fails,
and `least` and `greatest` then answer with their other argument. -/
class Coord (K : Type) extends
    Zero K, One K, NatCast K, Add K, Sub K, Mul K, Div K, LE K, LT K, BEq K where
  decidableLe : DecidableLE K
  decidableLt : DecidableLT K
  least : K → K → K
  greatest : K → K → K
  /-- The smallest whole number that is not below the argument. -/
  ceil : K → K
  isFinite : K → Bool

namespace Coord

variable {K : Type} [Coord K]

instance : DecidableLE K := decidableLe

instance : DecidableLT K := decidableLt

end Coord

/-- Binary floating point, with its values that are not numbers. -/
instance : Coord Float where
  zero := 0.0
  one := 1.0
  natCast := Float.ofNat
  decidableLe := inferInstance
  decidableLt := inferInstance
  least a b := if a.isNaN then b else if b < a then b else a
  greatest a b := if a.isNaN then b else if a < b then b else a
  ceil := Float.ceil
  isFinite := Float.isFinite

/-- Exact numbers. -/
instance : Coord Rat where
  toZero := @Zero.ofOfNat0 Rat Rat.instOfNat
  toOne := @One.ofOfNat1 Rat Rat.instOfNat
  decidableLe := inferInstance
  decidableLt := inferInstance
  least a b := if b < a then b else a
  greatest a b := if a < b then b else a
  ceil a := (a.ceil : Rat)
  isFinite _ := true

end WidgetToolkit
