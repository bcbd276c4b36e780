import WidgetToolkit.Decimal.Reading
import WidgetToolkit.Toml.Value
import WidgetToolkit.Toml.Lexeme

/-!
# Numbers, dates and times of TOML

Digits may be grouped with single underscores between them. Integers are those of 64 bits. A number
too large for a binary value is refused, one that is negative and too large is minus infinity, and
one too small is zero. Dates are those of the calendar.
-/

namespace WidgetToolkit.Toml

/-! ## Numbers -/

/-- Digits of a kind behind a first one, without the underscores between them. -/
def moreDigits? (isDigit : Char → Bool) : List Char → Option (List Char × List Char)
  | [] => some ([], [])
  | '_' :: d :: rest =>
    if isDigit d then (moreDigits? isDigit rest).map (prepend d) else none
  | c :: rest =>
    if c = '_' then none
    else if isDigit c then (moreDigits? isDigit rest).map (prepend c)
    else some ([], c :: rest)

/-- Digits of a kind, at least one. -/
def digits? (isDigit : Char → Bool) : List Char → Option (List Char × List Char)
  | [] => none
  | c :: rest => if isDigit c then (moreDigits? isDigit rest).map (prepend c) else none

/-- The digits of a decimal whole number: a zero alone, or no zero in front. -/
def wholeDigits? : List Char → Option (List Char × List Char)
  | '0' :: rest => some (['0'], rest)
  | cs => digits? Char.isDigit cs

/-- A power of ten behind a number, if there is one. -/
def exponent? (cs : List Char) : Option (Option Int × List Char) :=
  match cs with
  | c :: rest =>
    if c = 'e' ∨ c = 'E' then do
      let (negative, rest) := Decimal.splitSign rest
      let (digits, rest) ← digits? Char.isDigit rest
      let n : Int := Decimal.natOfDigits digits
      some (some (if negative then -n else n), rest)
    else some (none, cs)
  | [] => some (none, [])

/-- The part of a number behind a point, if there is one. -/
def fraction? (cs : List Char) : Option (Option (List Char) × List Char) :=
  match cs with
  | '.' :: rest => (digits? Char.isDigit rest).map fun (digits, rest) => (some digits, rest)
  | cs => some (none, cs)

/-- Whether 64 bits are enough. -/
def inRange (n : Int) : Bool := -9223372036854775808 ≤ n && n < 9223372036854775808

/-- A decimal number behind its sign: an integer, or a binary value if it has a fraction or a power
of ten. -/
def decimal? (negative : Bool) (cs : List Char) : Option (Value × List Char) := do
  let (whole, rest) ← wholeDigits? cs
  let (fraction, rest) ← fraction? rest
  let (exponent, rest) ← exponent? rest
  if fraction.isNone ∧ exponent.isNone then
    let n : Int := Decimal.natOfDigits whole
    let n := if negative then -n else n
    if inRange n then some (.integer n, rest) else none
  else
    let behind := fraction.getD []
    let x := Decimal.Literal.toFloat
      ⟨negative, Decimal.natOfDigits (whole ++ behind), exponent.getD 0 - behind.length⟩
    if x < 1.0 / 0.0 then some (.number x, rest) else none

/-- An integer in another base, behind its mark. -/
def inBase? (base : Nat) (cs : List Char) : Option (Value × List Char) := do
  let isDigit : Char → Bool := fun c => (hexValue? c).any (· < base)
  let (digits, rest) ← digits? isDigit cs
  let n := digits.foldl (fun n c => base * n + (hexValue? c).getD 0) 0
  if inRange n then some (.integer n, rest) else none

/-- A number that has a name, or a decimal number. -/
def signed? (negative : Bool) : List Char → Option (Value × List Char)
  | 'i' :: 'n' :: 'f' :: rest =>
    some (.number (if negative then -(1.0 / 0.0) else 1.0 / 0.0), rest)
  | 'n' :: 'a' :: 'n' :: rest => some (.number (0.0 / 0.0), rest)
  | cs => decimal? negative cs

/-- A number. Only one without a sign may be in another base. -/
def number? : List Char → Option (Value × List Char)
  | '0' :: 'x' :: rest => inBase? 16 rest
  | '0' :: 'o' :: rest => inBase? 8 rest
  | '0' :: 'b' :: rest => inBase? 2 rest
  | cs => let (negative, rest) := Decimal.splitSign cs; signed? negative rest

/-! ## Dates and times -/

/-- Exactly so many digits, as a number. -/
def fixedDigits? (count : Nat) (cs : List Char) : Option (Nat × List Char) :=
  let digits := cs.take count
  if digits.length = count ∧ digits.all Char.isDigit then
    some (Decimal.natOfDigits digits, cs.drop count)
  else none

/-- Takes one given character. -/
def take? (c : Char) : List Char → Option (List Char)
  | d :: rest => if d = c then some rest else none
  | [] => none

def daysInMonth (year month : Nat) : Nat :=
  if month = 2 then
    if year % 4 = 0 ∧ (year % 100 ≠ 0 ∨ year % 400 = 0) then 29 else 28
  else if month = 4 ∨ month = 6 ∨ month = 9 ∨ month = 11 then 30
  else 31

/-- Takes a day of the calendar. -/
def date? (cs : List Char) : Option (List Char) := do
  let (year, rest) ← fixedDigits? 4 cs
  let (month, rest) ← fixedDigits? 2 (← take? '-' rest)
  let (day, rest) ← fixedDigits? 2 (← take? '-' rest)
  if 1 ≤ month ∧ month ≤ 12 ∧ 1 ≤ day ∧ day ≤ daysInMonth year month then some rest else none

/-- Takes hours and minutes. -/
def clock? (cs : List Char) : Option (List Char) := do
  let (hour, rest) ← fixedDigits? 2 cs
  let (minute, rest) ← fixedDigits? 2 (← take? ':' rest)
  if hour ≤ 23 ∧ minute ≤ 59 then some rest else none

/-- Takes a time of day. A minute may have a leap second, a second any number of decimals. -/
def time? (cs : List Char) : Option (List Char) := do
  let (second, rest) ← fixedDigits? 2 (← take? ':' (← clock? cs))
  if 60 < second then none
  match rest with
  | '.' :: decimals =>
    if (decimals.takeWhile Char.isDigit).isEmpty then some rest
    else some (decimals.dropWhile Char.isDigit)
  | _ => some rest

/-- Takes a distance from universal time, if there is one. -/
def skipZone (cs : List Char) : List Char :=
  match cs with
  | c :: rest =>
    if c = 'Z' ∨ c = 'z' then rest
    else if c = '+' ∨ c = '-' then (clock? rest).getD cs
    else cs
  | [] => []

/-- Takes a time behind a date, if there is one. -/
def skipTime (cs : List Char) : List Char :=
  match cs with
  | c :: rest =>
    if c = 'T' ∨ c = 't' ∨ c = ' ' then
      match time? rest with
      | some rest => skipZone rest
      | none => cs
    else cs
  | [] => []

/-- A date, a date and a time, or a time. -/
def moment? (cs : List Char) : Option (Value × List Char) := do
  let rest ← match date? cs with
    | some rest => some (skipTime rest)
    | none => time? cs
  some (.moment (String.ofList (cs.take (cs.length - rest.length))), rest)

/-! ## Scalars -/

/-- A value other than a collection. -/
def scalar? (cs : List Char) : Option (Value × List Char) :=
  match cs with
  | '"' :: _ | '\'' :: _ => (string? cs).map fun (s, rest) => (.text s, rest)
  | 't' :: 'r' :: 'u' :: 'e' :: rest => some (.flag true, rest)
  | 'f' :: 'a' :: 'l' :: 's' :: 'e' :: rest => some (.flag false, rest)
  | _ => (moment? cs).or (number? cs)

end WidgetToolkit.Toml
