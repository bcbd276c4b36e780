/-!
# TOML values

The values of a TOML 1.0 document, and how settings read them. A record is read from a table by the
names of its fields, or from an array by their order; a table may hold other keys, and an array
further elements.
-/

namespace WidgetToolkit.Toml

inductive Value where
  | text (s : String)
  | integer (n : Int)
  | number (x : Float)
  | flag (b : Bool)
  /-- A date, a time or both, as it is written. -/
  | moment (s : String)
  | array (elements : List Value)
  | table (entries : List (String × Value))
deriving Repr

abbrev Table := List (String × Value)

namespace Value

def text? : Value → Option String
  | .text s => some s
  | _ => none

def flag? : Value → Option Bool
  | .flag b => some b
  | _ => none

/-- Integers are numbers too. -/
def float? : Value → Option Float
  | .number x => some x
  | .integer n => some (Float.ofInt n)
  | _ => none

/-- In single precision an integer is rounded once. -/
def float32? : Value → Option Float32
  | .number x => some x.toFloat32
  | .integer n => some (Float32.ofInt n)
  | _ => none

def table? : Value → Option Table
  | .table entries => some entries
  | _ => none

/-- The fields that a value gives a record, by name. A moment gives none. -/
def fields? (names : List String) : Value → Option (String → Option Value)
  | .table entries => some fun name => entries.lookup name
  | .array elements => some fun name => (names.zip elements).lookup name
  | .moment _ => some fun _ => none
  | _ => none

/-- Reads a field, or takes a default when it is missing. -/
def readField {α : Type} (fields : String → Option Value) (name : String) (read? : Value → Option α)
    (default : α) : Option α :=
  match fields name with
  | none => some default
  | some value => read? value

end Value

end WidgetToolkit.Toml
