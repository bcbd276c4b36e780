import WidgetToolkit.Files
import WidgetToolkit.Text.Quoted
import WidgetToolkit.Theme.Palette
import WidgetToolkit.Toml.Document

/-!
# Palette settings

A palette file is a table of parts, each a table of states, each with the colors to override. All of
it must have that shape, also below parts and states that are not known.
-/

namespace WidgetToolkit.Palette

inductive LoadError where
  | fileNotFound (path : String)
  | unreadable (cause : ReadError)
  | malformed
  | invalidColor (color : InvalidColor)
deriving DecidableEq, Repr

def InvalidColor.message (color : InvalidColor) : String :=
  "Invalid color " ++ Text.quote color.value ++ " for " ++ color.key ++
    ": expected #rrggbb or #rrggbbaa"

/-- The wording of an error. A malformed file has none of its own. -/
def LoadError.message? : LoadError → Option String
  | .fileNotFound path => some ("Palette file not found: " ++ Text.quote path)
  | .unreadable cause => some ("I/O error: " ++ cause.message)
  | .malformed => none
  | .invalidColor color => some color.message

/-- A color that may be missing. -/
def readColorText? (fields : String → Option Toml.Value) (name : String) : Option (Option String) :=
  Toml.Value.readField fields name (fun value => value.text?.map some) none

/-- The entry of one state. An array must have an element for both colors. -/
def StyleEntry.ofValue? (value : Toml.Value) : Option StyleEntry := do
  let fields ← value.fields? ["background", "border"]
  match value with
  | .array elements => if elements.length < 2 then none
  | _ => pure ()
  return ⟨← readColorText? fields "background", ← readColorText? fields "border"⟩

def Overrides.ofTable? (table : Toml.Table) : Option Overrides :=
  table.mapM fun (part, states) => do
    let states ← (← states.table?).mapM fun (state, entry) => do
      return (state, ← StyleEntry.ofValue? entry)
    return (part, states)

/-- The light palette with the overrides of a text. -/
def ofText (text : String) : Except LoadError (Palette × List Warning) :=
  match (Toml.read? text).bind Overrides.ofTable? with
  | none => .error .malformed
  | some overrides => (light.override overrides).mapError .invalidColor

/-- The light palette with the overrides of a file. -/
def ofFile (files : FileTree) (path : String) : Except LoadError (Palette × List Warning) :=
  if files.exists? path then
    match files.readText path with
    | .ok text => ofText text
    | .error cause => .error (.unreadable cause)
  else .error (.fileNotFound path)

end WidgetToolkit.Palette
