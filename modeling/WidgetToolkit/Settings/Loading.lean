import WidgetToolkit.Decimal.Reading
import WidgetToolkit.Files
import WidgetToolkit.Settings.Basic
import WidgetToolkit.Text.Blank
import WidgetToolkit.Text.Quoted
import WidgetToolkit.Toml.Document

/-!
# Loading settings

A settings file gives some of the fields, and the others keep their standard values. The environment
may name such a file and override the scale factor; where it is at fault it is reported and otherwise
ignored.
-/

namespace WidgetToolkit.Settings

open Toml.Value (readField)

inductive LoadError where
  | unreadable (path : String) (cause : ReadError)
  | malformed
  | invalid (fault : SettingsFault Float)

/-- The wording of an error. A malformed file has none of its own. -/
def LoadError.message? : LoadError → Option String
  | .unreadable path cause =>
    some ("Failed to read config file " ++ Text.quote path ++ ": " ++ cause.message)
  | .malformed => none
  | .invalid fault => some fault.message

def readFont? (value : Toml.Value) : Option Font := do
  let fields ← value.fields? ["family", "size"]
  return {
    family := ← readField fields "family" Toml.Value.text? Font.standard.family
    size := ← readField fields "size" Toml.Value.float32? Font.standard.size }

def readTab? (value : Toml.Value) : Option (TabSettings Float) := do
  let fields ← value.fields?
    ["horizontal_padding", "vertical_padding", "top_padding", "content_padding", "reference_text",
      "notify_on_reselect"]
  let standard : TabSettings Float := .standard
  return {
    horizontalPadding := ←
      readField fields "horizontal_padding" Toml.Value.float? standard.horizontalPadding
    verticalPadding := ←
      readField fields "vertical_padding" Toml.Value.float? standard.verticalPadding
    topPadding := ← readField fields "top_padding" Toml.Value.float? standard.topPadding
    contentPadding := ← readField fields "content_padding" Toml.Value.float? standard.contentPadding
    referenceText := ← readField fields "reference_text" Toml.Value.text? standard.referenceText
    notifyOnReselect := ←
      readField fields "notify_on_reselect" Toml.Value.flag? standard.notifyOnReselect }

/-- The settings of a document, or nothing if a field has a value of a wrong kind. -/
def ofTable? (table : Toml.Table) : Option (Settings Float) := do
  let fields := fun name => table.lookup name
  let standard : Settings Float := .standard
  return {
    font := ← readField fields "font" readFont? standard.font
    scaleFactor := ← readField fields "scale_factor" Toml.Value.float? standard.scaleFactor
    tab := ← readField fields "tab" readTab? standard.tab }

def ofText (text : String) : Except LoadError (Settings Float) :=
  match (Toml.read? text).bind ofTable? with
  | none => .error .malformed
  | some settings =>
    match settings.fault? with
    | some fault => .error (.invalid fault)
    | none => .ok settings

def ofFile (files : FileTree) (path : String) : Except LoadError (Settings Float) :=
  match files.readText path with
  | .ok text => ofText text
  | .error cause => .error (.unreadable path cause)

/-! ## The environment -/

structure Environment where
  /-- The settings file. -/
  settingsPath : Option String
  /-- The scale factor, as a decimal number. -/
  scaleFactor : Option String

inductive Warning where
  | settings (path : String) (error : LoadError)
  | scaleFactor (text : String)

/-- The scale factor of a setting: a positive number, with white space around it. -/
def scaleFactorOfText? (text : String) : Option Float :=
  match Decimal.readFloat? (Text.trim text.toList) with
  | some scale => if 0 < scale then some scale else none
  | none => none

def ofPath (files : FileTree) : Option String → Settings Float × List Warning
  | none => (.standard, [])
  | some path =>
    match ofFile files path with
    | .ok settings => (settings, [])
    | .error error => (.standard, [.settings path error])

def ofEnvironment (files : FileTree) (environment : Environment) :
    Settings Float × List Warning :=
  let (settings, warnings) := ofPath files environment.settingsPath
  match environment.scaleFactor with
  | none => (settings, warnings)
  | some text =>
    match scaleFactorOfText? text with
    | some scale => ({ settings with scaleFactor := scale }, warnings)
    | none => (settings, warnings ++ [.scaleFactor text])

end WidgetToolkit.Settings
