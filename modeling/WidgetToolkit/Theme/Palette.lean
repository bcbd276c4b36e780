import WidgetToolkit.Theme.Style

/-!
# Palettes

A palette has a style for every part in every state. Settings override single colors of the light
palette, entry by entry.
-/

namespace WidgetToolkit

structure Palette where
  partStyle : ThemePart → ControlState → PartStyle

namespace Palette

def light : Palette where
  partStyle
    | .tabItem, .normal => ⟨.gray 230, .gray 180⟩
    | .tabItem, .hovered => ⟨.gray 220, .gray 180⟩
    | .tabItem, .pressed => ⟨.white, .gray 180⟩
    | .tabItem, .disabled => ⟨.gray 240, .gray 180⟩
    | .tabPanel, _ => ⟨.white, .gray 180⟩

instance : Inhabited Palette := ⟨light⟩

/-- Replaces one style. -/
def set (palette : Palette) (part : ThemePart) (state : ControlState) (style : PartStyle) : Palette where
  partStyle p s := if p = part ∧ s = state then style else palette.partStyle p s

/-- The colors that settings give for one part in one state, as they are written. -/
structure StyleEntry where
  background : Option String
  border : Option String
deriving DecidableEq, Repr

/-- Settings by part and state. -/
abbrev Overrides := List (String × List (String × StyleEntry))

inductive Warning where
  | unknownPart (part : String)
  | unknownState (state part : String)
deriving DecidableEq, Repr

def Warning.message : Warning → String
  | .unknownPart part => "Ignoring unknown palette part '" ++ part ++ "'"
  | .unknownState state part =>
    "Ignoring unknown state '" ++ state ++ "' in palette part '" ++ part ++ "'"

/-- A color that cannot be read, with the key it stands under. -/
structure InvalidColor where
  key : String
  value : String
deriving DecidableEq, Repr

def readColor (key value : String) : Except InvalidColor Color :=
  match Color.ofHex? value with
  | some color => .ok color
  | none => .error ⟨key, value⟩

/-- A color that is given replaces the present one. -/
def overrideColor (key : String) (present : Color) : Option String → Except InvalidColor Color
  | none => .ok present
  | some value => readColor key value

/-- Overrides one style. The background is read first. -/
def overrideStyle (key : String) (present : PartStyle) (entry : StyleEntry) :
    Except InvalidColor PartStyle := do
  let background ← overrideColor (key ++ ".background") present.background entry.background
  let border ← overrideColor (key ++ ".border") present.border entry.border
  return ⟨background, border⟩

/-- Overrides the states of one part in turn. Unknown states are reported and otherwise ignored. -/
def overrideStates (part : ThemePart) :
    List (String × StyleEntry) → Palette → Except InvalidColor (Palette × List Warning)
  | [], palette => .ok (palette, [])
  | (key, entry) :: rest, palette =>
    match ControlState.ofKey? key with
    | none => do
      let (palette, warnings) ← overrideStates part rest palette
      return (palette, .unknownState key part.key :: warnings)
    | some state => do
      let style ← overrideStyle (part.key ++ "." ++ key) (palette.partStyle part state) entry
      overrideStates part rest (palette.set part state style)

/-- Overrides the parts in turn. Unknown parts are reported and otherwise ignored. -/
def override : Overrides → Palette → Except InvalidColor (Palette × List Warning)
  | [], palette => .ok (palette, [])
  | (key, states) :: rest, palette =>
    match ThemePart.ofKey? key with
    | none => do
      let (palette, warnings) ← override rest palette
      return (palette, .unknownPart key :: warnings)
    | some part => do
      let (palette, warnings) ← overrideStates part states palette
      let (palette, more) ← override rest palette
      return (palette, warnings ++ more)

end Palette

end WidgetToolkit
