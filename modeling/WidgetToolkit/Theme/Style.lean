import WidgetToolkit.Color

/-!
# Control states and themed parts

What a theme distinguishes: the parts of composite controls, and the visual states of each.
-/

namespace WidgetToolkit

inductive ControlState where
  | normal
  | hovered
  | pressed
  | disabled
deriving DecidableEq, Repr

namespace ControlState

def all : List ControlState := [.normal, .hovered, .pressed, .disabled]

/-- The key of the state in palette files. -/
def key : ControlState → String
  | .normal => "normal"
  | .hovered => "hovered"
  | .pressed => "pressed"
  | .disabled => "disabled"

def ofKey? (key : String) : Option ControlState := all.find? (·.key == key)

instance : ToString ControlState := ⟨key⟩

instance : Inhabited ControlState := ⟨.normal⟩

end ControlState

inductive ThemePart where
  /-- A title in a tab strip. -/
  | tabItem
  /-- The panel that frames the page area of a tab. -/
  | tabPanel
deriving DecidableEq, Repr

namespace ThemePart

def all : List ThemePart := [.tabItem, .tabPanel]

/-- The key of the part in palette files. -/
def key : ThemePart → String
  | .tabItem => "tab_item"
  | .tabPanel => "tab_panel"

def ofKey? (key : String) : Option ThemePart := all.find? (·.key == key)

instance : ToString ThemePart := ⟨key⟩

end ThemePart

/-- The colors of one part in one state. -/
structure PartStyle where
  background : Color
  border : Color
deriving DecidableEq, Repr

end WidgetToolkit
