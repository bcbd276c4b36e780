import WidgetToolkit.Signal
import WidgetToolkit.Text.Quoted

/-!
# Menu items

An item is in at most one menu at a time, and knows which. A checkbox has a check mark that clicks
toggle; a radio item is checked by a click.
-/

namespace WidgetToolkit

structure ItemId where
  number : Nat
deriving DecidableEq, Repr

structure MenuId where
  number : Nat
deriving DecidableEq, Repr

inductive ItemKind where
  | label
  | checkbox
  /-- A check mark that excludes those of the adjacent radio items. -/
  | radio
  /-- A line. It is never clicked. -/
  | separator
  /-- A label that opens a menu. -/
  | submenu
deriving DecidableEq, Repr

/-- The name of the kind in diagnostics. -/
def ItemKind.describe : ItemKind → String
  | .label => "Label"
  | .checkbox => "Checkbox"
  | .radio => "Radio"
  | .separator => "Separator"
  | .submenu => "Submenu"

structure MenuItem (σ : Type) where
  /-- The name in diagnostics and scripts. -/
  name : String
  kind : ItemKind
  label : String
  enabled : Bool
  checked : Bool
  visible : Bool
  menu : Option MenuId
  clicked : Signal σ

namespace MenuItem

variable {σ : Type}

def new (name : String) (kind : ItemKind) (label : String) : MenuItem σ where
  name := name
  kind := kind
  label := label
  enabled := true
  checked := false
  visible := true
  menu := none
  clicked := .empty

/-- Whether the item reacts to clicks. -/
def reacts (item : MenuItem σ) : Bool := item.enabled && item.kind != .separator

/-- The item after a click on it. -/
def pressed (item : MenuItem σ) : MenuItem σ :=
  match item.kind with
  | .checkbox => { item with checked := !item.checked }
  | .radio => { item with checked := true }
  | _ => item

/-- The text for diagnostics, given the name of the menu. -/
def describe (item : MenuItem σ) (menuName : Option String) : String :=
  let menu :=
    match menuName with
    | some name => "Some(MenuId(" ++ name ++ "))"
    | none => "None"
  "MenuItem \x7b id: MenuItemId(" ++ item.name ++ "), type: " ++ item.kind.describe ++ ", label: " ++
    Text.quote item.label ++ ", menu: " ++ menu ++ " \x7d"

end MenuItem

end WidgetToolkit
