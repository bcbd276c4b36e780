import WidgetToolkit.Menu.Item

/-!
# Actions

What a program does with signals and menus, as data. A slot is a list of actions, so slots connect and
disconnect slots, emit signals, and click items while they are called. Actions go by names, which stand
for what they name when the action is performed: a slot can work on menus and items that are made after
it was connected.
-/

namespace WidgetToolkit

/-- A signal of its own, or the one that the item of a name emits when it is clicked. -/
inductive SignalName where
  | plain (index : Nat)
  | click (item : String)
deriving DecidableEq, Repr

inductive Action where
  /-- Connects a slot that runs actions on its first calls. The tag names it from then on. -/
  | connect (signal : SignalName) (tag : String) (acts : List Action) (limit : Option Nat)
  /-- Disconnects the slot that a tag names. -/
  | disconnect (signal : SignalName) (tag : String)
  | disconnectAll (signal : SignalName)
  | emit (signal : SignalName) (value : Int)
  | countSlots (signal : SignalName)
  | isEmpty (signal : SignalName)
  | describeSignal (signal : SignalName)
  | makeItem (name : String) (kind : ItemKind) (label : String)
  | makeMenu (name : String) (recorded : Bool)
  | drop (menu : String)
  | append (menu : String) (item : String)
  | insert (menu : String) (item : String) (index : Nat)
  | remove (menu : String) (item : String)
  | activate (menu : String) (item : String)
  | click (item : String)
  | setLabel (item : String) (label : String)
  | setEnabled (item : String) (on : Bool)
  | setChecked (item : String) (on : Bool)
  | setVisible (item : String) (on : Bool)
  | itemAt (menu : String) (index : Nat)
  | indexOf (menu : String) (item : String)
  | countItems (menu : String)
  | describeItem (item : String)
  | describeMenu (menu : String)

namespace Action

mutual

/-- The number of actions in an action, itself included. -/
def size : Action → Nat
  | .connect _ _ acts _ => sizes acts + 1
  | _ => 1

def sizes : List Action → Nat
  | [] => 0
  | action :: rest => size action + sizes rest

end

end Action

namespace Action

/-- The name of an action in logs. -/
def name : Action → String
  | .connect .. => "connect"
  | .disconnect .. => "disconnect"
  | .disconnectAll _ => "disconnect_all"
  | .emit .. => "emit"
  | .countSlots _ => "len"
  | .isEmpty _ => "is_empty"
  | .describeSignal _ => "debug"
  | .makeItem .. => "item"
  | .makeMenu .. => "menu"
  | .drop _ => "drop"
  | .append .. => "append"
  | .insert .. => "insert"
  | .remove .. => "remove"
  | .activate .. => "activate"
  | .click _ => "click"
  | .setLabel .. => "label"
  | .setEnabled .. => "enabled"
  | .setChecked .. => "checked"
  | .setVisible .. => "visible"
  | .itemAt .. => "item_at"
  | .indexOf .. => "index_of"
  | .countItems _ => "count"
  | .describeItem _ => "debug_item"
  | .describeMenu _ => "debug_menu"

end Action

/-- The result of an action. -/
inductive Answer where
  | nothing
  | flag (b : Bool)
  | count (n : Nat)
  | text (text : String)
  | slot (id : SlotId)
  | item (id : ItemId)
deriving DecidableEq, Repr

/-- A slot: its tag, its actions, on how many calls it runs them, and the calls so far. -/
structure Slot where
  tag : String
  acts : List Action
  limit : Option Nat
  calls : Nat

namespace Slot

/-- The slot after one more call. -/
def called (slot : Slot) : Slot := { slot with calls := slot.calls + 1 }

/-- The actions that the next call runs. -/
def body (slot : Slot) : List Action :=
  if slot.limit.all (slot.calls < ·) then slot.acts else []

end Slot

end WidgetToolkit
