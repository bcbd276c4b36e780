import WidgetToolkit.Menu.Desk
import WidgetToolkit.Script.Action

/-!
# Sessions

What actions work on: signals, menus and items, and the names of slots. Most actions are done at once;
an emission, or a click that gets through, leaves its answer until the slots have been called.
-/

namespace WidgetToolkit

structure Session where
  signals : List (Signal Slot)
  desk : Desk Slot
  /-- The slots that tags name. -/
  tags : List (String × SlotId)
  /-- How many more calls may run the actions of their slots, if that is limited. -/
  allowance : Option Nat

/-- A signal of its own, or the one that an item emits when it is clicked. -/
inductive SignalRef where
  | plain (index : Nat)
  | click (item : ItemId)
deriving DecidableEq, Repr

/-- What happens while an action is performed. -/
inductive Event where
  /-- A peer was called. -/
  | peer (notice : PeerNotice Slot)
  /-- A slot was called. This is the desk at that moment. -/
  | called (signal : SignalRef) (id : SlotId) (slot : Slot) (value : Int) (desk : Desk Slot)
  /-- A slot has performed an action. -/
  | did (slot : String) (action : Action) (answer : Answer)

/-- The calls to the peer of a menu. -/
def Event.peerCalls (menu : MenuId) (events : List Event) : List PeerCall :=
  events.filterMap fun event =>
    match event with
    | .peer notice => if notice.menu = menu then some notice.call else none
    | _ => none

/-- What an action comes to before any slot is called. -/
inductive Effect where
  /-- It is done. -/
  | done (answer : Answer) (events : List Event) (session : Session)
  /-- The slots of a signal are to be called. -/
  | emission (signal : SignalRef) (value : Int) (answer : Answer) (session : Session)

namespace Session

def new (signals : Nat) (allowance : Option Nat) : Session where
  signals := List.replicate signals .empty
  desk := .empty
  tags := []
  allowance := allowance

/-- A signal. One that is not there has no slots. -/
def signal (session : Session) : SignalRef → Signal Slot
  | .plain index => session.signals[index]?.getD .empty
  | .click item => (session.desk.item? item).elim .empty (·.clicked)

def setSignal (session : Session) (ref : SignalRef) (signal : Signal Slot) : Session :=
  match ref with
  | .plain index => { session with signals := session.signals.set index signal }
  | .click item =>
    { session with desk := session.desk.modifyItem item fun entry => { entry with clicked := signal } }

def lookup (session : Session) (tag : String) : Option SlotId := session.tags.lookup tag

def setItem (session : Session) (id : ItemId) (change : MenuItem Slot → MenuItem Slot) : Session :=
  { session with desk := session.desk.modifyItem id change }

/-- The effect of a change to the desk. -/
def edit (session : Session) (told : Told (PeerNotice Slot) (Bool × Desk Slot)) : Effect :=
  .done (.flag told.value.1) (told.notices.map .peer) { session with desk := told.value.2 }

/-- The effect of making or dropping something. -/
def furnish (session : Session) (told : Told (PeerNotice Slot) (Desk Slot)) : Effect :=
  .done .nothing (told.notices.map .peer) { session with desk := told.value }

/-- The effect of a click, if the item reacts. -/
def clicked (session : Session) (item : ItemId) : Option (Desk Slot) → Effect
  | some desk => .emission (.click item) 0 (.flag true) { session with desk := desk }
  | none => .done (.flag false) [] session

def reply (session : Session) (answer : Answer) : Effect := .done answer [] session

/-- The signal that a name stands for, if there is one. -/
def resolve? (session : Session) : SignalName → Option SignalRef
  | .plain index => if index < session.signals.length then some (.plain index) else none
  | .click item => (session.desk.itemNamed? item).map .click

/-- Makes a menu. It takes the name from the menu that has it, which is dropped. -/
def makeMenu (session : Session) (name : String) (recorded : Bool) : Effect :=
  session.furnish do
    let desk ← session.desk.newMenu name recorded
    match session.desk.menuNamed? name with
    | some former => desk.drop former
    | none => return desk

/-- What an action comes to, if everything that it names or asks for is there. -/
def perform? (session : Session) : Action → Option Effect
  | .connect name tag acts limit => do
    let ref ← session.resolve? name
    let (id, signal) := (session.signal ref).connect ⟨tag, acts, limit, 0⟩
    let session := session.setSignal ref signal
    return .done (.slot id) [] { session with tags := (tag, id) :: session.tags }
  | .disconnect name tag => do
    let ref ← session.resolve? name
    let (was, signal) := (session.signal ref).disconnect (← session.lookup tag)
    return .done (.flag was) [] (session.setSignal ref signal)
  | .disconnectAll name => do
    let ref ← session.resolve? name
    return .done .nothing [] (session.setSignal ref (session.signal ref).disconnectAll)
  | .emit name value => return .emission (← session.resolve? name) value .nothing session
  | .countSlots name =>
    return session.reply (.count (session.signal (← session.resolve? name)).length)
  | .isEmpty name => return session.reply (.flag (session.signal (← session.resolve? name)).isEmpty)
  | .describeSignal name =>
    return session.reply (.text (session.signal (← session.resolve? name)).describe)
  | .makeItem name kind label => return session.furnish (pure (session.desk.newItem name kind label))
  | .makeMenu name recorded => return session.makeMenu name recorded
  | .drop menu => return session.furnish (session.desk.drop (← session.desk.menuNamed? menu))
  | .append menu item =>
    return session.edit
      (session.desk.append (← session.desk.menuNamed? menu) (← session.desk.itemNamed? item))
  | .insert menu item index =>
    return session.edit
      (session.desk.insert (← session.desk.menuNamed? menu) (← session.desk.itemNamed? item) index)
  | .remove menu item =>
    return session.edit
      (session.desk.remove (← session.desk.menuNamed? menu) (← session.desk.itemNamed? item))
  | .activate menu item => do
    let item ← session.desk.itemNamed? item
    return session.clicked item (session.desk.activate? (← session.desk.menuNamed? menu) item)
  | .click item => do
    let item ← session.desk.itemNamed? item
    return session.clicked item (session.desk.press? item)
  | .setLabel item label => do
    let item ← session.desk.itemNamed? item
    return .done .nothing [] (session.setItem item ({ · with label := label }))
  | .setEnabled item on => do
    let item ← session.desk.itemNamed? item
    return .done .nothing [] (session.setItem item ({ · with enabled := on }))
  | .setChecked item on => do
    let item ← session.desk.itemNamed? item
    return .done .nothing [] (session.setItem item ({ · with checked := on }))
  | .setVisible item on => do
    let item ← session.desk.itemNamed? item
    return .done .nothing [] (session.setItem item ({ · with visible := on }))
  | .itemAt menu index => do
    let items := session.desk.itemsOf (← session.desk.menuNamed? menu)
    return session.reply (.item (← items[index]?))
  | .indexOf menu item => do
    let items := session.desk.itemsOf (← session.desk.menuNamed? menu)
    return session.reply (.count (← items.idxOf? (← session.desk.itemNamed? item)))
  | .countItems menu => do
    let items := session.desk.itemsOf (← session.desk.menuNamed? menu)
    return session.reply (.count items.length)
  | .describeItem item => do
    return session.reply (.text (← session.desk.describeItem? (← session.desk.itemNamed? item)))
  | .describeMenu menu => do
    return session.reply (.text (← session.desk.describeMenu? (← session.desk.menuNamed? menu)))

/-- What an action comes to. One that names or asks for something that is not there does nothing and
answers nothing. -/
def perform (session : Session) (action : Action) : Effect :=
  (session.perform? action).getD (session.reply .nothing)

/-- Counts a call and tells whether its slot may run its actions. -/
def spend (session : Session) : Bool × Session :=
  match session.allowance with
  | none => (true, session)
  | some 0 => (false, session)
  | some (rest + 1) => (true, { session with allowance := some rest })

end Session

end WidgetToolkit
