import WidgetToolkit.Menu.Peer
import WidgetToolkit.Told

/-!
# Menus and their items

A desk holds menus and items. Every change to the items of a menu is made both in the menu and by its
peer, or in neither. An item that goes into a menu is linked before the peer is told and one that goes
out is unlinked afterwards, so the peer sees every item that it is told about in its menu.
-/

namespace WidgetToolkit

structure Menu where
  /-- The name in diagnostics and scripts. -/
  name : String
  items : List ItemId
  /-- Whether a record is kept of the calls to its peer. -/
  recorded : Bool
  /-- Whether the menu has not been dropped. -/
  live : Bool
deriving DecidableEq, Repr

/-- Menus and items are numbered in the order in which they are made. -/
structure Desk (σ : Type) where
  items : List (MenuItem σ)
  menus : List Menu

/-- A call to the peer of a menu, and the desk at that moment. -/
structure PeerNotice (σ : Type) where
  menu : MenuId
  call : PeerCall
  desk : Desk σ

namespace Desk

variable {σ : Type}

def empty : Desk σ := ⟨[], []⟩

def item? (desk : Desk σ) (id : ItemId) : Option (MenuItem σ) := desk.items[id.number]?

/-- A menu, unless it has been dropped. -/
def menu? (desk : Desk σ) (id : MenuId) : Option Menu := desk.menus[id.number]?.filter (·.live)

def modifyItem (desk : Desk σ) (id : ItemId) (change : MenuItem σ → MenuItem σ) : Desk σ :=
  { desk with items := desk.items.modify id.number change }

def modifyMenu (desk : Desk σ) (id : MenuId) (change : Menu → Menu) : Desk σ :=
  { desk with menus := desk.menus.modify id.number change }

def link (desk : Desk σ) (id : ItemId) (menu : Option MenuId) : Desk σ :=
  desk.modifyItem id fun item => { item with menu := menu }

/-- Items of a menu. A menu that is not there has none. -/
def itemsOf (desk : Desk σ) (id : MenuId) : List ItemId := (desk.menu? id).elim [] (·.items)

/-- The item that has a name: the latest of those that were made with it. -/
def itemNamed? (desk : Desk σ) (name : String) : Option ItemId :=
  (desk.items.zipIdx.reverse.find? fun (item, _) => item.name == name).map fun (_, n) => ⟨n⟩

/-- The menu that has a name: the latest of those that were made with it and have not been dropped. -/
def menuNamed? (desk : Desk σ) (name : String) : Option MenuId :=
  (desk.menus.zipIdx.reverse.find? fun (menu, _) => menu.live && menu.name == name).map
    fun (_, n) => ⟨n⟩

/-! ## Making and dropping -/

def newItem (desk : Desk σ) (name : String) (kind : ItemKind) (label : String) : Desk σ :=
  { desk with items := desk.items ++ [.new name kind label] }

def newMenu (desk : Desk σ) (name : String) (recorded : Bool) : Told (PeerNotice σ) (Desk σ) := do
  let id : MenuId := ⟨desk.menus.length⟩
  let desk := { desk with menus := desk.menus ++ [⟨name, [], recorded, true⟩] }
  Told.tell ⟨id, .init, desk⟩
  return desk

/-- Drops a menu. Its items stay. -/
def drop (desk : Desk σ) (id : MenuId) : Told (PeerNotice σ) (Desk σ) := do
  match desk.menu? id with
  | none => return desk
  | some menu =>
    let desk := menu.items.foldl (fun desk item => desk.link item none) desk
    let desk := desk.modifyMenu id fun menu => { menu with items := [], live := false }
    Told.tell ⟨id, .destroy, desk⟩
    return desk

/-! ## Changes to menus -/

/-- Inserts an item. This fails if it is in a menu already, or if the index is beyond the end. -/
def insert (desk : Desk σ) (id : MenuId) (item : ItemId) (index : Nat) :
    Told (PeerNotice σ) (Bool × Desk σ) := do
  match desk.menu? id, desk.item? item with
  | some menu, some entry =>
    if entry.menu.isSome || menu.items.length < index then return (false, desk)
    else
      let desk := desk.modifyMenu id fun menu => { menu with items := menu.items.insertIdx index item }
      let desk := desk.link item (some id)
      Told.tell ⟨id, .insert item index, desk⟩
      return (true, desk)
  | _, _ => return (false, desk)

/-- Inserts an item behind the others. -/
def append (desk : Desk σ) (id : MenuId) (item : ItemId) : Told (PeerNotice σ) (Bool × Desk σ) :=
  desk.insert id item (desk.itemsOf id).length

/-- Removes an item. This fails if it is not in the menu. -/
def remove (desk : Desk σ) (id : MenuId) (item : ItemId) : Told (PeerNotice σ) (Bool × Desk σ) := do
  if (desk.itemsOf id).contains item then
    Told.tell ⟨id, .remove item, desk⟩
    let desk := desk.link item none
    return (true, desk.modifyMenu id fun menu => { menu with items := menu.items.erase item })
  else return (false, desk)

/-! ## Clicks -/

/-- The desk with an item clicked, before the slots are called. `none` if the item does not react. -/
def press? (desk : Desk σ) (item : ItemId) : Option (Desk σ) :=
  match desk.item? item with
  | some entry => if entry.reacts then some (desk.modifyItem item (·.pressed)) else none
  | none => none

def isRadio (desk : Desk σ) (item : ItemId) : Bool :=
  (desk.item? item).any (·.kind == .radio)

/-- The radio items adjacent to an index, in both directions up to the first other item. -/
def radioNeighbours (desk : Desk σ) (items : List ItemId) (index : Nat) : List ItemId :=
  (items.take index).reverse.takeWhile desk.isRadio ++
    (items.drop (index + 1)).takeWhile desk.isRadio

def uncheck (desk : Desk σ) (items : List ItemId) : Desk σ :=
  items.foldl (fun desk item => desk.modifyItem item fun entry => { entry with checked := false }) desk

/-- The desk with an item of a menu clicked, before the slots are called. A radio item unchecks those
around it. `none` if the item is not in the menu or does not react. -/
def activate? (desk : Desk σ) (id : MenuId) (item : ItemId) : Option (Desk σ) :=
  let items := desk.itemsOf id
  match items.idxOf? item with
  | none => none
  | some index =>
    if (desk.item? item).any (·.reacts) then
      let desk := if desk.isRadio item then desk.uncheck (desk.radioNeighbours items index) else desk
      desk.press? item
    else none

/-! ## Diagnostics -/

def nameOf? (desk : Desk σ) (id : MenuId) : Option String := (desk.menu? id).map (·.name)

def describeItem? (desk : Desk σ) (item : ItemId) : Option String :=
  (desk.item? item).map fun entry => entry.describe (entry.menu.bind desk.nameOf?)

def describeMenu? (desk : Desk σ) (id : MenuId) : Option String :=
  (desk.menu? id).map fun menu =>
    "MenuBase \x7b id: MenuId(" ++ menu.name ++ "), items: [" ++
      ", ".intercalate (menu.items.filterMap desk.describeItem?) ++ "] \x7d"

end Desk

end WidgetToolkit
