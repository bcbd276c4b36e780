import WidgetToolkit.Menu.Item

/-!
# Menu peers

The platform keeps a menu of its own beside every menu and is told of every change to the list of
items.
-/

namespace WidgetToolkit

inductive PeerCall where
  | init
  | insert (item : ItemId) (index : Nat)
  | remove (item : ItemId)
  | destroy
deriving DecidableEq, Repr

namespace PeerCall

/-- What a call does to the list that a peer keeps. -/
def apply (items : List ItemId) : PeerCall → List ItemId
  | .init => items
  | .insert item index => items.insertIdx index item
  | .remove item => items.erase item
  | .destroy => []

/-- The list that a peer has after its calls. -/
def replay (calls : List PeerCall) : List ItemId := calls.foldl apply []

end PeerCall

end WidgetToolkit
