import WidgetToolkit.View.Step

/-!
# Steps on a tab item

What a program does with an item of its own, as data: it sets the title, selects the item, or does
with it what can be done with any view.
-/

namespace WidgetToolkit

inductive ItemStep (K : Type) where
  | setTitle (title : String)
  | setSelected (selected : Bool)
  | view (step : ViewStep K)

variable {K : Type}

def View.item? : View K → Option (TabItem K)
  | .item entry => some entry
  | _ => none

/-- A step of an item, which stays an item. -/
def TabItem.step [Coord K] (item : TabItem K) :
    ItemStep K → Told (Notice K) (ViewAnswer K × TabItem K)
  | .setTitle title => return (.nothing, item.setTitle title)
  | .setSelected selected => return (.nothing, item.setSelected selected)
  | .view step => do
    let (answer, view) ← (View.item item).step step
    return (answer, view.item?.getD item)

end WidgetToolkit
