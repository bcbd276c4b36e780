import WidgetToolkit.View.CoreStep
import WidgetToolkit.View.Drawing
import WidgetToolkit.View.Routing

/-!
# Steps on a view

What a program does with a view, as data: a history of a view, or of a tab with its pages, is a list
of steps. A view inside a tree takes steps at its address.
-/

namespace WidgetToolkit

inductive ViewStep (K : Type) where
  /-- A step on the common part, and on nothing else. -/
  | core (step : CoreStep K)
  | place (placement : Placement K)
  | setFont (font : Font)
  | setColor (color : Color)
  | setVisible (visible : Bool)
  | enter (event : PointerEvent K)
  | leave (event : PointerEvent K)
  | move (event : PointerEvent K)
  | click (event : PointerEvent K)
  | draw (region : Rect K)
  /-- This and the following are for tabs. -/
  | addPage (title : String) (page : View K)
  | removePage (index : Nat)
  | selectPage (index : Nat)
  | askHeight
  | askMinimumSize

inductive ViewAnswer (K : Type) where
  | nothing
  | core (answer : CoreAnswer K)
  | taken (b : Bool)
  | drawn (calls : List (PaintCall K))
  | removed (page : Option (View K))
  | height (k : K)
  /-- The smallest size of a tab in logical units and in device pixels. -/
  | sizes (logical device : Size K)

variable {K : Type} [Coord K]

namespace Tab

/-- A step that is for tabs. -/
def step (tab : Tab K) : ViewStep K → Told (Notice K) (ViewAnswer K × Tab K)
  | .addPage title page => do return (.nothing, ← tab.addPage title page)
  | .removePage index => do
    let (page, tab) ← tab.removePage index
    return (.removed page, tab)
  | .selectPage index => do return (.nothing, ← tab.selectPage index)
  | .askHeight =>
    let (height, strip) := tab.strip.askHeight
    return (.height height, { tab with strip := strip })
  | .askMinimumSize =>
    let (size, strip) := tab.strip.askMinimumSize
    return (.sizes tab.minimumSize size, { tab with strip := strip })
  | _ => return (.nothing, tab)

end Tab

namespace View

/-- A step. Those for tabs change no other view. -/
def step (view : View K) : ViewStep K → Told (Notice K) (ViewAnswer K × View K)
  | .core step =>
    let (answer, core) := view.core.step step
    return (.core answer, view.mapCore fun _ => core)
  | .place placement => do return (.nothing, ← view.place placement)
  | .setFont font => do return (.nothing, ← view.setFont font)
  | .setColor color => return (.nothing, view.setColor color)
  | .setVisible visible => return (.nothing, view.setVisible visible)
  | .enter event => do return (.nothing, ← view.enter event)
  | .leave event => do return (.nothing, ← view.leave event)
  | .move event => do return (.nothing, ← view.move event)
  | .click event => do
    let (taken, view) ← view.click event
    return (.taken taken, view)
  | .draw region => return (.drawn (view.draw region), view)
  | step =>
    match view.tab? with
    | none => return (.nothing, view)
    | some before => do
      let (answer, after) ← before.step step
      return (answer, after.toView)

/-- A step of the view at an address. Nothing happens if there is none. -/
def stepAt (root : View K) (path : List Branch) (step : ViewStep K) :
    Told (Notice K) (Option (ViewAnswer K) × View K) :=
  match root.at? path with
  | none => return (none, root)
  | some view => do
    let (answer, view) ← view.step step
    return (some answer, root.replaceAt path view)

end View

end WidgetToolkit
