import WidgetToolkit.Tab.Pages

/-!
# Routing of pointer events

A view is told when the pointer enters it, leaves it, moves inside it, or when a button is pressed or
released over it. A tab passes motion and clicks on to its selected page if that is under the pointer.
Items come first: what hits an item does not reach the page.
-/

namespace WidgetToolkit

/-- What a press or a release did to a tab. -/
inductive PressOutcome where
  /-- Nothing under the pointer wanted it. -/
  | ignored
  /-- An item or the selected page took it. -/
  | consumed
  /-- It selected an item. -/
  | selected
deriving DecidableEq, Repr

variable {K : Type} [Coord K]

namespace Tab

/-- The selected page, if it is visible and at a point of the window. -/
def pageAt? (tab : Tab K) (p : Point K) : Option Nat :=
  tab.strip.selected.filter fun index =>
    tab.pages[index]?.any fun page => page.core.visible && page.core.contains p

/-- Passes motion on to the page under the pointer. -/
def forwardMoveBy (move : View K → Told (Notice K) (View K)) (tab : Tab K) (p : Point K) :
    Told (Notice K) (Tab K) := do
  match tab.pageAt? p with
  | none => return tab
  | some index => return { tab with pages := ← Told.modifyNth move tab.pages index }

/-- The pointer moves: items show whether it is over them, and the page under it is told. -/
def moveBy (move : View K → Told (Notice K) (View K)) (tab : Tab K) (p : Point K) :
    Told (Notice K) (Tab K) :=
  forwardMoveBy move { tab with strip := tab.strip.track p } p

/-- A press or a release over an item. -/
def pressItem (tab : Tab K) (index : Nat) (event : PointerEvent K) :
    Told (Notice K) (PressOutcome × Tab K) := do
  match tab.strip.items[index]? with
  | none => return (.consumed, tab)
  | some entry =>
    if entry.activates event then
      let (changed, tab) ← tab.selectItem entry.core.id
      return (if changed then .selected else .consumed, tab)
    else return (.consumed, tab)

/-- A press or a release, given how the page answers it. -/
def routeBy (click : View K → Told (Notice K) (Bool × View K)) (tab : Tab K)
    (event : PointerEvent K) : Told (Notice K) (PressOutcome × Tab K) := do
  match tab.strip.itemAt? event.position with
  | some index => tab.pressItem index event
  | none =>
    match tab.pageAt? event.position with
    | none => return (.ignored, tab)
    | some index =>
      match tab.pages[index]? with
      | none => return (.ignored, tab)
      | some page =>
        let (consumed, page) ← click page
        return (if consumed then .consumed else .ignored,
          { tab with pages := tab.pages.set index page })

/-- A press or a release over a tab. A disabled tab swallows it. -/
def clickBy (click : View K → Told (Notice K) (Bool × View K)) (tab : Tab K)
    (event : PointerEvent K) : Told (Notice K) (Bool × Tab K) := do
  if tab.strip.core.isDisabled then return (true, tab)
  else
    let (outcome, tab) ← routeBy click tab event
    if outcome = .selected then tab.announce
    return (outcome != .ignored, tab)

end Tab

namespace View

/-- The pointer has come in. -/
def enter (event : PointerEvent K) : View K → Told (Notice K) (View K)
  | .probe core widget consumes => do
    Told.tell (.reached core.id .enter event)
    return .probe core widget consumes
  | .item entry => return .item (entry.setHovered true)
  | view => return view

/-- The pointer has gone out. -/
def leave (event : PointerEvent K) : View K → Told (Notice K) (View K)
  | .probe core widget consumes => do
    Told.tell (.reached core.id .leave event)
    return .probe core widget consumes
  | .item entry => return .item (entry.setHovered false)
  | .tab strip pages changed => return .tab strip.untrack pages changed
  | view => return view

/-- Motion over a view, passed on to that many levels less one. -/
def moveWithin : Nat → PointerEvent K → View K → Told (Notice K) (View K)
  | levels + 1, event, .tab strip pages changed => do
    let moved ← Tab.moveBy (moveWithin levels event) ⟨strip, pages, changed⟩ event.position
    return moved.toView
  | _ + 1, event, .probe core widget consumes => do
    Told.tell (.reached core.id .move event)
    return .probe core widget consumes
  | _, _, view => return view

/-- The pointer moves over a view. -/
def move (event : PointerEvent K) (view : View K) : Told (Notice K) (View K) :=
  moveWithin view.depth event view

/-- A press or a release over a view, passed on to that many levels less one. Tells whether the view
has taken it. -/
def clickWithin : Nat → PointerEvent K → View K → Told (Notice K) (Bool × View K)
  | 0, _, view => return (false, view)
  | levels + 1, event, .tab strip pages changed => do
    let (taken, clicked) ← Tab.clickBy (clickWithin levels event) ⟨strip, pages, changed⟩ event
    return (taken, clicked.toView)
  | _ + 1, event, .panel core clicked => do
    if core.isDisabled then return (true, .panel core clicked)
    else if event.isPrimaryDown then
      Told.tell (.clicked (.panel core clicked))
      return (true, .panel core clicked)
    else return (false, .panel core clicked)
  | _ + 1, event, .probe core widget consumes => do
    Told.tell (.reached core.id .click event)
    return (consumes, .probe core widget consumes)
  | _ + 1, _, .item entry => return (true, .item entry)
  | _ + 1, _, view => return (view.core.isDisabled, view)

/-- A button is pressed or released over a view. Tells whether the view has taken it. -/
def click (event : PointerEvent K) (view : View K) : Told (Notice K) (Bool × View K) :=
  clickWithin view.depth event view

end View

namespace Tab

def forwardMove (tab : Tab K) (event : PointerEvent K) : Told (Notice K) (Tab K) :=
  tab.forwardMoveBy (View.move event) event.position

/-- Routes a press or a release to the item or the page under the pointer, whether the tab is disabled
or not, and tells no observer of the tab. -/
def route (tab : Tab K) (event : PointerEvent K) : Told (Notice K) (PressOutcome × Tab K) :=
  tab.routeBy (View.click event) event

end Tab

end WidgetToolkit
