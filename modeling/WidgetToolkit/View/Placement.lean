import WidgetToolkit.View.Tree

/-!
# Placement

A view gets a place, lays out what is below it, and follows changes of the scale factor. A tab gives
its selected page the page area and lays it out; the other pages keep their places. What a tab does is
told by what its pages do, so trees are descended level by level.
-/

namespace WidgetToolkit

inductive Placement (K : Type) where
  /-- The view gets a place in the window. -/
  | allocate (rect : Rect K)
  /-- The view lays out what is below it. -/
  | layout
  /-- The scale factor has changed. -/
  | rescale (scale : K)

variable {K : Type} [Coord K]

namespace Tab

/-- Lays out the items and the selected page. -/
def layoutBy (place : Placement K → View K → Told (Notice K) (View K)) (tab : Tab K) :
    Told (Notice K) (Tab K) := do
  let strip := tab.strip.layout
  match strip.selected with
  | none => return { tab with strip := strip }
  | some index =>
    let settle (page : View K) : Told (Notice K) (View K) := do
      place .layout (← place (.allocate strip.pageRect) page)
    return { tab with strip := strip, pages := ← Told.modifyNth settle tab.pages index }

/-- Places a tab, given how its pages are placed. Pages are rescaled before the items. -/
def placeBy (place : Placement K → View K → Told (Notice K) (View K)) (tab : Tab K) :
    Placement K → Told (Notice K) (Tab K)
  | .allocate rect =>
    layoutBy place
      { tab with strip := { tab.strip with core := (tab.strip.core.allocate rect).2 } }
  | .layout => tab.layoutBy place
  | .rescale scale => do
    let pages ← Told.each (place (.rescale scale)) tab.pages
    layoutBy place { tab with strip := tab.strip.setScale scale, pages := pages }

end Tab

namespace View

/-- Places a view and that many levels of views below it, less one. -/
def placeWithin : Nat → Placement K → View K → Told (Notice K) (View K)
  | 0, _, view => return view
  | levels + 1, placement, .tab strip pages changed => do
    return (← Tab.placeBy (placeWithin levels) ⟨strip, pages, changed⟩ placement).toView
  | _ + 1, .allocate rect, view => return view.mapCore fun core => (core.allocate rect).2
  | _ + 1, .layout, .probe core widget consumes => do
    Told.tell (.laidOut core.id)
    return .probe core widget consumes
  | _ + 1, .layout, view => return view
  | _ + 1, .rescale scale, .item entry => return .item (entry.setScale scale)
  | _ + 1, .rescale scale, view => return view.mapCore (·.setScale scale)

/-- Places a view and all that is below it. -/
def place (placement : Placement K) (view : View K) : Told (Notice K) (View K) :=
  placeWithin view.depth placement view

end View

namespace Tab

def layout (tab : Tab K) : Told (Notice K) (Tab K) := tab.layoutBy View.place

/-- Sets the scale factor of the items, and not that of the pages. -/
def setItemScale (tab : Tab K) (scale : K) : Told (Notice K) (Tab K) :=
  layout { tab with strip := tab.strip.setScale scale }

/-- The items take the font, too. -/
def setFont (tab : Tab K) (font : Font) : Told (Notice K) (Tab K) :=
  layout { tab with strip := tab.strip.setFont font }

/-- The items take the color, too. -/
def setColor (tab : Tab K) (color : Color) : Tab K :=
  { tab with strip := tab.strip.setColor color }

end Tab

namespace View

/-- Sets the font. The pages of a tab keep theirs. -/
def setFont (view : View K) (font : Font) : Told (Notice K) (View K) :=
  match view with
  | .tab strip pages changed => do
    return (← Tab.setFont ⟨strip, pages, changed⟩ font).toView
  | .item entry => return .item (entry.setFont font)
  | view => return view.mapCore (·.setFont font)

/-- Sets the color. The pages of a tab keep theirs. -/
def setColor (view : View K) (color : Color) : View K :=
  match view with
  | .tab strip pages changed => (Tab.setColor ⟨strip, pages, changed⟩ color).toView
  | view => view.mapCore (·.setColor color)

end View

end WidgetToolkit
