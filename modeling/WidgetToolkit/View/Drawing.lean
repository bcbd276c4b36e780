import WidgetToolkit.View.Tree

/-!
# Drawing

A view is drawn with its upper left corner at the origin, where a region relative to it is to be
repainted. A child that is hidden, or that has no part in the region, is not drawn; any other is drawn
between a save and a restore, with the origin moved to it and with a clip to its bounds.
-/

namespace WidgetToolkit

variable {K : Type} [Coord K]

/-- The part of a region that falls on a child, relative to the child. -/
def ViewCore.regionFor (parent child : ViewCore K) (region : Rect K) : Rect K :=
  (region - (child.rect.origin - parent.rect.origin)).intersect child.localBounds

/-- Draws a child, given how it draws a region of itself. -/
def ViewCore.drawChild (parent child : ViewCore K) (region : Rect K)
    (draw : Rect K → List (PaintCall K)) : List (PaintCall K) :=
  if !child.visible then []
  else
    let part := parent.regionFor child region
    if part.isEmpty then []
    else
      [.save, .translate (child.rect.origin - parent.rect.origin), .clip child.localBounds]
        ++ draw part ++ [.restore]

/-- Fills the region with the background, if there is one. -/
def ViewCore.drawBackground (core : ViewCore K) (region : Rect K) : List (PaintCall K) :=
  match core.background with
  | none => []
  | some color =>
    let area := region.intersect core.localBounds
    if area.isEmpty then [] else [.fill area color]

/-- Draws a tab: the panel, the items, and the selected page. -/
def Tab.drawBy (draw : View K → Rect K → List (PaintCall K)) (tab : Tab K) (region : Rect K) :
    List (PaintCall K) :=
  let core := tab.strip.core
  tab.strip.drawPanel
    ++ tab.strip.items.flatMap (fun entry => core.drawChild entry.core region fun _ => entry.draw)
    ++ tab.selectedPage?.toList.flatMap (fun page => core.drawChild page.core region (draw page))

namespace View

/-- Draws a view and that many levels of views below it, less one. -/
def drawWithin : Nat → View K → Rect K → List (PaintCall K)
  | 0, _, _ => []
  | levels + 1, .tab strip pages changed, region =>
    Tab.drawBy (drawWithin levels) ⟨strip, pages, changed⟩ region
  | levels + 1, .group core _ children, region =>
    children.flatMap fun child => core.drawChild child.core region (drawWithin levels child)
  | _ + 1, .item entry, _ => entry.draw
  | _ + 1, view, region => view.core.drawBackground region

/-- Draws a view and all that is shown below it. -/
def draw (view : View K) (region : Rect K) : List (PaintCall K) :=
  drawWithin view.depth view region

end View

end WidgetToolkit
