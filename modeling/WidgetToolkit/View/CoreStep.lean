import WidgetToolkit.View.Core

/-!
# Steps on the common part of a view

Every change to the common part and every question to it, as data: a history of a view is a list of
steps.
-/

namespace WidgetToolkit

inductive CoreStep (K : Type) where
  | setFont (font : Font)
  | setColor (color : Color)
  | setBackground (background : Option Color)
  | setScale (scale : K)
  | setState (state : ControlState)
  | setEnabled (enabled : Bool)
  | allocate (rect : Rect K)
  | setVisible (visible : Bool)
  | setFocusable (focusable : Bool)
  | setFocused (focused : Bool)
  | setParent (parent : Option ViewId)
  | invalidate
  | invalidateRect (rect : Rect K)
  | contains (p : Point K)
  | takeDamage

inductive CoreAnswer (K : Type) where
  | nothing
  | flag (b : Bool)
  | damage (needsPaint : Bool) (region : Option (Rect K))

variable {K : Type} [Coord K]

namespace ViewCore

def step (core : ViewCore K) : CoreStep K → CoreAnswer K × ViewCore K
  | .setFont font => (.nothing, core.setFont font)
  | .setColor color => (.nothing, core.setColor color)
  | .setBackground background => (.nothing, core.setBackground background)
  | .setScale scale => (.nothing, core.setScale scale)
  | .setState state => (.nothing, core.setState state)
  | .setEnabled enabled => (.nothing, core.setEnabled enabled)
  | .allocate rect => let (changed, core) := core.allocate rect; (.flag changed, core)
  | .setVisible visible => (.nothing, core.setVisible visible)
  | .setFocusable focusable => (.nothing, core.setFocusable focusable)
  | .setFocused focused => let (changed, core) := core.setFocused focused; (.flag changed, core)
  | .setParent parent => (.nothing, core.setParent parent)
  | .invalidate => (.nothing, core.invalidate)
  | .invalidateRect rect => (.nothing, core.invalidateRect rect)
  | .contains p => (.flag (core.contains p), core)
  | .takeDamage =>
    let ((needsPaint, region), core) := core.takeDamage
    (.damage needsPaint region, core)

end ViewCore

end WidgetToolkit
