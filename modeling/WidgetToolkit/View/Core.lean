import WidgetToolkit.Settings.Basic
import WidgetToolkit.Theme.Style

/-!
# What views have in common

Every view has an identity, looks, a place in the window, and a region that waits to be repainted.
Places are in window coordinates, in device pixels.
-/

namespace WidgetToolkit

/-- The identity of a view. Views of their own are numbered; a tab numbers the items that it makes. -/
inductive ViewId where
  | view (number : Nat)
  | item (tab : ViewId) (number : Nat)
deriving DecidableEq, Repr

structure ViewCore (K : Type) where
  id : ViewId
  font : Font
  color : Color
  background : Option Color
  /-- Device pixels per logical unit. -/
  scale : K
  state : ControlState
  /-- The place of the view. -/
  rect : Rect K
  visible : Bool
  focusable : Bool
  focused : Bool
  parent : Option ViewId
  /-- Whether something waits to be repainted. -/
  needsPaint : Bool
  /-- The region that waits to be repainted. -/
  damage : Option (Rect K)

variable {K : Type} [Coord K]

namespace ViewCore

def new (id : ViewId) : ViewCore K where
  id := id
  font := .standard
  color := .black
  background := none
  scale := 1
  state := .normal
  rect := .zero
  visible := true
  focusable := false
  focused := false
  parent := none
  needsPaint := false
  damage := none

def ofSettings (id : ViewId) (settings : Settings K) : ViewCore K :=
  { new id with font := settings.font, scale := settings.scaleFactor }

def isDisabled (core : ViewCore K) : Bool := core.state == .disabled

/-- The place of the view relative to itself. -/
def localBounds (core : ViewCore K) : Rect K := .ofOriginSize .origin core.rect.size

/-- Whether a point of the window is inside the view. -/
def contains (core : ViewCore K) (p : Point K) : Bool := core.rect.contains p

/-! ## Repainting -/

/-- Schedules a repaint of a rectangle. Nothing is to be done for an empty one. -/
def invalidateRect (core : ViewCore K) (rect : Rect K) : ViewCore K :=
  if rect.isEmpty then core
  else
    { core with
      needsPaint := true
      damage := some (match core.damage with
        | some damage => damage.union rect
        | none => rect) }

/-- Schedules a repaint of the whole view. -/
def invalidate (core : ViewCore K) : ViewCore K := core.invalidateRect core.rect

/-- Takes what waits to be repainted: whether there is something, and the region. -/
def takeDamage (core : ViewCore K) : (Bool × Option (Rect K)) × ViewCore K :=
  ((core.needsPaint, core.damage), { core with needsPaint := false, damage := none })

/-! ## Changes -/

def setFont (core : ViewCore K) (font : Font) : ViewCore K := { core with font := font }.invalidate

def setColor (core : ViewCore K) (color : Color) : ViewCore K :=
  { core with color := color }.invalidate

def setBackground (core : ViewCore K) (background : Option Color) : ViewCore K :=
  { core with background := background }.invalidate

/-- Sets the scale factor. Measuring again is left to the caller. -/
def setScale (core : ViewCore K) (scale : K) : ViewCore K := { core with scale := scale }

def setState (core : ViewCore K) (state : ControlState) : ViewCore K :=
  { core with state := state }.invalidate

def setEnabled (core : ViewCore K) (enabled : Bool) : ViewCore K :=
  core.setState (if enabled then .normal else .disabled)

/-- Moves the view. Both its old and its new place are to be repainted. Tells whether the size has
changed. -/
def allocate (core : ViewCore K) (rect : Rect K) : Bool × ViewCore K :=
  if rect == core.rect then (false, core)
  else
    let moved := { core.invalidateRect core.rect with rect := rect }
    (rect.size != core.rect.size, moved.invalidateRect rect)

/-- Shows or hides the view. A hidden view loses the focus. -/
def setVisible (core : ViewCore K) (visible : Bool) : ViewCore K :=
  { core with visible := visible, focused := core.focused && visible }.invalidate

def setFocusable (core : ViewCore K) (focusable : Bool) : ViewCore K :=
  { core with focusable := focusable }

/-- Sets the focus flag. Tells whether it has changed. -/
def setFocused (core : ViewCore K) (focused : Bool) : Bool × ViewCore K :=
  if core.focused = focused then (false, core)
  else (true, { core with focused := focused }.invalidate)

/-- Attaches the view to a parent or detaches it. A detached view loses the focus. -/
def setParent (core : ViewCore K) (parent : Option ViewId) : ViewCore K :=
  { core with parent := parent, focused := core.focused && parent.isSome }

end ViewCore

end WidgetToolkit
