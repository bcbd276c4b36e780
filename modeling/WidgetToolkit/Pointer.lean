import WidgetToolkit.Geometry.Rect

/-!
# Pointer events

Positions are in window coordinates, in device pixels.
-/

namespace WidgetToolkit

inductive PointerButton where
  /-- The primary button. -/
  | left
  | right
  | middle
deriving DecidableEq, Repr

inductive PointerKind where
  | down
  | up
  | move
  | enter
  | leave
deriving DecidableEq, Repr

structure PointerEvent (K : Type) where
  kind : PointerKind
  button : Option PointerButton
  position : Point K
deriving BEq, Repr

namespace PointerEvent

variable {K : Type}

/-- The same event as one of another kind. -/
def withKind (event : PointerEvent K) (kind : PointerKind) : PointerEvent K :=
  { event with kind := kind }

/-- A press of the primary button. -/
def isPrimaryDown (event : PointerEvent K) : Bool :=
  event.kind == .down && event.button == some .left

end PointerEvent

end WidgetToolkit
