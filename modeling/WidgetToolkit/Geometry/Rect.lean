import WidgetToolkit.Geometry.Coord

/-!
# Points, sizes and rectangles

A rectangle is two corners. Its upper edges are outside: two rectangles that share an edge share no
point. Nothing forces the corners apart, so a rectangle may have a negative extent; `abs` orders
the corners.
-/

namespace WidgetToolkit

structure Point (K : Type) where
  x : K
  y : K
deriving BEq, DecidableEq, Repr

structure Offset (K : Type) where
  dx : K
  dy : K
deriving BEq, DecidableEq, Repr

structure Size (K : Type) where
  width : K
  height : K
deriving BEq, DecidableEq, Repr

structure Rect (K : Type) where
  x0 : K
  y0 : K
  x1 : K
  y1 : K
deriving BEq, DecidableEq, Repr

variable {K : Type} [Coord K]

namespace Offset

def zero : Offset K := ⟨0, 0⟩

instance : Add (Offset K) := ⟨fun a b => ⟨a.dx + b.dx, a.dy + b.dy⟩⟩

end Offset

namespace Point

def origin : Point K := ⟨0, 0⟩

instance : HAdd (Point K) (Offset K) (Point K) := ⟨fun p o => ⟨p.x + o.dx, p.y + o.dy⟩⟩

instance : HSub (Point K) (Point K) (Offset K) := ⟨fun p q => ⟨p.x - q.x, p.y - q.y⟩⟩

end Point

namespace Size

def zero : Size K := ⟨0, 0⟩

end Size

namespace Rect

def zero : Rect K := ⟨0, 0, 0, 0⟩

def origin (r : Rect K) : Point K := ⟨r.x0, r.y0⟩

def width (r : Rect K) : K := r.x1 - r.x0

def height (r : Rect K) : K := r.y1 - r.y0

def size (r : Rect K) : Size K := ⟨r.width, r.height⟩

/-- The rectangle with the same corners in order. -/
def abs (r : Rect K) : Rect K :=
  ⟨Coord.least r.x0 r.x1, Coord.least r.y0 r.y1, Coord.greatest r.x0 r.x1, Coord.greatest r.y0 r.y1⟩

def ofOriginSize (p : Point K) (s : Size K) : Rect K :=
  abs ⟨p.x, p.y, p.x + s.width, p.y + s.height⟩

/-- Whether the area is zero. A negative area, or one that is not a number, is not. -/
def isEmpty (r : Rect K) : Bool := r.width * r.height == 0

def contains (r : Rect K) (p : Point K) : Bool :=
  decide (r.x0 ≤ p.x) && decide (p.x < r.x1) && decide (r.y0 ≤ p.y) && decide (p.y < r.y1)

/-- The smallest rectangle around two. -/
def union (r s : Rect K) : Rect K :=
  ⟨Coord.least r.x0 s.x0, Coord.least r.y0 s.y0, Coord.greatest r.x1 s.x1, Coord.greatest r.y1 s.y1⟩

/-- The common part of two rectangles. Where they have none its extent is zero, not negative. -/
def intersect (r s : Rect K) : Rect K :=
  let x0 := Coord.greatest r.x0 s.x0
  let y0 := Coord.greatest r.y0 s.y0
  ⟨x0, y0, Coord.greatest (Coord.least r.x1 s.x1) x0, Coord.greatest (Coord.least r.y1 s.y1) y0⟩

instance : HAdd (Rect K) (Offset K) (Rect K) :=
  ⟨fun r o => ⟨r.x0 + o.dx, r.y0 + o.dy, r.x1 + o.dx, r.y1 + o.dy⟩⟩

instance : HSub (Rect K) (Offset K) (Rect K) :=
  ⟨fun r o => ⟨r.x0 - o.dx, r.y0 - o.dy, r.x1 - o.dx, r.y1 - o.dy⟩⟩

end Rect

end WidgetToolkit
