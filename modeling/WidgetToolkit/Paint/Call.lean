import WidgetToolkit.Font
import WidgetToolkit.Theme.Style

/-!
# Drawing calls

Drawing a view gives the calls that are made on a painter. Coordinates are relative to an origin,
which containers move for their children between a save and a restore.
-/

namespace WidgetToolkit

inductive TextAlign where
  | start
  | center
  | finish
deriving DecidableEq, Repr

structure TextStyle where
  font : Font
  color : Color
  align : TextAlign
  valign : TextAlign

/-- Text in the middle of its rectangle. -/
def TextStyle.centered (font : Font) (color : Color) : TextStyle := ⟨font, color, .center, .center⟩

inductive PaintCall (K : Type) where
  | save
  | restore
  | translate (offset : Offset K)
  /-- Restricts drawing to a rectangle, within the present restriction. -/
  | clip (rect : Rect K)
  | fill (rect : Rect K) (color : Color)
  | theme (part : ThemePart) (state : ControlState) (rect : Rect K)
  | text (text : String) (rect : Rect K) (style : TextStyle)

end WidgetToolkit
