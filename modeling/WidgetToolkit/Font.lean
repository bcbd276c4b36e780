import WidgetToolkit.Decimal.Plain
import WidgetToolkit.Geometry.Rect

/-!
# Fonts and text metrics

A font is a family and a size in logical units. Metrics tell the extent of a text in a font, also in
logical units; what is laid out multiplies it by a scale factor.
-/

namespace WidgetToolkit

structure Font where
  family : String
  size : Float32
deriving BEq

namespace Font

def standard : Font := ⟨"sans-serif", 12.0⟩

def withSize (font : Font) (size : Float32) : Font := { font with size := size }

/-- The family and the size, as they are shown. -/
def describe (font : Font) : String := font.family ++ " " ++ Decimal.ofFloat32 font.size

end Font

/-- The extent of a text in a font. -/
structure TextMetrics (K : Type) where
  measure : String → Font → Size K

namespace TextMetrics

/-- Metrics where every character advances by the same fraction of the font size, and the line height
is another fraction of it. -/
def fixed (advance lineHeight : Float) : TextMetrics Float where
  measure text font :=
    let size := font.size.toFloat
    ⟨Float.ofNat text.length * size * advance, size * lineHeight⟩

def standard : TextMetrics Float := fixed 0.5 1.5

end TextMetrics

end WidgetToolkit
