import WidgetToolkit.Paint.Call
import WidgetToolkit.Pointer
import WidgetToolkit.View.Core

/-!
# Tab items

A tab item is a title in a tab strip. Its preferred size is the extent of the title with padding
around it, in device pixels, and is measured again whenever the title, the font or the scale factor
changes. Its state follows the selection: a selected item is pressed, any other normal or hovered.
-/

namespace WidgetToolkit

structure TabItem (K : Type) where
  core : ViewCore K
  metrics : TextMetrics K
  settings : TabSettings K
  title : String
  /-- The preferred size. -/
  size : Size K
  selected : Bool

variable {K : Type} [Coord K]

namespace TabItem

/-- The preferred size of the present title. -/
def measured (item : TabItem K) : Size K :=
  let scale := item.core.scale
  let extent := item.metrics.measure item.title item.core.font
  let two : K := (2 : Nat)
  { width := Coord.ceil (extent.width * scale) + two * item.settings.horizontalPadding * scale
    height := Coord.ceil (extent.height * scale) + two * item.settings.verticalPadding * scale }

/-- Measures the title again and repaints. -/
def remeasure (item : TabItem K) : TabItem K :=
  { item with size := item.measured, core := item.core.invalidate }

def setTitle (item : TabItem K) (title : String) : TabItem K := { item with title := title }.remeasure

/-- An item with the looks of a view. -/
def new (core : ViewCore K) (metrics : TextMetrics K) (settings : TabSettings K) (title : String) :
    TabItem K :=
  setTitle { core, metrics, settings, title := "", size := .zero, selected := false } title

def setSelected (item : TabItem K) (selected : Bool) : TabItem K :=
  { item with
    selected := selected
    core := item.core.setState (if selected then .pressed else .normal) }

/-- Whether a press or a release asks for the item to be selected: only a press of the primary button
does, on an item that is not disabled. -/
def activates (item : TabItem K) (event : PointerEvent K) : Bool :=
  !item.core.isDisabled && event.isPrimaryDown

/-- The pointer came in or went out. Only an item that is neither selected nor disabled shows it. -/
def setHovered (item : TabItem K) (hovered : Bool) : TabItem K :=
  if item.selected || item.core.isDisabled then item
  else { item with core := item.core.setState (if hovered then .hovered else .normal) }

def setScale (item : TabItem K) (scale : K) : TabItem K :=
  { item with core := item.core.setScale scale }.remeasure

def setFont (item : TabItem K) (font : Font) : TabItem K :=
  { item with core := item.core.setFont font }.remeasure

def setColor (item : TabItem K) (color : Color) : TabItem K :=
  { item with core := item.core.setColor color }

def allocate (item : TabItem K) (rect : Rect K) : TabItem K :=
  { item with core := (item.core.allocate rect).2 }

/-- Draws the background and the title. Below an item that is not selected, the last line is left to
the border of the panel. -/
def draw (item : TabItem K) : List (PaintCall K) :=
  let bounds := item.core.localBounds
  let rect := if item.selected then bounds else { bounds with y1 := bounds.y1 - 1 }
  [.theme .tabItem item.core.state rect,
    .text item.title rect (.centered item.core.font item.core.color)]

end TabItem

end WidgetToolkit
