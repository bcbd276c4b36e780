import WidgetToolkit.Tab.Item

/-!
# Tab strips

The strip of titles above the page area of a tab. Item `i` stands for page `i`; the pages themselves
belong to the tab. A strip covers the whole place of the tab: it knows the area of the page and lays
out its items from left to right.
-/

namespace WidgetToolkit

structure TabStrip (K : Type) where
  core : ViewCore K
  metrics : TextMetrics K
  settings : TabSettings K
  items : List (TabItem K)
  /-- The index of the selected item. -/
  selected : Option Nat
  /-- The height of the strip, once it has been computed for the present font and scale factor. -/
  heightCache : Option K
  /-- The item under the pointer. -/
  hovered : Option ViewId
  /-- The number of items made so far. -/
  made : Nat

variable {K : Type} [Coord K]

namespace TabStrip

def new (id : ViewId) (metrics : TextMetrics K) (settings : Settings K) : TabStrip K where
  core := .ofSettings id settings
  metrics := metrics
  settings := settings.tab
  items := []
  selected := none
  heightCache := none
  hovered := none
  made := 0

def indexOf? (strip : TabStrip K) (id : ViewId) : Option Nat :=
  strip.items.findIdx? (·.core.id == id)

/-- The first item at a point of the window. -/
def itemAt? (strip : TabStrip K) (p : Point K) : Option Nat :=
  strip.items.findIdx? (·.core.contains p)

def modifyItem (strip : TabStrip K) (index : Nat) (change : TabItem K → TabItem K) : TabStrip K :=
  { strip with items := strip.items.modify index change }

/-- An item with the looks of the strip. -/
def newItem (strip : TabStrip K) (title : String) : TabItem K :=
  let core : ViewCore K := .new (.item strip.core.id strip.made)
  let core := core.setFont strip.core.font |>.setColor strip.core.color
    |>.setScale strip.core.scale |>.setParent (some strip.core.id)
  .new core strip.metrics strip.settings title

def pushItem (strip : TabStrip K) (title : String) : TabStrip K :=
  { strip with
    items := strip.items ++ [strip.newItem title]
    made := strip.made + 1 }

/-- The strip without an item, of which index and identity are given. -/
def eraseItem (strip : TabStrip K) (index : Nat) (id : ViewId) : TabStrip K :=
  { strip with
    items := strip.items.eraseIdx index
    hovered := if strip.hovered = some id then none else strip.hovered }

/-! ## Measures -/

/-- The height of the strip for the present font and scale factor. -/
def measuredHeight (strip : TabStrip K) : K :=
  let scale := strip.core.scale
  let reference := strip.metrics.measure strip.settings.referenceText strip.core.font
  let two : K := (2 : Nat)
  let padding := two * strip.settings.verticalPadding + strip.settings.topPadding
  Coord.ceil (reference.height * scale) + padding * scale + 1

/-- The height of the strip: the computed one, if there is one. -/
def height (strip : TabStrip K) : K := strip.heightCache.getD strip.measuredHeight

/-- Keeps the height of the strip for later. -/
def rememberHeight (strip : TabStrip K) : TabStrip K :=
  { strip with heightCache := some strip.height }

/-- Asks for the height of the strip, which is kept from then on. -/
def askHeight (strip : TabStrip K) : K × TabStrip K := (strip.height, strip.rememberHeight)

/-- The smallest size that shows every title, in device pixels. -/
def minimumSize (strip : TabStrip K) : Size K :=
  let two : K := (2 : Nat)
  let padding := two * strip.settings.contentPadding * strip.core.scale
  let width := strip.items.foldl (fun width item => width + item.core.rect.width) 0
  ⟨width + padding, strip.height + padding⟩

/-- Asks for the smallest size. The height of the strip is kept from then on. -/
def askMinimumSize (strip : TabStrip K) : Size K × TabStrip K :=
  (strip.minimumSize, strip.rememberHeight)

/-! ## Layout -/

/-- Places items from left to right, each as wide as it prefers. Items that are not selected start
lower by `inset`. -/
def placeItems (origin : Point K) (height inset : K) : K → List (TabItem K) → List (TabItem K)
  | _, [] => []
  | x, item :: rest =>
    let corner : Point K := origin + (⟨x, 0⟩ : Offset K)
    let rect : Rect K := .ofOriginSize corner ⟨item.size.width, height⟩
    let placed := if item.selected then rect else { rect with y0 := rect.y0 + inset }
    item.allocate placed :: placeItems origin height inset (x + rect.width) rest

/-- The place of the page, below the strip and inside the padding. It has no negative extent. -/
def pageRect (strip : TabStrip K) : Rect K :=
  let bounds := strip.core.rect
  let padding := strip.settings.contentPadding * strip.core.scale
  let x0 := bounds.x0 + padding
  let y0 := bounds.y0 + padding + strip.height - strip.core.scale
  ⟨x0, y0, Coord.greatest (bounds.x1 - padding) x0, Coord.greatest (bounds.y1 - padding) y0⟩

/-- Lays out the items and repaints. -/
def layout (strip : TabStrip K) : TabStrip K :=
  let strip := strip.rememberHeight
  let items := placeItems strip.core.rect.origin strip.height
    (strip.settings.topPadding * strip.core.scale) 0 strip.items
  { strip with items := items, core := strip.core.invalidate }

/-! ## Looks -/

def setFont (strip : TabStrip K) (font : Font) : TabStrip K :=
  { strip with
    items := strip.items.map (·.setFont font)
    core := strip.core.setFont font
    heightCache := none }

def setColor (strip : TabStrip K) (color : Color) : TabStrip K :=
  { strip with
    items := strip.items.map (·.setColor color)
    core := (strip.core.setColor color).invalidate }

def setScale (strip : TabStrip K) (scale : K) : TabStrip K :=
  { strip with
    items := strip.items.map (·.setScale scale)
    core := strip.core.setScale scale
    heightCache := none }

/-- Draws the panel. Below a strip with items it starts at the last line of the strip. -/
def drawPanel (strip : TabStrip K) : List (PaintCall K) :=
  let bounds := strip.core.localBounds
  let panel :=
    if strip.items.isEmpty then bounds
    else { bounds with y0 := Coord.least (bounds.y0 + strip.height - 1) bounds.y1 }
  [.theme .tabPanel strip.core.state panel]

/-! ## The pointer -/

/-- Shows on an item whether the pointer is over it, if there is such an item. -/
def setHovered (strip : TabStrip K) (id : Option ViewId) (hovered : Bool) : TabStrip K :=
  match id.bind strip.indexOf? with
  | some index => strip.modifyItem index (·.setHovered hovered)
  | none => strip

/-- Follows the pointer to a point of the window. -/
def track (strip : TabStrip K) (p : Point K) : TabStrip K :=
  let target := (strip.itemAt? p).bind fun index => strip.items[index]?.map (·.core.id)
  if target = strip.hovered then strip
  else
    { (strip.setHovered strip.hovered false).setHovered target true with hovered := target }

/-- The pointer has left the tab. -/
def untrack (strip : TabStrip K) : TabStrip K :=
  { strip.setHovered strip.hovered false with hovered := none }

end TabStrip

end WidgetToolkit
