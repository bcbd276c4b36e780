import WidgetToolkit.Signal
import WidgetToolkit.Tab.Strip
import WidgetToolkit.Told
import WidgetToolkit.Widget

/-!
# View trees

A view is a panel, a tab with its pages, an item of a tab, or a view of the program's own: a plain
leaf, a probe that reports what reaches it, or a group with children. Tabs may be pages of tabs, to any
depth.
-/

namespace WidgetToolkit

inductive View (K : Type) where
  /-- A rectangle that can be clicked. The signal has the names of its listeners. -/
  | panel (core : ViewCore K) (clicked : Signal String)
  | plain (core : ViewCore K) (widget : WidgetType)
  /-- A leaf that reports pointer events and layouts, and may consume clicks. -/
  | probe (core : ViewCore K) (widget : WidgetType) (consumes : Bool)
  /-- A container that leaves its children where they are. -/
  | group (core : ViewCore K) (widget : WidgetType) (children : List (View K))
  | item (entry : TabItem K)
  /-- The signal has the names of the listeners to changes of the selected page. -/
  | tab (strip : TabStrip K) (pages : List (View K)) (changed : Signal String)

/-- A strip with its pages. Page `i` belongs to item `i`. -/
structure Tab (K : Type) where
  strip : TabStrip K
  pages : List (View K)
  changed : Signal String

/-- What a view can be told by the pointer. -/
inductive PointerCall where
  | enter
  | leave
  | move
  | click
deriving DecidableEq, Repr

/-- What observers are told. -/
inductive Notice (K : Type) where
  /-- A panel was pressed with the primary button. -/
  | clicked (panel : View K)
  /-- The selected page of a tab has changed. This is the tab at that moment. -/
  | selectedPageChanged (tab : Tab K)
  /-- The pointer has reached a probe. -/
  | reached (probe : ViewId) (call : PointerCall) (event : PointerEvent K)
  /-- A probe was laid out. -/
  | laidOut (probe : ViewId)

variable {K : Type} [Coord K]

namespace Tab

def toView (tab : Tab K) : View K := .tab tab.strip tab.pages tab.changed

def new (id : ViewId) (metrics : TextMetrics K) (settings : Settings K) : Tab K :=
  ⟨.new id metrics settings, [], .empty⟩

def selectedPage? (tab : Tab K) : Option (View K) :=
  tab.strip.selected.bind fun index => tab.pages[index]?

end Tab

namespace View

def core : View K → ViewCore K
  | .panel core _ => core
  | .plain core _ => core
  | .probe core _ _ => core
  | .group core _ _ => core
  | .item entry => entry.core
  | .tab strip _ _ => strip.core

/-- Changes the common part of a view, and nothing below it. -/
def mapCore (change : ViewCore K → ViewCore K) : View K → View K
  | .panel core clicked => .panel (change core) clicked
  | .plain core widget => .plain (change core) widget
  | .probe core widget consumes => .probe (change core) widget consumes
  | .group core widget children => .group (change core) widget children
  | .item entry => .item { entry with core := change entry.core }
  | .tab strip pages changed =>
    .tab { strip with core := change strip.core } pages changed

def id (view : View K) : ViewId := view.core.id

def widget : View K → WidgetType
  | .panel .. => ⟨"natk-widgets", "Panel"⟩
  | .plain _ widget => widget
  | .probe _ widget _ => widget
  | .group _ widget _ => widget
  | .item _ => ⟨"natk-widgets", "TabItem"⟩
  | .tab .. => ⟨"natk-widgets", "Tab"⟩

def isContainer : View K → Bool
  | .group .. => true
  | .tab .. => true
  | _ => false

def tab? : View K → Option (Tab K)
  | .tab strip pages changed => some ⟨strip, pages, changed⟩
  | _ => none

def setVisible (view : View K) (visible : Bool) : View K := view.mapCore (·.setVisible visible)

mutual

/-- The number of views on the longest way down. -/
def depth : View K → Nat
  | .group _ _ children => depths children + 1
  | .tab _ pages _ => depths pages + 1
  | _ => 1

def depths : List (View K) → Nat
  | [] => 0
  | view :: rest => max (depth view) (depths rest)

end

end View

/-! ## Children -/

/-- Item 0, page 0, item 1, page 1 and so on, or by descending index. An item without a page ends the
sequence. -/
def Tab.sequence (tab : Tab K) (reverse : Bool) : List (View K) :=
  let indices := List.range tab.strip.items.length
  go (if reverse then indices.reverse else indices)
where
  go : List Nat → List (View K)
    | [] => []
    | index :: rest =>
      match tab.strip.items[index]?, tab.pages[index]? with
      | some item, some page => .item item :: page :: go rest
      | some item, none => [.item item]
      | none, _ => []

/-- Whether an identity is that of an item or of the selected page. -/
def Tab.hasChild (tab : Tab K) (id : ViewId) : Bool :=
  tab.selectedPage?.any (·.id == id) || tab.strip.items.any (·.core.id == id)

namespace View

/-- The children in order or in reverse order. -/
def children (view : View K) (reverse : Bool) : List (View K) :=
  match view with
  | .group _ _ children => if reverse then children.reverse else children
  | .tab strip pages changed => Tab.sequence ⟨strip, pages, changed⟩ reverse
  | _ => []

/-- Whether an identity is that of a present child. Only containers have an answer. -/
def hasChild? (view : View K) (id : ViewId) : Option Bool :=
  match view with
  | .group _ _ children => some (children.any (·.id == id))
  | .tab strip pages changed => some (Tab.hasChild ⟨strip, pages, changed⟩ id)
  | _ => none

end View

/-! ## Addresses -/

/-- One step of the way to a view below another. -/
inductive Branch where
  /-- A page of a tab, or a child of a group. -/
  | child (index : Nat)
  /-- An item of a tab. -/
  | item (index : Nat)
deriving DecidableEq, Repr

namespace View

def branch? (view : View K) : Branch → Option (View K)
  | .child index =>
    match view with
    | .group _ _ children => children[index]?
    | .tab _ pages _ => pages[index]?
    | _ => none
  | .item index =>
    match view with
    | .tab strip _ _ => strip.items[index]?.map .item
    | _ => none

/-- The ways to the children, in order or in reverse order. In a tab, the way to a page comes after
the way to its item. -/
def branches (view : View K) (reverse : Bool) : List Branch :=
  let indices (count : Nat) := if reverse then (List.range count).reverse else List.range count
  match view with
  | .group _ _ children => (indices children.length).map .child
  | .tab strip _ _ =>
    (indices strip.items.length).flatMap fun index => [.item index, .child index]
  | _ => []

/-- The view at an address. -/
def at? (view : View K) : List Branch → Option (View K)
  | [] => some view
  | branch :: path => (view.branch? branch).bind (·.at? path)

/-- Replaces the view at an address. Only an item can take the place of an item. -/
def replaceAt (view : View K) (path : List Branch) (new : View K) : View K :=
  match path, view with
  | [], _ => new
  | .child index :: path, .group core widget children =>
    .group core widget (children.modify index (·.replaceAt path new))
  | .child index :: path, .tab strip pages changed =>
    .tab strip (pages.modify index (·.replaceAt path new)) changed
  | .item index :: _, .tab strip pages changed =>
    match new with
    | .item entry => .tab (strip.modifyItem index fun _ => entry) pages changed
    | _ => view
  | _, _ => view

end View

/-! ## Visits -/

/-- What a visitor makes of a view that it is shown. -/
structure Visited (K σ : Type) where
  /-- What the visitor knows from then on. -/
  state : σ
  /-- The view as the visitor leaves it. -/
  view : View K
  /-- Whether the visitor wants to see more. -/
  more : Bool

namespace View

/-- Shows the views on some branches to a visitor, one after the other, until it has seen enough. The
visitor may change them. A branch with nothing on it ends the visit. -/
def visitAlong {σ : Type} (visitor : σ → View K → Visited K σ) :
    List Branch → σ → View K → σ × View K
  | [], state, view => (state, view)
  | branch :: rest, state, view =>
    match view.branch? branch with
    | none => (state, view)
    | some child =>
      let visited := visitor state child
      let view := view.replaceAt [branch] visited.view
      if visited.more then visitAlong visitor rest visited.state view else (visited.state, view)

/-- Shows the children to a visitor, in order or in reverse order. -/
def visit {σ : Type} (visitor : σ → View K → Visited K σ) (reverse : Bool) (state : σ)
    (view : View K) : σ × View K :=
  visitAlong visitor (view.branches reverse) state view

end View

end WidgetToolkit
