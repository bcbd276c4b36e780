import WidgetToolkit.View.Tree

/-!
# Keyboard focus

The focus of a window is the identity of the focused view, if there is one. The views of the tree
have a flag each, which follows it. Focus moves through the views that are shown: those that are
reached from the root through visible views only.
-/

namespace WidgetToolkit

variable {K : Type} [Coord K]

namespace View

/-! ## The views of a tree -/

/-- A view and that many levels of views below it, from above. -/
def allWithin : Nat → View K → List (View K)
  | 0, view => [view]
  | levels + 1, view => view :: (view.children false).flatMap (allWithin levels)

/-- A view and all views below it, shown or not, each before those below it. -/
def all (view : View K) : List (View K) := allWithin view.depth view

/-- The views below a view, in as many levels, that are reached through visible ones only. -/
def shownWithin : Nat → Bool → View K → List (View K)
  | 0, _, _ => []
  | levels + 1, reverse, view =>
    (view.children reverse).flatMap fun child =>
      if child.core.visible then shownWithin levels reverse child ++ [child] else []

/-- The views below a view that are reached through visible ones only, each after those below it. The
children of every container come in order or in reverse order. -/
def shown (reverse : Bool) (view : View K) : List (View K) := shownWithin view.depth reverse view

/-- Whether an identity is that of the view or of one below it, reached through visible ones only. -/
def shows (view : View K) (id : ViewId) : Bool :=
  view.core.visible && (view.id == id || (view.shown false).any (·.id == id))

mutual

/-- Changes the common part of a view and of all views below it. -/
def mapCores (change : ViewCore K → ViewCore K) : View K → View K
  | .group core widget children => .group (change core) widget (mapAllCores change children)
  | .tab strip pages changed =>
    let items := strip.items.map fun entry => { entry with core := change entry.core }
    .tab { strip with core := change strip.core, items := items } (mapAllCores change pages) changed
  | view => view.mapCore change

def mapAllCores (change : ViewCore K → ViewCore K) : List (View K) → List (View K)
  | [] => []
  | view :: rest => mapCores change view :: mapAllCores change rest

end

/-- Sets or clears the focus flag of the view with an identity. -/
def flagFocus (id : ViewId) (focused : Bool) (view : View K) : View K :=
  view.mapCores fun core => if core.id = id then (core.setFocused focused).2 else core

end View

/-! ## Searching for the next view -/

/-- What a search for the next view to focus knows. -/
structure Search where
  /-- The view that has the focus. -/
  focused : Option ViewId
  /-- Whether the next focusable view takes the focus. -/
  ready : Bool
deriving DecidableEq, Repr

/-- Where a search has got to, and what has become of what it has gone through. -/
structure Search.Outcome (α : Type) where
  /-- Whether a view has taken the focus, which ends the search. -/
  found : Bool
  search : Search
  visited : α

namespace Search

/-- A view is met. The focused one gives the focus up, for the next one that can have it. -/
def meet (search : Search) (core : ViewCore K) : Outcome (ViewCore K) :=
  if search.focused = some core.id then
    ⟨false, { search with ready := true }, (core.setFocused false).2⟩
  else if search.ready && core.focusable then
    ⟨true, { search with focused := some core.id }, (core.setFocused true).2⟩
  else ⟨false, search, core⟩

/-- Goes to the children of a view on the given ways until one has taken the focus. -/
def along (visit : Search → View K → Outcome (View K)) :
    List Branch → Search → View K → Outcome (View K)
  | [], search, view => ⟨false, search, view⟩
  | branch :: rest, search, view =>
    match view.branch? branch with
    | none => ⟨false, search, view⟩
    | some child =>
      let outcome := visit search child
      let view := view.replaceAt [branch] outcome.visited
      if outcome.found then ⟨true, outcome.search, view⟩ else along visit rest outcome.search view

/-- Searches a visible child, given how the views below it are searched. They come before it. -/
def visitBy (below : Search → View K → Outcome (View K)) (search : Search) (child : View K) :
    Outcome (View K) :=
  if !child.core.visible then ⟨false, search, child⟩
  else
    let outcome := below search child
    if outcome.found then outcome
    else
      let met := outcome.search.meet outcome.visited.core
      ⟨met.found, met.search, outcome.visited.mapCore fun _ => met.visited⟩

end Search

/-- Searches the views below a view, in as many levels. -/
def View.searchWithin : Nat → Bool → Search → View K → Search.Outcome (View K)
  | 0, _, search, view => ⟨false, search, view⟩
  | levels + 1, reverse, search, view =>
    Search.along (Search.visitBy (searchWithin levels reverse)) (view.branches reverse) search view

/-! ## Moving the focus -/

/-- The keyboard focus of a window. -/
structure Focus where
  focused : Option ViewId
deriving DecidableEq, Repr

namespace Focus

def new : Focus := ⟨none⟩

/-- Forgets a view if it is the focused one. Its flag is left as it is. -/
def forget (focus : Focus) (id : ViewId) : Focus :=
  if focus.focused = some id then ⟨none⟩ else focus

/-- Focuses a view. This fails, and changes nothing, if the view is not in the tree, hidden itself, or
not focusable. The view that is focused already is not looked for. -/
def moveTo (focus : Focus) (root : View K) (id : ViewId) : Bool × Focus × View K :=
  if focus.focused = some id then (true, focus, root)
  else if (root.all.find? (·.id == id)).any fun view => view.core.focusable && view.core.visible then
    let cleared :=
      match focus.focused with
      | some previous => root.flagFocus previous false
      | none => root
    (true, ⟨some id⟩, cleared.flagFocus id true)
  else (false, focus, root)

/-- Forgets the focused view if it is not shown. -/
def forgetHidden (focus : Focus) (root : View K) : Focus :=
  if focus.focused.all root.shows then focus else ⟨none⟩

/-- Moves the focus to the next focusable view that is shown, in order or in reverse order, and from
the last to the first. Tells whether a view has it now. -/
def advance (focus : Focus) (root : View K) (reverse : Bool) : Bool × Focus × View K :=
  let focus := focus.forgetHidden root
  if !root.isContainer then (false, focus, root)
  else
    let first := root.searchWithin root.depth reverse ⟨focus.focused, focus.focused.isNone⟩
    let outcome :=
      -- The focused view was the last one that can have the focus: begin again.
      if !first.found && first.search.ready && first.search.focused.isSome then
        first.visited.searchWithin root.depth reverse ⟨none, true⟩
      else first
    (outcome.found, ⟨outcome.search.focused⟩, outcome.visited)

end Focus

end WidgetToolkit
