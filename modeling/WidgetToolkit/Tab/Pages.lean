import WidgetToolkit.Text.Quoted
import WidgetToolkit.View.Placement

/-!
# The pages of a tab

Adding, removing and selecting pages. The first page is selected when it comes. When the selected page
goes, the page after it is selected, or the first one after the last. At most one page is visible, the
selected one.

The operations on items tell whether the selection has changed and take the pages as they are; those
on pages keep pages and items in step and tell observers of changes.
-/

namespace WidgetToolkit

namespace Tab

variable {K : Type} [Coord K]

/-- Shows or hides a page, and its item with it. -/
def showAt (tab : Tab K) (index : Nat) (shown : Bool) : Tab K :=
  { tab with
    strip := tab.strip.modifyItem index (·.setSelected shown)
    pages := tab.pages.modify index (·.setVisible shown) }

/-- The selection at an index: what it was at is hidden, and what is there is shown. -/
def moveSelection (tab : Tab K) (index : Nat) : Tab K :=
  let cleared :=
    match tab.strip.selected with
    | some previous => if previous = index then tab else tab.showAt previous false
    | none => tab
  let shown := cleared.showAt index true
  { shown with strip := { shown.strip with selected := some index } }

/-! ## Items -/

/-- Selects an item. Selecting the selected item counts as a change only if the settings say so. -/
def selectItem (tab : Tab K) (id : ViewId) : Told (Notice K) (Bool × Tab K) :=
  match tab.strip.indexOf? id with
  | none => return (false, tab)
  | some index =>
    if tab.strip.selected = some index ∧ tab.strip.settings.notifyOnReselect = false then
      return (false, tab)
    else do return (true, ← layout (tab.moveSelection index))

def selectItemAt (tab : Tab K) (index : Nat) : Told (Notice K) (Bool × Tab K) :=
  match tab.strip.items[index]? with
  | some entry => tab.selectItem entry.core.id
  | none => return (false, tab)

/-- Adds an item behind the others. The first one is selected. -/
def addItem (tab : Tab K) (title : String) : Told (Notice K) (Bool × Tab K) := do
  let longer := { tab with strip := tab.strip.pushItem title }
  let (changed, longer) ←
    if longer.strip.items.length = 1 then longer.selectItemAt 0 else pure (false, longer)
  if changed then return (true, longer) else return (false, ← longer.layout)

/-- The selection, as if the item at an index were gone. The item is still there. -/
def passSelection (tab : Tab K) (index : Nat) : Bool × Tab K :=
  let strip := tab.strip
  match strip.selected with
  | none => (false, tab)
  | some selected =>
    if selected = index then
      if strip.items.length = 1 then
        (true, { tab with strip := { strip with selected := none } })
      else
        let successor := (index + 1) % strip.items.length
        let place := if index < successor then successor - 1 else successor
        let strip := strip.modifyItem successor (·.setSelected true)
        (true,
          { tab with
            strip := { strip with selected := some place }
            pages := tab.pages.modify place (·.setVisible true) })
    else if index < selected then
      (false, { tab with strip := { strip with selected := some (selected - 1) } })
    else (false, tab)

/-- Removes an item whose page has gone already. -/
def removeItemAt (tab : Tab K) (index : Nat) : Told (Notice K) (Bool × Tab K) :=
  match tab.strip.items[index]? with
  | none => return (false, tab)
  | some entry => do
    let (changed, tab) := tab.passSelection index
    return (changed, ← layout { tab with strip := tab.strip.eraseItem index entry.core.id })

/-! ## Pages -/

/-- Tells observers that the selected page has changed. -/
def announce (tab : Tab K) : Told (Notice K) Unit := Told.tell (.selectedPageChanged tab)

/-- A page as it is when it comes into a tab: attached, at the scale factor of the tab, and hidden
unless it is the first. -/
def attach (tab : Tab K) (page : View K) : Told (Notice K) (View K) := do
  let page := page.mapCore (·.setParent (some tab.strip.core.id))
  let scale := tab.strip.core.scale
  let page ← if page.core.scale != scale then page.place (.rescale scale) else pure page
  return if tab.pages.isEmpty then page else page.setVisible false

/-- Adds a page behind the others. -/
def addPage (tab : Tab K) (title : String) (page : View K) : Told (Notice K) (Tab K) := do
  let page ← tab.attach page
  let (changed, tab) ← addItem { tab with pages := tab.pages ++ [page] } title
  if changed then tab.announce
  return tab

/-- Removes a page and gives it back, detached. -/
def removePage (tab : Tab K) (index : Nat) : Told (Notice K) (Option (View K) × Tab K) :=
  match tab.pages[index]? with
  | none => return (none, tab)
  | some page => do
    let (changed, tab) ← removeItemAt { tab with pages := tab.pages.eraseIdx index } index
    if changed then tab.announce
    return (some (page.mapCore (·.setParent none)), tab)

/-- Selects a page. Nothing is done if there is none at the index. -/
def selectPage (tab : Tab K) (index : Nat) : Told (Notice K) (Tab K) := do
  let (changed, tab) ← tab.selectItemAt index
  if changed then tab.announce
  return tab

def pageTitle? (tab : Tab K) (index : Nat) : Option String :=
  tab.strip.items[index]?.map (·.title)

/-- The text for diagnostics, given the name of the tab. -/
def describe (tab : Tab K) (name : String) : String :=
  let titles := tab.strip.items.map fun entry => Text.quote entry.title
  let selected :=
    match tab.strip.selected with
    | some index => "Some(" ++ toString index ++ ")"
    | none => "None"
  "Tab \x7b id: ViewId(" ++ name ++ "), pages: [" ++ ", ".intercalate titles ++ "], selected: " ++
    selected ++ " \x7d"

/-- The smallest size that shows every title, in logical units. -/
def minimumSize (tab : Tab K) : Size K :=
  let size := tab.strip.minimumSize
  let scale := tab.strip.core.scale
  ⟨size.width / scale, size.height / scale⟩

end Tab

end WidgetToolkit
