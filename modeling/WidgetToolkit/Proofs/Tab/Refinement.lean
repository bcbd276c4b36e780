import Mathlib.Data.List.InsertIdx
import Mathlib.Logic.Relation
import WidgetToolkit.Proofs.Tab.Roll
import WidgetToolkit.Proofs.Tab.Selection
import WidgetToolkit.Proofs.View.Placement
import WidgetToolkit.Proofs.View.Tree

/-! # A tab shows its page roll -/

namespace WidgetToolkit

variable {K : Type} [Coord K]

/-! ## Pages in a tab -/

namespace View

/-- What a tab does to a page: it attaches or detaches it, shows or hides it, and places it. -/
inductive Handled : View K → View K → Prop
  | attached (view : View K) (parent : Option ViewId) :
      Handled view (view.mapCore (·.setParent parent))
  | shown (view : View K) (visible : Bool) : Handled view (view.setVisible visible)
  | placed (view : View K) (placement : Placement K) : Handled view (view.place placement).value

/-- A page as it was given, and what has become of it in a tab. -/
structure SamePage (given page : View K) : Prop where
  handled : Relation.ReflTransGen Handled given page
  id_eq : page.id = given.id

theorem place_id (view : View K) (placement : Placement K) :
    (view.place placement).value.id = view.id := by
  cases htab : view.tab? with
  | none => exact (settled_placeWithin htab view.depth placement).value.id_eq
  | some tab =>
      obtain rfl := eq_toView_of_tab? htab
      have hstrip := Tab.placeBy_strip (placeWithin (depths tab.pages)) tab placement
      exact (congrArg (·.core.id) hstrip).trans (TabStrip.placed_core_id _ _)

theorem SamePage.refl (view : View K) : view.SamePage view := ⟨.refl, rfl⟩

theorem SamePage.trans (a b c : View K) (hab : a.SamePage b) (hbc : b.SamePage c) : a.SamePage c :=
  ⟨hab.handled.trans hbc.handled, hbc.id_eq.trans hab.id_eq⟩

theorem samePage_setParent (view : View K) (parent : Option ViewId) :
    view.SamePage (view.mapCore (·.setParent parent)) :=
  ⟨.single (.attached view parent), by simp [id]⟩

theorem samePage_setVisible (view : View K) (visible : Bool) :
    view.SamePage (view.setVisible visible) :=
  ⟨.single (.shown view visible), by simp [id, setVisible]⟩

theorem samePage_place (view : View K) (placement : Placement K) :
    view.SamePage (view.place placement).value :=
  ⟨.single (.placed view placement), place_id view placement⟩

end View

namespace Tab

/-! ## The invariant -/

/-- A tab has the items and the pages of a page roll, whatever is selected. -/
structure Carries (tab : Tab K) (roll : PageRoll K) : Prop where
  ids : tab.strip.items.map (·.core.id) =
    roll.entries.map fun entry => .item tab.strip.core.id entry.number
  titles : tab.strip.items.map (·.title) = roll.entries.map (·.title)
  pages : List.Forall₂ View.SamePage (roll.entries.map (·.page)) tab.pages
  made : tab.strip.made = roll.made
  numbered : roll.Numbered

/-- The selection is that of the page roll, too. -/
structure Tracks (tab : Tab K) (roll : PageRoll K) : Prop extends tab.Carries roll where
  current : roll.CurrentAt tab.strip.selected

theorem tracks_new (id : ViewId) (metrics : TextMetrics K) (settings : Settings K) :
    (Tab.new id metrics settings).Tracks .empty :=
  ⟨⟨rfl, rfl, .nil, rfl, PageRoll.numbered_empty⟩, rfl, rfl⟩

section

variable {tab : Tab K} {roll : PageRoll K}

theorem Carries.length_items (h : tab.Carries roll) :
    tab.strip.items.length = roll.entries.length := by
  simpa using congrArg List.length h.titles

theorem Carries.length_pages (h : tab.Carries roll) : tab.pages.length = roll.entries.length := by
  simpa using h.pages.length_eq.symm

/-- What an item shows of its place and its looks does not matter. -/
theorem Carries.congr {tab' : Tab K} (h : tab.Carries roll)
    (hitems : ∀ {α : Type} (read : TabItem K → α),
      (∀ item rect, read (item.allocate rect) = read item) →
      (∀ item selected, read (item.setSelected selected) = read item) →
      tab'.strip.items.map read = tab.strip.items.map read)
    (hid : tab'.strip.core.id = tab.strip.core.id) (hmade : tab'.strip.made = tab.strip.made)
    (hpages : List.Forall₂ View.SamePage tab.pages tab'.pages) : tab'.Carries roll := by
  refine ⟨?_, ?_, ?_, hmade.trans h.made, h.numbered⟩
  · rw [hitems (·.core.id), h.ids, hid]
    · simp [TabItem.allocate]
    · simp [TabItem.setSelected]
  · rw [hitems (·.title) (fun _ _ => rfl) (fun _ _ => rfl), h.titles]
  · exact forall₂_trans View.SamePage.trans h.pages hpages

/-! ## Layout -/

theorem forall₂_layout (tab : Tab K) :
    List.Forall₂ View.SamePage tab.pages tab.layout.value.pages := by
  have hlaid : tab.layout.Meets (Became (fun _ => True) View.SamePage tab.strip.layout tab)
      fun _ => True := by
    apply meets_layoutBy
    · exact View.SamePage.refl
    · exact View.SamePage.trans
    · exact fun placement page _ =>
        ⟨⟨trivial, View.samePage_place page placement⟩, fun _ _ => trivial⟩
    · exact fun _ _ => trivial
  exact hlaid.value.rel

theorem Tracks.layout (h : tab.Tracks roll) : tab.layout.value.Tracks roll := by
  have hstrip : tab.layout.value.strip = tab.strip.layout := layoutBy_strip View.place tab
  refine ⟨h.toCarries.congr ?_ ?_ ?_ (forall₂_layout tab), ?_⟩
  · intro α read hallocate _
    rw [hstrip]
    exact TabStrip.map_layout_items read hallocate tab.strip
  · rw [hstrip, TabStrip.layout_core_id]
  · rw [hstrip]
    rfl
  · rw [hstrip]
    exact h.current

/-! ## The selection -/

theorem map_items_moveSelection {α : Type} (read : TabItem K → α)
    (hread : ∀ item selected, read (item.setSelected selected) = read item) (tab : Tab K)
    (index : Nat) : (tab.moveSelection index).strip.items.map read = tab.strip.items.map read := by
  have hshowAt : ∀ (tab : Tab K) index shown,
      (tab.showAt index shown).strip.items.map read = tab.strip.items.map read :=
    fun tab index shown => map_modifyItem read (fun item => hread item shown) tab.strip index
  simp only [moveSelection]
  split
  · split
    · exact hshowAt tab index true
    · rw [hshowAt, hshowAt]
  · exact hshowAt tab index true

theorem Carries.moveSelection (h : tab.Carries roll) {index : Nat}
    (hcurrent : roll.CurrentAt (some index)) : (tab.moveSelection index).Tracks roll := by
  refine ⟨h.congr ?_ (by simp) ?_ ?_, hcurrent⟩
  · exact fun read _ hselected => map_items_moveSelection read hselected tab index
  · simp only [Tab.moveSelection]
    split
    · split <;> rfl
    · rfl
  · apply forall₂_moveSelection
    · exact View.SamePage.refl
    · exact View.SamePage.trans
    · exact View.samePage_setVisible

/-- An item is found by its identity. -/
theorem Carries.indexOf? (h : tab.Carries roll) {index : Nat} {item : TabItem K}
    (hitem : tab.strip.items[index]? = some item) :
    tab.strip.indexOf? item.core.id = some index := by
  have hsame : some item.core.id =
      roll.entries[index]?.map fun entry => .item tab.strip.core.id entry.number := by
    simpa [hitem] using congrArg (·[index]?) h.ids
  obtain ⟨entry, hentry, hid⟩ := Option.map_eq_some_iff.mp hsame.symm
  calc
    tab.strip.indexOf? item.core.id
        = (tab.strip.items.map (·.core.id)).findIdx? (· == item.core.id) := by
          rw [List.findIdx?_map]
          rfl
    _ = roll.entries.findIdx? (·.number == entry.number) := by
          rw [h.ids, List.findIdx?_map, ← hid]
          congr 1
          funext other
          simp
    _ = some index := h.numbered.findIdx? hentry

theorem Carries.select (h : tab.Carries roll) (index : Nat) : tab.Carries (roll.select index) := by
  refine ⟨?_, ?_, ?_, ?_, h.numbered.select index⟩
  · rw [PageRoll.select_entries, h.ids]
  · rw [PageRoll.select_entries, h.titles]
  · rw [PageRoll.select_entries]
    exact h.pages
  · rw [PageRoll.select_made, h.made]

theorem selectPage_value (tab : Tab K) (index : Nat) :
    (tab.selectPage index).value = (tab.selectItemAt index).value.2 := by
  simp only [selectPage, Told.bind_value]
  split <;> rfl

theorem Tracks.selectPage (h : tab.Tracks roll) (index : Nat) :
    (tab.selectPage index).value.Tracks (roll.select index) := by
  rw [selectPage_value, selectItemAt]
  cases hitem : tab.strip.items[index]? with
  | none =>
      have hlength : roll.entries.length ≤ index := by
        rw [← h.length_items]
        exact List.getElem?_eq_none_iff.mp hitem
      rw [PageRoll.select, List.getElem?_eq_none hlength]
      exact h
  | some item =>
      have hi : index < roll.entries.length := by
        rw [← h.length_items]
        exact (List.getElem?_eq_some_iff.mp hitem).1
      have hcurrent := PageRoll.currentAt_select hi
      have hcarries := h.toCarries.select index
      simp only [selectItem, h.indexOf? hitem]
      split
      · rename_i hsame
        exact ⟨hcarries, hsame.1 ▸ hcurrent⟩
      · exact (hcarries.moveSelection hcurrent).layout

/-! ## Adding -/

theorem samePage_attach (tab : Tab K) (page : View K) :
    page.SamePage (tab.attach page).value := by
  have hparent := View.samePage_setParent page (some tab.strip.core.id)
  have hlast : ∀ view, page.SamePage view →
      page.SamePage (if tab.pages.isEmpty then view else view.setVisible false) := by
    intro view hview
    split
    · exact hview
    · exact hview.trans _ _ _ (View.samePage_setVisible view false)
  simp only [attach]
  split
  · exact hlast _ (hparent.trans _ _ _ (View.samePage_place _ _))
  · exact hlast _ hparent

theorem addPage_value (tab : Tab K) (title : String) (page : View K) :
    (tab.addPage title page).value =
      (addItem { tab with pages := tab.pages ++ [(tab.attach page).value] } title).value.2 := by
  simp only [addPage, Told.bind_value]
  split <;> rfl

theorem newItem_core_id (strip : TabStrip K) (title : String) :
    (strip.newItem title).core.id = .item strip.core.id strip.made := by
  simp only [TabStrip.newItem, TabItem.new, TabItem.setTitle, TabItem.remeasure]
  simp [ViewCore.new]

theorem Carries.push (h : tab.Carries roll) (title : String) {page page' : View K}
    (hpage : page.SamePage page') :
    Carries { tab with strip := tab.strip.pushItem title, pages := tab.pages ++ [page'] }
      (roll.add title page) := by
  refine ⟨?_, ?_, ?_, ?_, h.numbered.add title page⟩
  · simp [TabStrip.pushItem, PageRoll.add, h.ids, newItem_core_id, h.made]
  · simp only [TabStrip.pushItem, PageRoll.add, List.map_append, h.titles]
    rfl
  · simp only [PageRoll.add, List.map_append, List.map_cons, List.map_nil]
    exact List.rel_append h.pages (.cons hpage .nil)
  · simp [TabStrip.pushItem, PageRoll.add, h.made]

theorem Tracks.addPage (h : tab.Tracks roll) (title : String) (page : View K) :
    (tab.addPage title page).value.Tracks (roll.add title page) := by
  have hpushed := h.toCarries.push title (samePage_attach tab page)
  have hcurrent := h.current.add title page
  rw [addPage_value]
  by_cases hnil : roll.entries = []
  · have hitems : tab.strip.items = [] := by simpa [hnil] using h.length_items
    have hselected : tab.strip.selected = none := by
      cases hplace : tab.strip.selected with
      | none => rfl
      | some place => simpa [hplace, PageRoll.CurrentAt, hnil] using h.current
    rw [if_pos hnil] at hcurrent
    let paged : Tab K := { tab with pages := tab.pages ++ [(tab.attach page).value] }
    have hadded := addItem_of_nil (show paged.strip.items = [] from hitems) hselected title
    rw [hadded]
    exact (hpushed.moveSelection hcurrent).layout
  · have hitems : tab.strip.items ≠ [] := by
      simpa [← List.length_eq_zero_iff, h.length_items] using hnil
    rw [if_neg hnil] at hcurrent
    let paged : Tab K := { tab with pages := tab.pages ++ [(tab.attach page).value] }
    have hadded := addItem_of_ne_nil (show paged.strip.items ≠ [] from hitems) title
    rw [hadded]
    exact Tracks.layout ⟨hpushed, hcurrent⟩

/-! ## Removing -/

/-- Where the selection is when the item at an index has gone. -/
theorem passSelection_selected (tab : Tab K) {index : Nat} (hi : index < tab.strip.items.length) :
    (tab.passSelection index).2.strip.selected = tab.strip.selected.bind fun selected =>
      if selected = index then
        if tab.strip.items.length = 1 then none
        else some (if index + 1 < tab.strip.items.length then index else 0)
      else some (if index < selected then selected - 1 else selected) := by
  simp only [passSelection]
  cases hselected : tab.strip.selected with
  | none => exact hselected
  | some selected =>
      simp only [Option.bind_some]
      split
      · split
        · rfl
        · rw [successor_eq hi]
          split
          · simp
          · simp
      · split
        · rfl
        · exact hselected

theorem map_items_passSelection {α : Type} (read : TabItem K → α)
    (hread : ∀ item selected, read (item.setSelected selected) = read item) (tab : Tab K)
    (index : Nat) : (tab.passSelection index).2.strip.items.map read = tab.strip.items.map read := by
  simp only [passSelection]
  split
  · rfl
  · split
    · split
      · rfl
      · exact map_modifyItem read (fun item => hread item true) tab.strip _
    · split <;> rfl

theorem passSelection_made (tab : Tab K) (index : Nat) :
    (tab.passSelection index).2.strip.made = tab.strip.made := by
  simp only [passSelection]
  split
  · rfl
  · split
    · split <;> rfl
    · split <;> rfl

theorem removePage_value {tab : Tab K} {index : Nat} {page : View K} {item : TabItem K}
    (hpage : tab.pages[index]? = some page) (hitem : tab.strip.items[index]? = some item) :
    let fewer : Tab K := { tab with pages := tab.pages.eraseIdx index }
    let passed := (fewer.passSelection index).2
    let erased : Tab K := { passed with strip := passed.strip.eraseItem index item.core.id }
    (tab.removePage index).value =
      (some (page.mapCore (·.setParent none)), erased.layout.value) := by
  simp only [removePage, hpage, removeItemAt, hitem, Told.bind_value]
  split <;> rfl

theorem Carries.erase (h : tab.Carries roll) {index : Nat} (hi : index < roll.entries.length)
    (id : ViewId) :
    let passed := (passSelection { tab with pages := tab.pages.eraseIdx index } index).2
    Carries { passed with strip := passed.strip.eraseItem index id } (roll.remove index) := by
  let fewer : Tab K := { tab with pages := tab.pages.eraseIdx index }
  have hitems : ∀ {α : Type} (read : TabItem K → α),
      (∀ item selected, read (item.setSelected selected) = read item) →
      ((fewer.passSelection index).2.strip.items.eraseIdx index).map read =
        (tab.strip.items.map read).eraseIdx index := by
    intro α read hread
    rw [← List.eraseIdx_map, map_items_passSelection read hread]
  refine ⟨?_, ?_, ?_, ?_, h.numbered.remove index⟩
  · refine (hitems (·.core.id) (by simp [TabItem.setSelected])).trans ?_
    rw [h.ids, PageRoll.remove_of_lt hi, List.eraseIdx_map]
    simp [TabStrip.eraseItem]
  · refine (hitems (·.title) fun _ _ => rfl).trans ?_
    rw [h.titles, PageRoll.remove_of_lt hi, List.eraseIdx_map]
  · rw [PageRoll.remove_of_lt hi, ← List.eraseIdx_map]
    have hpassed : List.Forall₂ View.SamePage fewer.pages (fewer.passSelection index).2.pages := by
      apply forall₂_passSelection
      · exact View.SamePage.refl
      · exact View.samePage_setVisible
    exact forall₂_trans View.SamePage.trans (forall₂_eraseIdx h.pages index) hpassed
  · rw [PageRoll.remove_made, ← h.made]
    exact passSelection_made fewer index

theorem Tracks.currentAt_remove (h : tab.Tracks roll) {index : Nat}
    (hi : index < roll.entries.length) (pages : List (View K)) :
    (roll.remove index).CurrentAt
      (passSelection { tab with pages := pages } index).2.strip.selected := by
  have hitems := h.length_items
  rw [passSelection_selected _ (hitems ▸ hi)]
  have hcurrent := h.current
  cases hplace : tab.strip.selected with
  | none =>
      rw [hplace] at hcurrent
      simp [hcurrent.2] at hi
  | some place =>
      rw [hplace] at hcurrent
      simp only [Option.bind_some, hitems]
      split
      · rename_i heq
        subst heq
        exact hcurrent.remove_selected
      · rename_i hne
        exact hcurrent.remove_other h.numbered hi hne

theorem Tracks.removePage (h : tab.Tracks roll) (index : Nat) :
    (tab.removePage index).value.2.Tracks (roll.remove index) := by
  by_cases hi : index < roll.entries.length
  · have hpage := List.getElem?_eq_getElem (h.length_pages ▸ hi)
    have hitem := List.getElem?_eq_getElem (h.length_items ▸ hi)
    rw [removePage_value hpage hitem]
    exact Tracks.layout ⟨h.toCarries.erase hi _, h.currentAt_remove hi _⟩
  · have hle := Nat.le_of_not_lt hi
    rw [PageRoll.remove_of_le hle, Tab.removePage, List.getElem?_eq_none (h.length_pages ▸ hle)]
    exact h

/-! ## Histories -/

def edit (tab : Tab K) : PageEdit K → Tab K
  | .add title page => (tab.addPage title page).value
  | .remove index => (tab.removePage index).value.2
  | .select index => (tab.selectPage index).value

theorem Tracks.edits (h : tab.Tracks roll) (edits : List (PageEdit K)) :
    (edits.foldl edit tab).Tracks (edits.foldl PageRoll.edit roll) := by
  induction edits generalizing tab roll with
  | nil => exact h
  | cons change edits ih =>
      refine ih ?_
      cases change with
      | add title page => exact h.addPage title page
      | remove index => exact h.removePage index
      | select index => exact h.selectPage index

end

/-- What a program sees of a tab is what it would see of a page roll. -/
structure Shows (tab : Tab K) (roll : PageRoll K) : Prop where
  length : tab.pages.length = roll.entries.length
  title : ∀ index, tab.pageTitle? index = roll.entries[index]?.map (·.title)
  page : ∀ index : Nat,
    Option.Rel View.SamePage (roll.entries[index]?.map (·.page)) tab.pages[index]?
  selected : tab.strip.selected = roll.index?
  selectedPage : Option.Rel View.SamePage (roll.selected?.map (·.page)) tab.selectedPage?

theorem Tracks.shows {tab : Tab K} {roll : PageRoll K} (h : tab.Tracks roll) : tab.Shows roll := by
  have hpage : ∀ index : Nat,
      Option.Rel View.SamePage (roll.entries[index]?.map (·.page)) tab.pages[index]? := by
    intro index
    simpa using rel_getElem?_of_forall₂ h.pages index
  refine ⟨h.length_pages, ?_, hpage, (h.current.index?_eq h.numbered).symm, ?_⟩
  · intro index
    simpa [pageTitle?] using congrArg (·[index]?) h.titles
  · rw [h.current.selected?_eq h.numbered, selectedPage?]
    cases tab.strip.selected with
    | none => exact .none
    | some index => exact hpage index

/-- Whatever is done to the pages of a tab that was empty, it shows what the page roll does. The page
that an index stands for comes back detached, and an index that stands for none changes nothing. -/
theorem edits_shows (id : ViewId) (metrics : TextMetrics K) (settings : Settings K)
    (edits : List (PageEdit K)) :
    let tab := edits.foldl edit (Tab.new id metrics settings)
    tab.Shows (edits.foldl PageRoll.edit .empty) ∧
      (∀ index page, tab.pages[index]? = some page →
        ∃ removed, (tab.removePage index).value.1 = some removed ∧
          removed = page.mapCore (·.setParent none) ∧
          removed.core.parent = none ∧ removed.core.focused = false) ∧
      ∀ index, tab.pages.length ≤ index →
        tab.removePage index = pure (none, tab) ∧ tab.selectPage index = pure tab := by
  intro tab
  have htracks : tab.Tracks (edits.foldl PageRoll.edit .empty) :=
    (tracks_new id metrics settings).edits edits
  refine ⟨htracks.shows, ?_, ?_⟩
  · intro index page hpage
    have hi := (List.getElem?_eq_some_iff.mp hpage).1
    have hitem := List.getElem?_eq_getElem (htracks.length_items ▸ htracks.length_pages ▸ hi)
    rw [removePage_value hpage hitem]
    exact ⟨_, rfl, rfl, by simp [ViewCore.setParent], by simp [ViewCore.setParent]⟩
  · intro index hle
    have hitems : tab.strip.items[index]? = none := by
      rw [List.getElem?_eq_none_iff, htracks.length_items, ← htracks.length_pages]
      exact hle
    constructor
    · rw [removePage, List.getElem?_eq_none hle]
    · simp [selectPage, selectItemAt, hitems]

end Tab

end WidgetToolkit
