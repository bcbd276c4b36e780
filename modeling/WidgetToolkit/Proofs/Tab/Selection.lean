import Mathlib.Data.List.InsertIdx
import WidgetToolkit.Proofs.Lists
import WidgetToolkit.Proofs.Tab.Marks
import WidgetToolkit.Proofs.Told
import WidgetToolkit.Proofs.View.Core
import WidgetToolkit.View.Routing

/-! # The selection of a tab -/

namespace WidgetToolkit.Tab

variable {K : Type}

theorem mem_of_selectedPage? {tab : Tab K} {page : View K} (h : tab.selectedPage? = some page) :
    page ∈ tab.pages := by
  obtain ⟨index, -, hget⟩ := Option.bind_eq_some_iff.mp h
  exact List.mem_of_getElem? hget

/-! ## Items and pages in step -/

/-- Items and pages correspond, something is selected unless there is nothing, and the flags of the
items and the visibility of the pages both tell what it is. -/
structure Selection (tab : Tab K) : Prop where
  length_eq : tab.strip.items.length = tab.pages.length
  selected_eq_none : tab.strip.selected = none ↔ tab.pages = []
  selected_lt : ∀ index, tab.strip.selected = some index → index < tab.pages.length
  item_selected : ∀ index item, tab.strip.items[index]? = some item →
    (item.selected = true ↔ tab.strip.selected = some index)
  page_visible : ∀ index page, tab.pages[index]? = some page →
    (page.core.visible = true ↔ tab.strip.selected = some index)

theorem Selection.marks_items {tab : Tab K} (h : tab.Selection) :
    Marks (tab.strip.items.map (·.selected)) tab.strip.selected :=
  marks_map_iff.mpr h.item_selected

theorem Selection.marks_pages {tab : Tab K} (h : tab.Selection) :
    Marks (tab.pages.map (·.core.visible)) tab.strip.selected :=
  marks_map_iff.mpr h.page_visible

theorem Selection.length_eraseIdx {tab : Tab K} (h : tab.Selection) {index : Nat}
    (hi : index < tab.pages.length) :
    (tab.strip.items.eraseIdx index).length = tab.pages.length - 1 ∧
      (tab.pages.eraseIdx index).length = tab.pages.length - 1 := by
  rw [List.length_eraseIdx_of_lt hi, List.length_eraseIdx_of_lt (h.length_eq ▸ hi), h.length_eq]
  exact ⟨rfl, rfl⟩

theorem selection_of_marks {tab : Tab K} {index : Nat}
    (hlength : tab.strip.items.length = tab.pages.length) (hi : index < tab.pages.length)
    (hselected : tab.strip.selected = some index)
    (hitems : Marks (tab.strip.items.map (·.selected)) (some index))
    (hpages : Marks (tab.pages.map (·.core.visible)) (some index)) : tab.Selection := by
  refine ⟨hlength, ?_, ?_, ?_, ?_⟩
  · have hne : tab.pages ≠ [] := List.ne_nil_of_length_pos (Nat.zero_lt_of_lt hi)
    simp [hselected, hne]
  · intro other hother
    rw [hselected] at hother
    exact Option.some.inj hother ▸ hi
  · exact hselected ▸ marks_map_iff.mp hitems
  · exact hselected ▸ marks_map_iff.mp hpages

theorem selection_of_empty {tab : Tab K} (hitems : tab.strip.items = []) (hpages : tab.pages = [])
    (hselected : tab.strip.selected = none) : tab.Selection := by
  constructor <;> simp [hitems, hpages, hselected]

/-- The selection is a matter of flags only. -/
theorem Selection.congr {tab tab' : Tab K} (h : tab.Selection)
    (hitems : tab'.strip.items.map (·.selected) = tab.strip.items.map (·.selected))
    (hpages : tab'.pages.map (·.core.visible) = tab.pages.map (·.core.visible))
    (hselected : tab'.strip.selected = tab.strip.selected) : tab'.Selection := by
  have hlength : tab'.pages.length = tab.pages.length := by
    simpa using congrArg List.length hpages
  refine ⟨?_, ?_, ?_, ?_, ?_⟩
  · rw [hlength, ← h.length_eq]
    simpa using congrArg List.length hitems
  · rw [hselected, h.selected_eq_none, ← List.length_eq_zero_iff, ← List.length_eq_zero_iff,
      hlength]
  · rw [hselected, hlength]
    exact h.selected_lt
  · have hmarks := h.marks_items
    rw [← hitems, ← hselected] at hmarks
    exact marks_map_iff.mp hmarks
  · have hmarks := h.marks_pages
    rw [← hpages, ← hselected] at hmarks
    exact marks_map_iff.mp hmarks

/-- An item that is told apart from the others is found by its identity. -/
theorem indexOf?_of_nodup {strip : TabStrip K} (h : (strip.items.map (·.core.id)).Nodup)
    {index : Nat} {entry : TabItem K} (hentry : strip.items[index]? = some entry) :
    strip.indexOf? entry.core.id = some index := by
  obtain ⟨hi, rfl⟩ := List.getElem?_eq_some_iff.mp hentry
  refine List.findIdx?_eq_some_iff_getElem.mpr ⟨hi, beq_self_eq_true _, fun j hj heq => ?_⟩
  have hdistinct := List.pairwise_iff_getElem.mp (List.pairwise_map.mp h) j index
  exact hdistinct (Nat.lt_trans hj hi) hi hj (eq_of_beq heq)

/-- What a change of items leaves alone is the same for every item of the strip. -/
theorem map_modifyItem {α : Type} (read : TabItem K → α) {change : TabItem K → TabItem K}
    (hread : ∀ item, read (change item) = read item) (strip : TabStrip K) (index : Nat) :
    (strip.modifyItem index change).items.map read = strip.items.map read := by
  have hmodified : List.Forall₂ (fun item item' => read item' = read item) strip.items
      (strip.items.modify index change) := by
    apply forall₂_modify
    · exact fun _ => rfl
    · exact fun item _ => hread item
  exact map_eq_of_forall₂ hmodified fun _ _ h => h

variable [Coord K]

theorem selection_new (id : ViewId) (metrics : TextMetrics K) (settings : Settings K) :
    (Tab.new id metrics settings).Selection :=
  selection_of_empty rfl rfl rfl

/-! ## The pointer -/

@[simp] theorem setHovered_selected (item : TabItem K) (hovered : Bool) :
    (item.setHovered hovered).selected = item.selected := by
  unfold TabItem.setHovered
  split <;> rfl

@[simp] theorem setHovered_core_visible (item : TabItem K) (hovered : Bool) :
    (item.setHovered hovered).core.visible = item.core.visible := by
  unfold TabItem.setHovered
  split <;> simp

@[simp] theorem map_selected_setHovered (strip : TabStrip K) (id : Option ViewId) (hovered : Bool) :
    (strip.setHovered id hovered).items.map (·.selected) = strip.items.map (·.selected) := by
  unfold TabStrip.setHovered
  split
  · exact map_modifyItem (·.selected) (fun item => setHovered_selected item hovered) strip _
  · rfl

@[simp] theorem setHovered_strip_selected (strip : TabStrip K) (id : Option ViewId)
    (hovered : Bool) : (strip.setHovered id hovered).selected = strip.selected := by
  unfold TabStrip.setHovered
  split <;> rfl

@[simp] theorem setHovered_strip_core (strip : TabStrip K) (id : Option ViewId)
    (hovered : Bool) : (strip.setHovered id hovered).core = strip.core := by
  unfold TabStrip.setHovered
  split <;> rfl

/-! ## Moving the selection -/

theorem setSelected_selected (item : TabItem K) (selected : Bool) :
    (item.setSelected selected).selected = selected := rfl

theorem map_selected_showAt (tab : Tab K) (index : Nat) (shown : Bool) :
    (tab.showAt index shown).strip.items.map (·.selected) =
      (tab.strip.items.map (·.selected)).set index shown :=
  map_modify_eq_set (fun item => setSelected_selected item shown) tab.strip.items index

theorem map_visible_showAt (tab : Tab K) (index : Nat) (shown : Bool) :
    (tab.showAt index shown).pages.map (·.core.visible) =
      (tab.pages.map (·.core.visible)).set index shown :=
  map_modify_eq_set (fun page => View.core_setVisible_visible page shown) tab.pages index

theorem map_selected_moveSelection (tab : Tab K) (index : Nat) :
    (tab.moveSelection index).strip.items.map (·.selected) =
      (unmark (tab.strip.items.map (·.selected)) tab.strip.selected).set index true := by
  simp only [moveSelection, map_selected_showAt]
  cases tab.strip.selected with
  | none => rfl
  | some previous =>
      by_cases heq : previous = index
      · simp [heq, unmark]
      · simp [heq, unmark, map_selected_showAt]

theorem map_visible_moveSelection (tab : Tab K) (index : Nat) :
    (tab.moveSelection index).pages.map (·.core.visible) =
      (unmark (tab.pages.map (·.core.visible)) tab.strip.selected).set index true := by
  simp only [moveSelection, map_visible_showAt]
  cases tab.strip.selected with
  | none => rfl
  | some previous =>
      by_cases heq : previous = index
      · simp [heq, unmark]
      · simp [heq, unmark, map_visible_showAt]

@[simp] theorem moveSelection_core (tab : Tab K) (index : Nat) :
    (tab.moveSelection index).strip.core = tab.strip.core := by
  simp only [moveSelection]
  split
  · split <;> rfl
  · rfl

@[simp] theorem length_items_moveSelection (tab : Tab K) (index : Nat) :
    (tab.moveSelection index).strip.items.length = tab.strip.items.length := by
  simp only [moveSelection]
  split
  · split <;> simp [showAt, TabStrip.modifyItem]
  · simp [showAt, TabStrip.modifyItem]

@[simp] theorem length_pages_moveSelection (tab : Tab K) (index : Nat) :
    (tab.moveSelection index).pages.length = tab.pages.length := by
  simp only [moveSelection]
  split
  · split <;> simp [showAt]
  · simp [showAt]

section

variable {rel : View K → View K → Prop}

/-- Pages are only shown and hidden. -/
theorem forall₂_moveSelection (hrefl : ∀ view, rel view view)
    (htrans : ∀ a b c, rel a b → rel b c → rel a c)
    (hshow : ∀ view shown, rel view (view.setVisible shown)) (tab : Tab K) (index : Nat) :
    List.Forall₂ rel tab.pages (tab.moveSelection index).pages := by
  have hshowAt : ∀ (tab : Tab K) index shown,
      List.Forall₂ rel tab.pages (tab.showAt index shown).pages := fun tab index shown =>
    forall₂_modify hrefl fun page _ => hshow page shown
  simp only [moveSelection]
  split
  · split
    · exact hshowAt tab index true
    · exact forall₂_trans htrans (hshowAt tab _ false) (hshowAt _ index true)
  · exact hshowAt tab index true

theorem forall₂_passSelection (hrefl : ∀ view, rel view view)
    (hshow : ∀ view shown, rel view (view.setVisible shown)) (tab : Tab K) (index : Nat) :
    List.Forall₂ rel tab.pages (tab.passSelection index).2.pages := by
  have hsame : List.Forall₂ rel tab.pages tab.pages :=
    List.forall₂_same.mpr fun view _ => hrefl view
  simp only [passSelection]
  split
  · exact hsame
  · split
    · split
      · exact hsame
      · exact forall₂_modify hrefl fun page _ => hshow page true
    · split <;> exact hsame

end

/-- What the flags at the new index were does not matter. -/
theorem selection_moveSelection {tab : Tab K} {index : Nat}
    (hlength : tab.strip.items.length = tab.pages.length) (hi : index < tab.pages.length)
    (hitem : ∀ j item, j ≠ index → tab.strip.items[j]? = some item →
      (item.selected = true ↔ tab.strip.selected = some j))
    (hpage : ∀ j page, j ≠ index → tab.pages[j]? = some page →
      (page.core.visible = true ↔ tab.strip.selected = some j)) :
    (tab.moveSelection index).Selection := by
  have hitems : Marks ((tab.moveSelection index).strip.items.map (·.selected)) (some index) := by
    rw [map_selected_moveSelection]
    refine marks_move fun j flag hne hget => ?_
    rw [List.getElem?_map] at hget
    obtain ⟨item, hitemAt, rfl⟩ := Option.map_eq_some_iff.mp hget
    exact hitem j item hne hitemAt
  have hpages : Marks ((tab.moveSelection index).pages.map (·.core.visible)) (some index) := by
    rw [map_visible_moveSelection]
    refine marks_move fun j flag hne hget => ?_
    rw [List.getElem?_map] at hget
    obtain ⟨page, hpageAt, rfl⟩ := Option.map_eq_some_iff.mp hget
    exact hpage j page hne hpageAt
  exact selection_of_marks (by simp [hlength]) (by simpa using hi) rfl hitems hpages

/-! ## Adding and removing -/

/-- The first item is selected. -/
theorem addItem_of_nil {tab : Tab K} (hitems : tab.strip.items = [])
    (hselected : tab.strip.selected = none) (title : String) :
    tab.addItem title = do
      return (true, ← layout ({ tab with strip := tab.strip.pushItem title }.moveSelection 0)) := by
  simp [addItem, selectItemAt, selectItem, TabStrip.indexOf?, TabStrip.pushItem, hitems, hselected]

theorem addItem_of_ne_nil {tab : Tab K} (hitems : tab.strip.items ≠ []) (title : String) :
    tab.addItem title = do
      return (false, ← layout { tab with strip := tab.strip.pushItem title }) := by
  simp [addItem, TabStrip.pushItem, hitems]

@[simp] theorem passSelection_core (tab : Tab K) (index : Nat) :
    (tab.passSelection index).2.strip.core = tab.strip.core := by
  simp only [passSelection]
  split
  · rfl
  · split
    · split <;> rfl
    · split <;> rfl

/-- An item that is not selected and a page that is hidden come behind the others. -/
theorem Selection.push {tab : Tab K} (h : tab.Selection) (hne : tab.pages ≠ []) (title : String)
    {page : View K} (hpage : page.core.visible = false) :
    Selection { tab with strip := tab.strip.pushItem title, pages := tab.pages ++ [page] } := by
  obtain ⟨index, hselected⟩ : ∃ index, tab.strip.selected = some index :=
    Option.ne_none_iff_exists'.mp (mt h.selected_eq_none.mp hne)
  have hlength := h.length_eq
  have hi := h.selected_lt index hselected
  have hitems := h.marks_items
  have hpages := h.marks_pages
  rw [hselected] at hitems hpages
  refine selection_of_marks ?_ ?_ hselected ?_ ?_
  · simp [TabStrip.pushItem, hlength]
  · simp
    omega
  · have hitem : (tab.strip.newItem title).selected = false := rfl
    simpa [TabStrip.pushItem, hitem] using hitems.push (by simpa [hlength])
  · simpa [hpage] using hpages.push (by simpa)

section

variable {tab : Tab K} {index : Nat}

/-- The item after the one that goes is selected, and its page is shown. -/
theorem Selection.erase_selected (h : tab.Selection) (hi : index < tab.pages.length)
    (hselected : tab.strip.selected = some index) (id : ViewId) :
    let passed := ({ tab with pages := tab.pages.eraseIdx index }.passSelection index).2
    Selection { passed with strip := passed.strip.eraseItem index id } := by
  obtain ⟨hitemsLength, hpagesLength⟩ := h.length_eraseIdx hi
  have hlength := h.length_eq
  have hitems := h.marks_items
  have hpages := h.marks_pages
  rw [hselected] at hitems hpages
  simp only [passSelection, TabStrip.eraseItem, TabStrip.modifyItem, hselected, if_true]
  by_cases hone : tab.strip.items.length = 1
  · have hzero : tab.pages.length - 1 = 0 := by omega
    simp only [if_true, hone]
    exact selection_of_empty (List.length_eq_zero_iff.mp (hitemsLength.trans hzero))
      (List.length_eq_zero_iff.mp (hpagesLength.trans hzero)) rfl
  · have hplace := successorPlace_lt (hlength ▸ hi) hone
    simp only [hone, if_false]
    refine selection_of_marks ?_ ?_ rfl ?_ ?_
    · simp [List.length_eraseIdx, hlength]
    · rw [List.length_modify, hpagesLength, ← hlength]
      exact hplace
    · rw [← List.eraseIdx_map, map_modify_eq_set fun item => setSelected_selected item true,
        eraseIdx_set_successor (hlength ▸ hi) hone]
      exact hitems.eraseIdx_set _
    · rw [map_modify_eq_set fun page => View.core_setVisible_visible page true,
        ← List.eraseIdx_map]
      exact hpages.eraseIdx_set _

/-- What is selected stays selected. -/
theorem Selection.erase_other (h : tab.Selection) (hi : index < tab.pages.length) {selected : Nat}
    (hselected : tab.strip.selected = some selected) (hne : selected ≠ index) (id : ViewId) :
    let passed := ({ tab with pages := tab.pages.eraseIdx index }.passSelection index).2
    Selection { passed with strip := passed.strip.eraseItem index id } := by
  obtain ⟨hitemsLength, hpagesLength⟩ := h.length_eraseIdx hi
  have hbound := h.selected_lt selected hselected
  have hitems := h.marks_items
  have hpages := h.marks_pages
  rw [hselected] at hitems hpages
  have hitems' := List.eraseIdx_map _ _ index ▸ hitems.eraseIdx_of_ne hne
  have hpages' := List.eraseIdx_map _ _ index ▸ hpages.eraseIdx_of_ne hne
  simp only [passSelection, TabStrip.eraseItem, hselected, hne, if_false]
  split
  · rename_i hbefore
    rw [if_pos hbefore] at hitems' hpages'
    refine selection_of_marks (hitemsLength.trans hpagesLength.symm) ?_ rfl hitems' hpages'
    rw [hpagesLength]
    omega
  · rename_i hbehind
    rw [if_neg hbehind] at hitems' hpages'
    refine selection_of_marks (hitemsLength.trans hpagesLength.symm) ?_ hselected hitems' hpages'
    rw [hpagesLength]
    omega

/-- The page has gone first, and the item goes after the selection has passed on. -/
theorem Selection.erase (h : tab.Selection) (hi : index < tab.pages.length) (id : ViewId) :
    let passed := ({ tab with pages := tab.pages.eraseIdx index }.passSelection index).2
    Selection { passed with strip := passed.strip.eraseItem index id } := by
  obtain ⟨selected, hselected⟩ : ∃ selected, tab.strip.selected = some selected :=
    Option.ne_none_iff_exists'.mp
      (mt h.selected_eq_none.mp (List.ne_nil_of_length_pos (Nat.zero_lt_of_lt hi)))
  by_cases heq : selected = index
  · exact h.erase_selected hi (heq ▸ hselected) id
  · exact h.erase_other hi hselected heq id

end

end WidgetToolkit.Tab
