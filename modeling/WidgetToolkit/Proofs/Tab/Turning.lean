import WidgetToolkit.Proofs.Tab.Refinement

/-! # Which page is selected

A tab turns from one page to another: its items and its pages stay the same ones, and in the same
order, whatever is selected among them. Nothing is asked of the flags of the items and the pages. -/

namespace WidgetToolkit

variable {K : Type}

/-- An index among so many, or none if there are none. -/
def Fits (count : Nat) : Option Nat → Prop
  | none => count = 0
  | some index => index < count

namespace Tab

variable {tab tab' tab'' : Tab K} {selected selected' : Option Nat}

/-- There are as many items as pages, and one of them is selected if there are any. -/
structure Paired (tab : Tab K) : Prop where
  length_eq : tab.strip.items.length = tab.pages.length
  fits : Fits tab.pages.length tab.strip.selected

/-- The identity of the selected page. -/
def currentId? (tab : Tab K) : Option ViewId := tab.selectedPage?.map View.id

theorem currentId?_eq (tab : Tab K) :
    tab.currentId? = tab.strip.selected.bind fun index => (tab.pages.map View.id)[index]? := by
  simp only [currentId?, selectedPage?, Option.map_bind, List.getElem?_map]
  rfl

theorem Paired.lt (h : tab.Paired) {index : Nat} (hselected : tab.strip.selected = some index) :
    index < tab.pages.length := by
  have hfits := h.fits
  rwa [hselected] at hfits

theorem Paired.pages_eq_nil (h : tab.Paired) (hselected : tab.strip.selected = none) :
    tab.pages = [] := by
  have hfits := h.fits
  rw [hselected] at hfits
  exact List.length_eq_zero_iff.mp hfits

end Tab

namespace View

/-- All tabs in a tree are paired. -/
def Paired (root : View K) : Prop := root.EveryTab Tab.Paired

/-- The view is still the same one, and its tabs are still paired. -/
structure Follows (view view' : View K) : Prop where
  paired : view.Paired → view'.Paired
  id_eq : view'.id = view.id

theorem Follows.refl (view : View K) : view.Follows view := ⟨fun h => h, rfl⟩

theorem Follows.trans (a b c : View K) (hab : a.Follows b) (hbc : b.Follows c) : a.Follows c :=
  ⟨fun h => hbc.paired (hab.paired h), hbc.id_eq.trans hab.id_eq⟩

theorem follows_mapCore (view : View K) {change : ViewCore K → ViewCore K}
    (hid : ∀ core : ViewCore K, (change core).id = core.id) : view.Follows (view.mapCore change) :=
  ⟨fun h => h.mapCore change fun _ htab => ⟨htab.length_eq, htab.fits⟩, by simp [id, hid]⟩

end View

namespace Tab

variable {tab tab' tab'' : Tab K} {selected selected' : Option Nat}

/-- The items and the pages of a tab are the same ones, and an index is selected. -/
structure Turns (tab : Tab K) (selected : Option Nat) (tab' : Tab K) : Prop where
  selected_eq : tab'.strip.selected = selected
  items_length : tab'.strip.items.length = tab.strip.items.length
  id_eq : tab'.strip.core.id = tab.strip.core.id
  pages : List.Forall₂ View.Follows tab.pages tab'.pages

theorem turns_refl (tab : Tab K) : tab.Turns tab.strip.selected tab :=
  ⟨rfl, rfl, rfl, List.forall₂_same.mpr fun page _ => .refl page⟩

theorem turns_withCore (tab : Tab K) {core : ViewCore K} (hid : core.id = tab.strip.core.id) :
    tab.Turns tab.strip.selected { tab with strip := { tab.strip with core := core } } :=
  ⟨rfl, rfl, hid, tab.turns_refl.pages⟩

theorem Turns.trans (h : tab.Turns selected tab') (h' : tab'.Turns selected' tab'') :
    tab.Turns selected' tab'' :=
  ⟨h'.selected_eq, h'.items_length.trans h.items_length, h'.id_eq.trans h.id_eq,
    forall₂_trans View.Follows.trans h.pages h'.pages⟩

theorem Turns.ids_eq (h : tab.Turns selected tab') :
    tab'.pages.map View.id = tab.pages.map View.id :=
  map_eq_of_forall₂ h.pages fun _ _ h => h.id_eq

theorem Turns.pages_length (h : tab.Turns selected tab') : tab'.pages.length = tab.pages.length :=
  h.pages.length_eq.symm

theorem Turns.paired (h : tab.Turns selected tab')
    (hlength : tab.strip.items.length = tab.pages.length)
    (hfits : Fits tab.pages.length selected) : tab'.Paired := by
  refine ⟨?_, ?_⟩
  · rw [h.items_length, h.pages_length, hlength]
  · rw [h.selected_eq, h.pages_length]
    exact hfits

theorem Turns.paired_toView (h : tab.Turns selected tab')
    (hlength : tab.strip.items.length = tab.pages.length) (hfits : Fits tab.pages.length selected)
    (hpages : ∀ page ∈ tab.pages, page.Paired) : tab'.toView.Paired :=
  View.everyTab_tab.mpr ⟨h.paired hlength hfits,
    forall_of_forall₂_imp (h.pages.imp fun _ _ h => h.paired) hpages⟩

theorem Turns.follows (h : tab.Turns selected tab')
    (hfits : tab.Paired → Fits tab.pages.length selected) : tab.toView.Follows tab'.toView := by
  refine ⟨fun hpaired => ?_, h.id_eq⟩
  obtain ⟨htab, hpages⟩ := View.everyTab_tab.mp hpaired
  exact h.paired_toView htab.length_eq (hfits htab) hpages

theorem Turns.currentId?_eq (h : tab.Turns selected tab') :
    tab'.currentId? = selected.bind fun index => (tab.pages.map View.id)[index]? := by
  rw [tab'.currentId?_eq, h.selected_eq, h.ids_eq]

/-- What does not turn a tab leaves the selected page what it is. -/
theorem Turns.currentId?_same (h : tab.Turns tab.strip.selected tab') :
    tab'.currentId? = tab.currentId? :=
  h.currentId?_eq.trans tab.currentId?_eq.symm

/-- The selected page is another one just if the index is another one. -/
theorem Turns.currentId?_ne_iff {index : Nat} (h : tab.Turns (some index) tab')
    (hpaired : tab.Paired) (hindex : index < tab.pages.length)
    (hnodup : (tab.pages.map View.id).Nodup) :
    tab'.currentId? ≠ tab.currentId? ↔ tab.strip.selected ≠ some index := by
  rw [h.currentId?_eq, tab.currentId?_eq, Option.bind_some, not_iff_not]
  cases hselected : tab.strip.selected with
  | none => simp [hpaired.pages_eq_nil hselected] at hindex
  | some before =>
      have hbefore := hpaired.lt hselected
      rw [Option.bind_some, List.getElem?_inj (by simpa using hindex) hnodup, Option.some.injEq,
        eq_comm]

end Tab

/-! ## What observers of tabs are told -/

/-- The tab whose observers are told that its selected page has changed. -/
def Notice.announced? : Notice K → Option (Tab K)
  | .selectedPageChanged tab => some tab
  | _ => none

def Notice.Quiet (notice : Notice K) : Prop := notice.announced? = none

namespace Told

variable {α β : Type}

/-- The tabs whose observers are told, as they are at that moment. -/
def announced (told : Told (Notice K) α) : List (Tab K) := told.notices.filterMap Notice.announced?

@[simp] theorem announced_pure (a : α) : (pure a : Told (Notice K) α).announced = [] := rfl

@[simp] theorem announced_bind (told : Told (Notice K) α) (next : α → Told (Notice K) β) :
    (told >>= next).announced = told.announced ++ (next told.value).announced :=
  List.filterMap_append

@[simp] theorem announced_map (f : α → β) (told : Told (Notice K) α) :
    (f <$> told).announced = told.announced := by
  rw [announced, map_notices, announced]

@[simp] theorem announced_announce (tab : Tab K) : tab.announce.announced = [tab] := rfl

theorem mem_announced_iff {told : Told (Notice K) α} {tab : Tab K} :
    tab ∈ told.announced ↔ .selectedPageChanged tab ∈ told.notices := by
  rw [announced, List.mem_filterMap]
  constructor
  · rintro ⟨notice, hm, hnotice⟩
    cases notice with
    | selectedPageChanged announced =>
        obtain rfl := Option.some.inj hnotice
        exact hm
    | _ => cases hnotice
  · exact fun hm => ⟨_, hm, rfl⟩

theorem Meets.announced_eq {told : Told (Notice K) α} {post : α → Prop}
    (h : told.Meets post Notice.Quiet) : told.announced = [] :=
  List.filterMap_eq_nil_iff.mpr h.notices

end Told

variable [Coord K]

/-! ## Layout -/

theorem Tab.turns_placeBy {place : Placement K → View K → Told (Notice K) (View K)}
    (hplace : ∀ placement, View.Keeps (fun _ => True) View.Follows Notice.Quiet (place placement))
    (tab : Tab K) (placement : Placement K) :
    (tab.placeBy place placement).Meets (tab.Turns tab.strip.selected) Notice.Quiet := by
  refine (meets_placeBy View.Follows.refl View.Follows.trans hplace tab (fun _ _ => trivial)
    placement).mono fun tab' h => ⟨?_, ?_, ?_, h.rel⟩
  · rw [h.strip_eq, TabStrip.placed_selected]
  · rw [h.strip_eq]
    simpa using congrArg List.length
      (TabStrip.map_placed_items (fun _ => ()) (fun _ _ => rfl) (fun _ _ => rfl) tab.strip placement)
  · rw [h.strip_eq, TabStrip.placed_core_id]

theorem View.follows_placeWithin (levels : Nat) (placement : Placement K) :
    View.Keeps (fun _ => True) View.Follows Notice.Quiet (View.placeWithin levels placement) := by
  induction levels generalizing placement with
  | zero => exact fun view _ => Told.meets_pure ⟨trivial, .refl view⟩
  | succ levels ih =>
      intro view _
      cases htab : view.tab? with
      | none =>
          have hsettled := settled_placeWithin htab (levels + 1) placement
          refine ⟨⟨trivial, hsettled.value.everyTab, hsettled.value.id_eq⟩, fun notice hm => ?_⟩
          rw [hsettled.notices notice hm]
          rfl
      | some tab =>
          obtain rfl := eq_toView_of_tab? htab
          refine (tab.turns_placeBy ih placement).bind fun tab' h => Told.meets_pure ⟨trivial, ?_⟩
          exact h.follows fun hpaired => hpaired.fits

theorem View.follows_place (view : View K) (placement : Placement K) :
    (view.place placement).Meets view.Follows Notice.Quiet :=
  (follows_placeWithin view.depth placement view trivial).mono fun _ h => h.2

namespace Tab

theorem turns_layout (tab : Tab K) :
    tab.layout.Meets (tab.Turns tab.strip.selected) Notice.Quiet :=
  have hplace : ∀ placement, View.Keeps (fun _ : View K => True) View.Follows Notice.Quiet
      (View.place placement) :=
    fun placement view h => View.follows_placeWithin view.depth placement view h
  tab.turns_placeBy hplace .layout

/-! ## Selecting -/

theorem turns_moveSelection (tab : Tab K) (index : Nat) :
    tab.Turns (some index) (tab.moveSelection index) := by
  refine ⟨rfl, by simp, by simp, ?_⟩
  refine forall₂_moveSelection View.Follows.refl View.Follows.trans ?_ tab index
  exact fun view shown => view.follows_mapCore fun core => core.setVisible_id shown

/-- Selecting an item turns the tab to it. Only the selected item may be left alone. -/
theorem selectItem_of_indexOf? {tab : Tab K} {id : ViewId} {index : Nat}
    (hindex : tab.strip.indexOf? id = some index) :
    (tab.selectItem id).Meets
      (fun result => tab.Turns (some index) result.2 ∧
        (result.1 = true ↔ tab.strip.selected ≠ some index ∨
          tab.strip.settings.notifyOnReselect = true)) Notice.Quiet := by
  simp only [selectItem, hindex]
  split
  · rename_i hagain
    refine Told.meets_pure ⟨?_, by simp [hagain]⟩
    exact hagain.1 ▸ tab.turns_refl
  · rename_i hnew
    refine (tab.moveSelection index).turns_layout.bind fun tab' h => Told.meets_pure ⟨?_, ?_⟩
    · exact (tab.turns_moveSelection index).trans h
    · simpa [or_iff_not_imp_left] using hnew

/-! ## Adding -/

theorem follows_attach (tab : Tab K) (page : View K) :
    (tab.attach page).Meets page.Follows Notice.Quiet := by
  have hparent := page.follows_mapCore fun core => core.setParent_id (some tab.strip.core.id)
  have hlast : ∀ view, page.Follows view →
      page.Follows (if tab.pages.isEmpty then view else view.setVisible false) := by
    intro view hview
    split
    · exact hview
    · exact hview.trans _ _ _ (view.follows_mapCore fun core => core.setVisible_id false)
  simp only [attach]
  split
  · exact (View.follows_place _ _).bind fun view h =>
      Told.meets_pure (hlast _ (hparent.trans _ _ _ h))
  · exact Told.meets_pure (hlast _ hparent)

/-- The first item that comes is selected. -/
theorem addItem_turns {tab : Tab K} (hpaired : tab.Paired) (title : String) (page : View K) :
    let longer : Tab K :=
      { tab with strip := tab.strip.pushItem title, pages := tab.pages ++ [page] }
    (Tab.addItem { tab with pages := tab.pages ++ [page] } title).Meets
      (fun result => longer.Turns (some (tab.strip.selected.getD 0)) result.2 ∧
        (result.1 = true ↔ tab.strip.selected = none)) Notice.Quiet := by
  intro longer
  let paged : Tab K := { tab with pages := tab.pages ++ [page] }
  change (paged.addItem title).Meets _ _
  cases hselected : tab.strip.selected with
  | none =>
      have hnil := hpaired.pages_eq_nil hselected
      have hitems : tab.strip.items = [] := by simpa [hnil] using hpaired.length_eq
      rw [addItem_of_nil (show paged.strip.items = [] from hitems) hselected]
      refine (longer.moveSelection 0).turns_layout.bind fun tab' h => Told.meets_pure ⟨?_, ?_⟩
      · exact (longer.turns_moveSelection 0).trans h
      · simp
  | some index =>
      have hlt := hpaired.lt hselected
      have hne : tab.pages ≠ [] := List.ne_nil_of_length_pos (Nat.zero_lt_of_lt hlt)
      have hitems : paged.strip.items ≠ [] := by
        simpa [paged, ← List.length_eq_zero_iff, hpaired.length_eq] using hne
      rw [addItem_of_ne_nil hitems]
      refine longer.turns_layout.bind fun tab' h => Told.meets_pure ⟨?_, by simp⟩
      exact (congrArg (longer.Turns · tab') hselected).mp h

/-! ## Removing -/

/-- What is selected when the page at an index has gone. -/
def successor (tab : Tab K) (index : Nat) : Option Nat :=
  tab.strip.selected.bind fun selected =>
    if selected = index then
      if tab.strip.items.length = 1 then none
      else some (if index + 1 < tab.strip.items.length then index else 0)
    else some (if index < selected then selected - 1 else selected)

/-- The selection passes on just if the selected item goes. -/
theorem passSelection_fst (tab : Tab K) (index : Nat) :
    (tab.passSelection index).1 = true ↔ tab.strip.selected = some index := by
  simp only [passSelection]
  cases tab.strip.selected with
  | none => simp
  | some selected =>
      simp only [Option.some.injEq]
      split
      · rename_i heq
        split <;> simp [heq]
      · rename_i hne
        split <;> simp [hne]

theorem turns_passSelection (tab : Tab K) {index : Nat} (hi : index < tab.strip.items.length) :
    tab.Turns (tab.successor index) (tab.passSelection index).2 := by
  refine ⟨tab.passSelection_selected hi, ?_, by simp, ?_⟩
  · simpa using congrArg List.length
      (map_items_passSelection (fun _ => ()) (fun _ _ => rfl) tab index)
  · apply forall₂_passSelection
    · exact View.Follows.refl
    · exact fun view shown => view.follows_mapCore fun core => core.setVisible_id shown

/-- The page at an index is left out of what the selection passes on among. -/
theorem removeItemAt_turns {tab : Tab K} {index : Nat} (hi : index < tab.strip.items.length) :
    let fewer : Tab K :=
      { tab with
        strip := { tab.strip with items := tab.strip.items.eraseIdx index }
        pages := tab.pages.eraseIdx index }
    (Tab.removeItemAt { tab with pages := tab.pages.eraseIdx index } index).Meets
      (fun result => fewer.Turns (tab.successor index) result.2 ∧
        (result.1 = true ↔ tab.strip.selected = some index)) Notice.Quiet := by
  intro fewer
  let without : Tab K := { tab with pages := tab.pages.eraseIdx index }
  have hitem : without.strip.items[index]? = some tab.strip.items[index] :=
    List.getElem?_eq_getElem hi
  have hpassed := without.turns_passSelection hi
  change (without.removeItemAt index).Meets _ _
  simp only [removeItemAt, hitem]
  refine (turns_layout _).bind fun tab' h => Told.meets_pure ⟨?_, without.passSelection_fst index⟩
  refine ⟨h.selected_eq.trans hpassed.selected_eq, ?_, h.id_eq.trans hpassed.id_eq,
    forall₂_trans View.Follows.trans hpassed.pages h.pages⟩
  have herased : ∀ items : List (TabItem K), items.length = tab.strip.items.length →
      (items.eraseIdx index).length = (tab.strip.items.eraseIdx index).length := by
    intro items hlength
    rw [List.length_eraseIdx, List.length_eraseIdx, hlength]
  exact h.items_length.trans (herased _ hpassed.items_length)

omit [Coord K] in
theorem Paired.fits_successor {tab : Tab K} (h : tab.Paired) {index : Nat}
    (hi : index < tab.pages.length) :
    Fits (tab.pages.eraseIdx index).length (tab.successor index) := by
  rw [List.length_eraseIdx_of_lt hi, successor, h.length_eq]
  cases hselected : tab.strip.selected with
  | none => simp [h.pages_eq_nil hselected] at hi
  | some selected =>
      have hlt := h.lt hselected
      simp only [Option.bind_some]
      split
      · split
        · simp only [Fits]
          omega
        · simp only [Fits]
          split <;> omega
      · simp only [Fits]
        split <;> omega

omit [Coord K] in
/-- The selected page is another one just if it is the one that goes. -/
theorem Paired.currentId?_successor {tab tab' fewer : Tab K} (h : tab.Paired) {index : Nat}
    (hi : index < tab.pages.length) (hnodup : (tab.pages.map View.id).Nodup)
    (hfewer : fewer.pages = tab.pages.eraseIdx index)
    (hturns : fewer.Turns (tab.successor index) tab') :
    tab'.currentId? ≠ tab.currentId? ↔ tab.strip.selected = some index := by
  rw [hturns.currentId?_eq, tab.currentId?_eq, hfewer, ← List.eraseIdx_map, successor, h.length_eq]
  cases hselected : tab.strip.selected with
  | none => simp [h.pages_eq_nil hselected] at hi
  | some selected =>
      have hlt := h.lt hselected
      have hget : (tab.pages.map View.id)[selected]? = some tab.pages[selected].id := by
        simp [hlt]
      simp only [Option.bind_some, Option.some.injEq]
      split
      · rename_i heq
        subst heq
        simp only [ne_eq, iff_true]
        split
        · simp [hget]
        · rename_i hone
          rw [Option.bind_some, List.getElem?_eraseIdx]
          have hother : ∀ other, other < tab.pages.length → other ≠ selected →
              ¬ (tab.pages.map View.id)[other]? = (tab.pages.map View.id)[selected]? := by
            intro other hother hne heq
            exact hne ((List.getElem?_inj (by simpa using hother) hnodup).mp heq)
          split
          · rename_i hnext
            rw [if_neg (Nat.lt_irrefl selected)]
            exact hother _ hnext (by omega)
          · rw [if_pos (by omega)]
            exact hother _ (by omega) (by omega)
      · rename_i hne
        simp only [Option.bind_some, ne_eq, hne, iff_false, not_not, List.getElem?_eraseIdx]
        split
        · rw [if_neg (by omega)]
          congr 1
          omega
        · rw [if_pos (by omega)]

/-! ## Observers -/

section

variable {tab : Tab K} (hpaired : tab.Paired)

include hpaired

omit [Coord K] in
/-- A page that comes is selected just if there was none. -/
theorem Paired.currentId?_added {tab' longer : Tab K} {page : View K}
    (hlonger : longer.pages = tab.pages ++ [page])
    (hturns : longer.Turns (some (tab.strip.selected.getD 0)) tab') :
    tab'.currentId? ≠ tab.currentId? ↔ tab.strip.selected = none := by
  rw [hturns.currentId?_eq, tab.currentId?_eq, hlonger, List.map_append, Option.bind_some]
  cases hselected : tab.strip.selected with
  | none => simp [hpaired.pages_eq_nil hselected]
  | some index =>
      have hlt : index < (tab.pages.map View.id).length := by simpa using hpaired.lt hselected
      simp only [Option.getD_some, Option.bind_some, List.getElem?_append_left hlt]
      simp

theorem addPage_turns (title : String) (page : View K) :
    ∃ page', page.Follows page' ∧
      Turns { tab with strip := tab.strip.pushItem title, pages := tab.pages ++ [page'] }
        (some (tab.strip.selected.getD 0)) (tab.addPage title page).value ∧
      (tab.addPage title page).announced =
        if tab.strip.selected = none then [(tab.addPage title page).value] else [] := by
  have hattached := tab.follows_attach page
  have hadded := addItem_turns hpaired title (tab.attach page).value
  refine ⟨_, hattached.value, ?_, ?_⟩
  · rw [addPage_value]
    exact hadded.value.1
  · rw [addPage_value, ← if_congr hadded.value.2 rfl rfl]
    simp only [addPage, Told.announced_bind, hattached.announced_eq, hadded.announced_eq,
      List.nil_append]
    split <;> simp

theorem removePage_turns {index : Nat} {page : View K} (hpage : tab.pages[index]? = some page) :
    (tab.removePage index).value.1 = some (page.mapCore (·.setParent none)) ∧
      Turns
        { tab with
          strip := { tab.strip with items := tab.strip.items.eraseIdx index }
          pages := tab.pages.eraseIdx index }
        (tab.successor index) (tab.removePage index).value.2 ∧
      (tab.removePage index).announced =
        if tab.strip.selected = some index then [(tab.removePage index).value.2] else [] := by
  have hi := (List.getElem?_eq_some_iff.mp hpage).1
  have hremoved := removeItemAt_turns (hpaired.length_eq ▸ hi)
  have hvalue : (tab.removePage index).value.2 =
      (removeItemAt { tab with pages := tab.pages.eraseIdx index } index).value.2 := by
    simp only [removePage, hpage, Told.bind_value]
    split <;> rfl
  refine ⟨?_, ?_, ?_⟩
  · simp only [removePage, hpage, Told.bind_value]
    split <;> rfl
  · rw [hvalue]
    exact hremoved.value.1
  · rw [hvalue, ← if_congr hremoved.value.2 rfl rfl]
    simp only [removePage, hpage, Told.announced_bind, hremoved.announced_eq, List.nil_append]
    split <;> simp

end

/-- What selecting a page comes to is told by what selecting its item does. -/
theorem selectPage_announced (tab : Tab K) {index : Nat} {entry : TabItem K}
    (hentry : tab.strip.items[index]? = some entry) :
    (tab.selectPage index).announced = (tab.selectItem entry.core.id).announced ++
      if (tab.selectItem entry.core.id).value.1 then [(tab.selectItem entry.core.id).value.2]
      else [] := by
  simp only [selectPage, selectItemAt, hentry, Told.announced_bind]
  split <;> simp

/-! ## Clicks -/

section

variable {tab : Tab K} (click : View K → Told (Notice K) (Bool × View K))
  {event : PointerEvent K}

/-- The item that a press or a release asks a tab to select. -/
def addressed? (tab : Tab K) (event : PointerEvent K) : Option Nat :=
  if tab.strip.core.isDisabled then none
  else
    (tab.strip.itemAt? event.position).filter fun index =>
      tab.strip.items[index]?.any (·.activates event)

/-- The item under the pointer is selected, and observers are told. -/
theorem clickBy_of_addressed? {index : Nat} (h : tab.addressed? event = some index) :
    ∃ entry, tab.strip.items[index]? = some entry ∧
      (tab.clickBy click event).value.2 = (tab.selectItem entry.core.id).value.2 ∧
      (tab.clickBy click event).announced = (tab.selectItem entry.core.id).announced ++
        if (tab.selectItem entry.core.id).value.1 then [(tab.selectItem entry.core.id).value.2]
        else [] := by
  unfold addressed? at h
  split at h
  · cases h
  · rename_i henabled
    obtain ⟨hitem, hactivates⟩ := Option.filter_eq_some_iff.mp h
    obtain ⟨entry, hentry, hactivates⟩ := (Option.any_eq_true _ _).mp hactivates
    refine ⟨entry, hentry, ?_⟩
    cases hchanged : (tab.selectItem entry.core.id).value.1 <;>
      simp [clickBy, henabled, routeBy, hitem, pressItem, hentry, hactivates, hchanged]

/-- Otherwise the selected page takes the click, or nothing does. -/
theorem clickBy_of_addressed?_none (h : tab.addressed? event = none) :
    ((tab.clickBy click event).value.2 = tab ∧ (tab.clickBy click event).announced = []) ∨
      ∃ (index : Nat) (page : View K), tab.pages[index]? = some page ∧
        (tab.clickBy click event).value.2 =
          { tab with pages := tab.pages.set index (click page).value.2 } ∧
        (tab.clickBy click event).announced = (click page).announced := by
  unfold addressed? at h
  by_cases hdisabled : tab.strip.core.isDisabled
  · exact .inl (by simp [clickBy, hdisabled])
  · rw [if_neg hdisabled, Option.filter_eq_none_iff] at h
    cases hitem : tab.strip.itemAt? event.position with
    | some index =>
        cases hentry : tab.strip.items[index]? with
        | none => exact .inl (by simp [clickBy, hdisabled, routeBy, hitem, pressItem, hentry])
        | some entry =>
            have hactivates : entry.activates event = false := by
              simpa [hentry] using h index hitem
            refine .inl ?_
            simp [clickBy, hdisabled, routeBy, hitem, pressItem, hentry, hactivates]
    | none =>
        cases hpageAt : tab.pageAt? event.position with
        | none => exact .inl (by simp [clickBy, hdisabled, routeBy, hitem, hpageAt])
        | some index =>
            cases hpage : tab.pages[index]? with
            | none => exact .inl (by simp [clickBy, hdisabled, routeBy, hitem, hpageAt, hpage])
            | some page =>
                refine .inr ⟨index, page, hpage, ?_⟩
                cases htaken : (click page).value.1 <;>
                  simp [clickBy, hdisabled, routeBy, hitem, hpageAt, hpage, htaken]

end

end Tab

end WidgetToolkit
