import WidgetToolkit.Proofs.View.Selection

/-! # Paging keeps the selections

Pages come and go and are selected, by the program or by the pointer, in a tab or in one of the tabs
below it. -/

namespace WidgetToolkit

variable {K : Type} [Coord K]

namespace Tab.Coherent

/-! ## Pages -/

theorem moveSelection {tab : Tab K} (hlength : tab.strip.items.length = tab.pages.length)
    (hpages : ∀ page ∈ tab.pages, page.Coherent) {index : Nat} (hi : index < tab.pages.length)
    (hitem : ∀ j item, j ≠ index → tab.strip.items[j]? = some item →
      (item.selected = true ↔ tab.strip.selected = some j))
    (hpage : ∀ j page, j ≠ index → tab.pages[j]? = some page →
      (page.core.visible = true ↔ tab.strip.selected = some j)) :
    tab.Upheld (tab.moveSelection index) := by
  refine ⟨⟨selection_moveSelection hlength hi hitem hpage, ?_⟩, by simp⟩
  have hmoved : List.Forall₂ (fun page page' => page.Coherent → page'.Coherent)
      tab.pages (tab.moveSelection index).pages := by
    apply forall₂_moveSelection
    · exact fun _ h => h
    · exact fun _ _ _ h h' => h' ∘ h
    · exact fun _ shown h => View.coherent_setVisible h shown
  exact forall_of_forall₂_imp hmoved hpages

theorem selectItem {tab : Tab K} (h : tab.Coherent) (id : ViewId) :
    (tab.selectItem id).Meets (fun result => tab.Upheld result.2) Notice.Coherent := by
  unfold Tab.selectItem
  split
  · exact Told.meets_pure h.upheld
  · rename_i index hindex
    split
    · exact Told.meets_pure h.upheld
    · have hlt := (List.findIdx?_eq_some_iff_getElem.mp hindex).1
      have hmoved : tab.Upheld (tab.moveSelection index) :=
        moveSelection h.selection.length_eq h.pages (h.selection.length_eq ▸ hlt)
          (fun j item _ => h.selection.item_selected j item)
          (fun j page _ => h.selection.page_visible j page)
      exact hmoved.coherent.layout.bind fun tab' h' => Told.meets_pure (hmoved.trans h')

theorem selectItemAt {tab : Tab K} (h : tab.Coherent) (index : Nat) :
    (tab.selectItemAt index).Meets (fun result => tab.Upheld result.2) Notice.Coherent := by
  unfold Tab.selectItemAt
  split
  · exact h.selectItem _
  · exact Told.meets_pure h.upheld

/-! ## Adding and removing -/

/-- A page that comes behind others is hidden. -/
theorem attach (tab : Tab K) {page : View K} (hpage : page.Coherent) :
    (tab.attach page).Meets
      (fun page' => page'.Coherent ∧ (tab.pages ≠ [] → page'.core.visible = false))
      Notice.Coherent := by
  have hparent := View.coherent_mapCore hpage (·.setParent (some tab.strip.core.id))
  have hlast : ∀ page' : View K, page'.Coherent →
      (if tab.pages.isEmpty then page' else page'.setVisible false).Coherent ∧
        (tab.pages ≠ [] →
          (if tab.pages.isEmpty then page' else page'.setVisible false).core.visible = false) := by
    intro page' h'
    cases tab.pages with
    | nil => simpa using h'
    | cons => simpa using View.coherent_setVisible h' false
  simp only [Tab.attach]
  split
  · exact (View.steady_place _ _ hparent).bind fun page' h' => Told.meets_pure (hlast page' h'.1)
  · exact Told.meets_pure (hlast _ hparent)

theorem addItem {tab : Tab K} (h : tab.Coherent) (title : String) {page : View K}
    (hpage : page.Coherent) (hhidden : tab.pages ≠ [] → page.core.visible = false) :
    (Tab.addItem { tab with pages := tab.pages ++ [page] } title).Meets
      (fun result => tab.Upheld result.2) Notice.Coherent := by
  let paged : Tab K := { tab with pages := tab.pages ++ [page] }
  let longer : Tab K := { paged with strip := tab.strip.pushItem title }
  have hlength := h.selection.length_eq
  have hpages : ∀ page' ∈ longer.pages, page'.Coherent := by
    simpa [paged, longer, or_imp, forall_and] using ⟨h.pages, hpage⟩
  change (paged.addItem title).Meets _ _
  by_cases hnil : tab.pages = []
  · have hitems : tab.strip.items = [] := by simpa [hnil] using hlength
    have hselected : paged.strip.selected = none := h.selection.selected_eq_none.mpr hnil
    rw [addItem_of_nil (show paged.strip.items = [] from hitems) hselected]
    have hmoved : longer.Upheld (longer.moveSelection 0) := by
      refine moveSelection ?_ hpages ?_ ?_ ?_
      · simp [paged, longer, TabStrip.pushItem, hlength]
      · simp [paged, longer]
      · intro j item hj hget
        simp [longer, TabStrip.pushItem, hitems, hj] at hget
      · intro j page hj hget
        simp [longer, paged, hnil, hj] at hget
    refine hmoved.coherent.layout.bind fun tab' h' => Told.meets_pure ?_
    exact ⟨h'.coherent, (hmoved.trans h').visible_eq⟩
  · have hitems : paged.strip.items ≠ [] := by
      simpa [← List.length_eq_zero_iff, paged, hlength] using hnil
    rw [addItem_of_ne_nil hitems]
    have hpushed : tab.Upheld longer :=
      ⟨⟨h.selection.push hnil title (hhidden hnil), hpages⟩, rfl⟩
    exact hpushed.coherent.layout.bind fun tab' h' => Told.meets_pure (hpushed.trans h')

omit [Coord K] in
/-- Observers are told of a tab that is in order. -/
theorem announced {α : Type} {tab : Tab K} (h : tab.Coherent) (changed : Prop)
    [Decidable changed] {a : α} {post : α → Prop} (ha : post a) :
    (do if changed then tab.announce
        return a).Meets post Notice.Coherent := by
  by_cases hchanged : changed
  · simp only [hchanged, if_true]
    refine (Told.meets_tell ?_).bind fun _ _ => Told.meets_pure ha
    exact h.selection
  · simp only [hchanged, if_false]
    exact Told.meets_pure ha

theorem addPage {tab : Tab K} (h : tab.Coherent) (title : String) {page : View K}
    (hpage : page.Coherent) : (tab.addPage title page).Meets tab.Upheld Notice.Coherent := by
  refine (attach tab hpage).bind fun page' h' => ?_
  refine (h.addItem title h'.1 h'.2).bind fun result hresult => ?_
  exact hresult.coherent.announced result.1 hresult

theorem selectPage {tab : Tab K} (h : tab.Coherent) (index : Nat) :
    (tab.selectPage index).Meets tab.Upheld Notice.Coherent := by
  refine (h.selectItemAt index).bind fun result hresult => ?_
  exact hresult.coherent.announced result.1 hresult

theorem removeItemAt {tab : Tab K} (h : tab.Coherent) {index : Nat}
    (hi : index < tab.pages.length) :
    (Tab.removeItemAt { tab with pages := tab.pages.eraseIdx index } index).Meets
      (fun result => tab.Upheld result.2) Notice.Coherent := by
  let fewer : Tab K := { tab with pages := tab.pages.eraseIdx index }
  obtain ⟨entry, hentry⟩ : ∃ entry, tab.strip.items[index]? = some entry :=
    ⟨_, List.getElem?_eq_getElem (h.selection.length_eq ▸ hi)⟩
  have hpages : ∀ page ∈ (fewer.passSelection index).2.pages, page.Coherent := by
    have hpassed : List.Forall₂ (fun page page' => page.Coherent → page'.Coherent)
        fewer.pages (fewer.passSelection index).2.pages := by
      apply forall₂_passSelection
      · exact fun _ h => h
      · exact fun _ shown h => View.coherent_setVisible h shown
    exact forall_of_forall₂_imp hpassed fun page hm => h.pages page (List.mem_of_mem_eraseIdx hm)
  let passed := (fewer.passSelection index).2
  have herased : tab.Upheld
      { passed with strip := passed.strip.eraseItem index entry.core.id } := by
    refine ⟨⟨h.selection.erase hi entry.core.id, hpages⟩, ?_⟩
    simp [TabStrip.eraseItem, passed, fewer]
  simp only [Tab.removeItemAt, hentry]
  exact herased.coherent.layout.bind fun tab' h' => Told.meets_pure (herased.trans h')

/-- A page that is given back is in order, too. -/
theorem removePage {tab : Tab K} (h : tab.Coherent) (index : Nat) :
    (tab.removePage index).Meets
      (fun result => (∀ page, result.1 = some page → page.Coherent) ∧ tab.Upheld result.2)
      Notice.Coherent := by
  unfold Tab.removePage
  split
  · exact Told.meets_pure ⟨by simp, h.upheld⟩
  · rename_i page hpage
    have hi := (List.getElem?_eq_some_iff.mp hpage).1
    have hcoherent := h.pages page (List.mem_of_getElem? hpage)
    refine (h.removeItemAt hi).bind fun result hresult => ?_
    refine hresult.coherent.announced result.1 ⟨?_, hresult⟩
    rintro _ ⟨⟩
    exact View.coherent_mapCore hcoherent (·.setParent none)

/-! ## The pointer -/

theorem track {tab : Tab K} (h : tab.Coherent) (p : Point K) :
    tab.Upheld { tab with strip := tab.strip.track p } := by
  refine h.withStrip ?_ ?_ ?_
  · simp only [TabStrip.track]
    split <;> simp
  · simp only [TabStrip.track]
    split <;> simp
  · simp only [TabStrip.track]
    split <;> simp

theorem untrack {tab : Tab K} (h : tab.Coherent) :
    tab.Upheld { tab with strip := tab.strip.untrack } := by
  refine h.withStrip ?_ ?_ ?_ <;> simp [TabStrip.untrack]

theorem moveBy {move : View K → Told (Notice K) (View K)} (hmove : View.Steady move) {tab : Tab K}
    (h : tab.Coherent) (p : Point K) : (tab.moveBy move p).Meets tab.Upheld Notice.Coherent := by
  have htracked := h.track p
  simp only [Tab.moveBy, forwardMoveBy]
  split
  · exact Told.meets_pure htracked
  · refine (Told.meets_modifyNth (fun page hm => ⟨h.pages page hm, rfl⟩)
      (fun page hm => hmove page (h.pages page hm)) _).bind fun pages hpages => ?_
    refine Told.meets_pure (htracked.trans (htracked.coherent.withPages ?_))
    exact hpages.imp fun _ _ h => ⟨fun _ => h.1, h.2⟩

theorem pressItem {tab : Tab K} (h : tab.Coherent) (index : Nat) (event : PointerEvent K) :
    (tab.pressItem index event).Meets (fun result => tab.Upheld result.2) Notice.Coherent := by
  unfold Tab.pressItem
  split
  · exact Told.meets_pure h.upheld
  · split
    · exact (h.selectItem _).bind fun result hresult => Told.meets_pure hresult
    · exact Told.meets_pure h.upheld

theorem routeBy {click : View K → Told (Notice K) (Bool × View K)} (hclick : View.SteadyClick click)
    {tab : Tab K} (h : tab.Coherent) (event : PointerEvent K) :
    (tab.routeBy click event).Meets (fun result => tab.Upheld result.2) Notice.Coherent := by
  unfold Tab.routeBy
  split
  · exact h.pressItem _ event
  · split
    · exact Told.meets_pure h.upheld
    · split
      · exact Told.meets_pure h.upheld
      · rename_i index _ page hpage
        have hcoherent := h.pages page (List.mem_of_getElem? hpage)
        refine (hclick page hcoherent).bind fun result hresult => Told.meets_pure ?_
        refine h.withPages (forall₂_set (fun page => ⟨id, rfl⟩) hpage ?_)
        exact ⟨fun _ => hresult.1, hresult.2⟩

theorem clickBy {click : View K → Told (Notice K) (Bool × View K)} (hclick : View.SteadyClick click)
    {tab : Tab K} (h : tab.Coherent) (event : PointerEvent K) :
    (tab.clickBy click event).Meets (fun result => tab.Upheld result.2) Notice.Coherent := by
  unfold Tab.clickBy
  split
  · exact Told.meets_pure h.upheld
  · refine (h.routeBy hclick event).bind fun result hresult => ?_
    exact hresult.coherent.announced _ hresult

end Tab.Coherent

namespace View

theorem steady_enter (event : PointerEvent K) : View.Steady (View.enter event) := by
  intro view h
  cases view with
  | probe => exact (Told.meets_tell trivial).bind fun _ _ => Told.meets_pure ⟨h, rfl⟩
  | item entry => exact Told.meets_pure ⟨everyTab_item _, by simp [SameVisible, core]⟩
  | panel | plain | group | tab => exact Told.meets_pure ⟨h, rfl⟩

theorem steady_leave (event : PointerEvent K) : View.Steady (View.leave event) := by
  intro view h
  cases view with
  | probe => exact (Told.meets_tell trivial).bind fun _ _ => Told.meets_pure ⟨h, rfl⟩
  | item entry => exact Told.meets_pure ⟨everyTab_item _, by simp [SameVisible, core]⟩
  | tab strip pages changed =>
      have hcoherent : Tab.Coherent ⟨strip, pages, changed⟩ := Tab.coherent_toView.mp h
      have hleft := hcoherent.untrack
      exact Told.meets_pure ⟨Tab.coherent_toView.mpr hleft.coherent, hleft.visible_eq⟩
  | panel | plain | group => exact Told.meets_pure ⟨h, rfl⟩

theorem steady_moveWithin (levels : Nat) (event : PointerEvent K) :
    View.Steady (View.moveWithin levels event) := by
  induction levels with
  | zero => exact fun view h => Told.meets_pure ⟨h, rfl⟩
  | succ levels ih =>
      intro view h
      cases view with
      | probe => exact (Told.meets_tell trivial).bind fun _ _ => Told.meets_pure ⟨h, rfl⟩
      | tab strip pages changed =>
          have hcoherent : Tab.Coherent ⟨strip, pages, changed⟩ := Tab.coherent_toView.mp h
          refine (hcoherent.moveBy ih event.position).bind fun tab' h' => Told.meets_pure ?_
          exact ⟨Tab.coherent_toView.mpr h'.coherent, h'.visible_eq⟩
      | panel | plain | group | item => exact Told.meets_pure ⟨h, rfl⟩

theorem steady_clickWithin (levels : Nat) (event : PointerEvent K) :
    View.SteadyClick (View.clickWithin levels event) := by
  induction levels with
  | zero => exact fun view h => Told.meets_pure ⟨h, rfl⟩
  | succ levels ih =>
      intro view h
      cases view with
      | panel core clicked =>
          simp only [clickWithin]
          split
          · exact Told.meets_pure ⟨h, rfl⟩
          · split
            · exact (Told.meets_tell trivial).bind fun _ _ => Told.meets_pure ⟨h, rfl⟩
            · exact Told.meets_pure ⟨h, rfl⟩
      | probe => exact (Told.meets_tell trivial).bind fun _ _ => Told.meets_pure ⟨h, rfl⟩
      | tab strip pages changed =>
          have hcoherent : Tab.Coherent ⟨strip, pages, changed⟩ := Tab.coherent_toView.mp h
          refine (hcoherent.clickBy ih event).bind fun result h' => Told.meets_pure ?_
          exact ⟨Tab.coherent_toView.mpr h'.coherent, h'.visible_eq⟩
      | plain | group | item => exact Told.meets_pure ⟨h, rfl⟩

theorem steady_move (event : PointerEvent K) : View.Steady (View.move event) :=
  fun view h => steady_moveWithin view.depth event view h

theorem steady_click (event : PointerEvent K) : View.SteadyClick (View.click event) :=
  fun view h => steady_clickWithin view.depth event view h

end View

end WidgetToolkit
