import WidgetToolkit.Proofs.View.Numbering
import WidgetToolkit.Proofs.View.Proper

/-! # Where a press goes

A press or a release over a tab is for the first item under the pointer, or else for the selected page
under the pointer, or else for nobody. From tab to tab it goes to selected pages only. -/

namespace WidgetToolkit

variable {K : Type} [Coord K]

/-! ## Who is under the pointer -/

/-- The first item at a point of the window. -/
structure TabStrip.FirstAt (strip : TabStrip K) (p : Point K) (index : Nat)
    (entry : TabItem K) : Prop where
  present : strip.items[index]? = some entry
  contains : entry.core.contains p = true
  first : ∀ before other, before < index → strip.items[before]? = some other →
    other.core.contains p = false

/-- No item is at a point of the window. -/
def TabStrip.Misses (strip : TabStrip K) (p : Point K) : Prop :=
  ∀ entry ∈ strip.items, entry.core.contains p = false

/-- The selected page, if it is visible and at a point of the window. -/
structure Tab.PageAt (tab : Tab K) (p : Point K) (index : Nat) (page : View K) : Prop where
  selected : tab.strip.selected = some index
  present : tab.pages[index]? = some page
  visible : page.core.visible = true
  contains : page.core.contains p = true

theorem TabStrip.itemAt?_eq_none_iff {strip : TabStrip K} {p : Point K} :
    strip.itemAt? p = none ↔ strip.Misses p :=
  List.findIdx?_eq_none_iff

theorem TabStrip.FirstAt.itemAt? {strip : TabStrip K} {p : Point K} {index : Nat}
    {entry : TabItem K} (h : strip.FirstAt p index entry) : strip.itemAt? p = some index := by
  obtain ⟨hi, hentry⟩ := List.getElem?_eq_some_iff.mp h.present
  refine List.findIdx?_eq_some_iff_getElem.mpr ⟨hi, hentry ▸ h.contains, fun j hj => ?_⟩
  rw [h.first j _ hj (List.getElem?_eq_getElem (Nat.lt_trans hj hi))]
  exact Bool.false_ne_true

theorem TabStrip.firstAt_of_itemAt? {strip : TabStrip K} {p : Point K} {index : Nat}
    (h : strip.itemAt? p = some index) : ∃ entry, strip.FirstAt p index entry := by
  obtain ⟨hi, hcontains, hfirst⟩ := List.findIdx?_eq_some_iff_getElem.mp h
  refine ⟨_, List.getElem?_eq_getElem hi, hcontains, fun before other hlt hother => ?_⟩
  obtain ⟨_, rfl⟩ := List.getElem?_eq_some_iff.mp hother
  simpa using hfirst before hlt

namespace Tab

variable {tab : Tab K} {p : Point K}

theorem PageAt.pageAt? {index : Nat} {page : View K} (h : tab.PageAt p index page) :
    tab.pageAt? p = some index := by
  rw [Tab.pageAt?, h.selected, Option.filter_some, h.present, Option.any_some, h.visible,
    h.contains]
  rfl

theorem PageAt.selectedPage? {index : Nat} {page : View K} (h : tab.PageAt p index page) :
    tab.selectedPage? = some page := by
  rw [Tab.selectedPage?, h.selected, Option.bind_some, h.present]

theorem pageAt_of_pageAt? {index : Nat} (h : tab.pageAt? p = some index) :
    ∃ page, tab.PageAt p index page := by
  obtain ⟨hselected, hany⟩ := Option.filter_eq_some_iff.mp h
  obtain ⟨page, hpage, hat⟩ := (Option.any_eq_true _ _).mp hany
  obtain ⟨hvisible, hcontains⟩ := Bool.and_eq_true_iff.mp hat
  exact ⟨page, hselected, hpage, hvisible, hcontains⟩

theorem pageAt?_eq_none_iff : tab.pageAt? p = none ↔ ∀ index page, ¬tab.PageAt p index page := by
  rw [Option.eq_none_iff_forall_ne_some]
  refine forall_congr' fun index => ⟨fun h page hpage => h hpage.pageAt?, fun h hpage => ?_⟩
  obtain ⟨page, hpage⟩ := pageAt_of_pageAt? hpage
  exact h page hpage

/-! ## One tab -/

variable {click : View K → Told (Notice K) (Bool × View K)} {event : PointerEvent K}

/-- The answer of a tab to a press or a release over an item. -/
def itemAnswer (tab : Tab K) (entry : TabItem K) (event : PointerEvent K) :
    Told (Notice K) (Bool × Tab K) :=
  if entry.activates event then do
    let (changed, tab) ← tab.selectItem entry.core.id
    if changed then tab.announce
    return (true, tab)
  else pure (true, tab)

theorem clickBy_of_disabled (h : tab.strip.core.isDisabled = true) :
    tab.clickBy click event = pure (true, tab) := by
  rw [clickBy, if_pos h]

theorem clickBy_of_firstAt (henabled : tab.strip.core.isDisabled = false) {index : Nat}
    {entry : TabItem K} (h : tab.strip.FirstAt event.position index entry) :
    tab.clickBy click event = tab.itemAnswer entry event := by
  simp only [clickBy, henabled, Bool.false_eq_true, if_false, routeBy, h.itemAt?, pressItem,
    h.present, itemAnswer]
  split
  · rw [bind_assoc]
    refine bind_congr fun answer => ?_
    obtain ⟨changed, tab'⟩ := answer
    cases changed <;> rfl
  · rfl

theorem clickBy_of_pageAt (henabled : tab.strip.core.isDisabled = false)
    (hmisses : tab.strip.Misses event.position) {index : Nat} {page : View K}
    (h : tab.PageAt event.position index page) :
    tab.clickBy click event = do
      let (taken, page) ← click page
      return (taken, { tab with pages := tab.pages.set index page }) := by
  simp only [clickBy, henabled, Bool.false_eq_true, if_false, routeBy,
    TabStrip.itemAt?_eq_none_iff.mpr hmisses, h.pageAt?, h.present]
  rw [bind_assoc]
  refine bind_congr fun answer => ?_
  obtain ⟨taken, page'⟩ := answer
  cases taken <;> rfl

theorem clickBy_of_misses (henabled : tab.strip.core.isDisabled = false)
    (hmisses : tab.strip.Misses event.position)
    (hnone : ∀ index page, ¬tab.PageAt event.position index page) :
    tab.clickBy click event = pure (false, tab) := by
  simp only [clickBy, henabled, Bool.false_eq_true, if_false, routeBy,
    TabStrip.itemAt?_eq_none_iff.mpr hmisses, pageAt?_eq_none_iff.mpr hnone]
  rfl

/-- The point is on an item, or on the selected page and on no item, or on neither. -/
theorem under_pointer (tab : Tab K) (p : Point K) :
    (∃ index entry, tab.strip.FirstAt p index entry) ∨
      tab.strip.Misses p ∧
        ((∃ index page, tab.PageAt p index page) ∨ ∀ index page, ¬tab.PageAt p index page) := by
  cases hitem : tab.strip.itemAt? p with
  | some index => exact .inl ⟨index, TabStrip.firstAt_of_itemAt? hitem⟩
  | none =>
      refine .inr ⟨TabStrip.itemAt?_eq_none_iff.mp hitem, ?_⟩
      by_cases hpage : ∃ index page, tab.PageAt p index page
      · exact .inl hpage
      · exact .inr fun index page h => hpage ⟨index, page, h⟩

/-- A tab asks no page but the selected one under the pointer. -/
theorem clickBy_congr {click' : View K → Told (Notice K) (Bool × View K)}
    (h : ∀ index page, tab.PageAt event.position index page → click page = click' page) :
    tab.clickBy click event = tab.clickBy click' event := by
  cases hdisabled : tab.strip.core.isDisabled with
  | true => rw [clickBy_of_disabled hdisabled, clickBy_of_disabled hdisabled]
  | false =>
      rcases tab.under_pointer event.position with
        ⟨index, entry, hitem⟩ | ⟨hmisses, ⟨index, page, hpage⟩ | hnone⟩
      · rw [clickBy_of_firstAt hdisabled hitem, clickBy_of_firstAt hdisabled hitem]
      · rw [clickBy_of_pageAt hdisabled hmisses hpage, clickBy_of_pageAt hdisabled hmisses hpage,
          h index page hpage]
      · rw [clickBy_of_misses hdisabled hmisses hnone, clickBy_of_misses hdisabled hmisses hnone]

/-- A press of the primary button selects the item, unless it is disabled, or is selected already
and the settings say that this does not count. -/
theorem itemAnswer_eq (h : tab.strip.Numbered) {index : Nat} {entry : TabItem K}
    (hentry : tab.strip.items[index]? = some entry) :
    tab.itemAnswer entry event =
      if (event.isPrimaryDown = true ∧ entry.core.isDisabled = false) ∧
          ¬(tab.strip.selected = some index ∧ tab.strip.settings.notifyOnReselect = false) then do
        let tab ← (tab.moveSelection index).layout
        tab.announce
        return (true, tab)
      else pure (true, tab) := by
  have hactivates : entry.activates event = true ↔
      event.isPrimaryDown = true ∧ entry.core.isDisabled = false := by
    rw [TabItem.activates, Bool.and_eq_true, Bool.not_eq_true', and_comm]
  simp only [itemAnswer, selectItem, h.indexOf? hentry, hactivates]
  by_cases hpressed : event.isPrimaryDown = true ∧ entry.core.isDisabled = false
  · by_cases hagain : tab.strip.selected = some index ∧
        tab.strip.settings.notifyOnReselect = false
    · simp only [hpressed, hagain, and_self, not_true_eq_false, and_false, if_true, if_false,
        pure_bind]
      rfl
    · simp only [hpressed, hagain, and_self, not_false_eq_true, if_true, if_false, bind_assoc,
        pure_bind]
  · simp only [hpressed, false_and, if_false]

end Tab

namespace View

/-! ## From tab to tab -/

/-- More levels than there are change nothing. -/
theorem clickWithin_eq_of_depth_le {view : View K} {levels levels' : Nat} (event : PointerEvent K)
    (h : view.depth ≤ levels) (h' : view.depth ≤ levels') :
    clickWithin levels event view = clickWithin levels' event view := by
  induction levels generalizing view levels' with
  | zero => exact absurd view.depth_pos (by omega)
  | succ levels ih =>
      cases levels' with
      | zero => exact absurd view.depth_pos (by omega)
      | succ levels' =>
          cases view with
          | tab strip pages changed =>
              have hpages : ∀ index page, Tab.PageAt ⟨strip, pages, changed⟩ event.position index
                  page → clickWithin levels event page = clickWithin levels' event page := by
                intro index page hpage
                have hm := List.mem_of_getElem? hpage.present
                exact ih (depths_le_iff.mp (Nat.le_of_succ_le_succ h) page hm)
                  (depths_le_iff.mp (Nat.le_of_succ_le_succ h') page hm)
              simp only [clickWithin, Tab.clickBy_congr hpages]
          | panel | plain | probe | group | item => rfl

/-- A tab answers a press or a release as its pages do. -/
theorem click_toView (tab : Tab K) (event : PointerEvent K) :
    tab.toView.click event = do
      let (taken, tab) ← tab.clickBy (View.click event) event
      return (taken, tab.toView) := by
  have hpages : ∀ index page, tab.PageAt event.position index page →
      clickWithin (depths tab.pages) event page = page.click event := by
    intro index page hpage
    have hm := List.mem_of_getElem? hpage.present
    exact clickWithin_eq_of_depth_le event (depths_le_iff.mp (Nat.le_refl _) page hm) (Nat.le_refl _)
  rw [← Tab.clickBy_congr hpages]
  rfl

/-- A press or a release at a point comes to the view at an address: from tab to tab it is passed on to
the selected page under the pointer, unless an item is there or the tab is disabled. -/
inductive Presses (event : PointerEvent K) : View K → List Branch → Prop
  | here (view : View K) : Presses event view []
  | page {tab : Tab K} {index : Nat} {page : View K} {path : List Branch}
      (henabled : tab.strip.core.isDisabled = false) (hmisses : tab.strip.Misses event.position)
      (hpage : tab.PageAt event.position index page) (hbelow : Presses event page path) :
      Presses event tab.toView (.child index :: path)

end View

omit [Coord K] in
/-- The view that a notice tells of, if it tells of a press or a release. -/
def Notice.pressed? : Notice K → Option ViewId
  | .clicked panel => some panel.id
  | .reached probe .click _ => some probe
  | _ => none

namespace View

/-- If a notice tells of a press or a release, then this one came to the view that it tells of. -/
def Hit (event : PointerEvent K) (view : View K) (notice : Notice K) : Prop :=
  ∀ id, notice.pressed? = some id →
    ∃ path below, Presses event view path ∧ view.at? path = some below ∧ below.id = id

theorem hit_of_none {event : PointerEvent K} {view : View K} {notice : Notice K}
    (h : notice.pressed? = none) : view.Hit event notice := fun id hid => by
  rw [h] at hid
  cases hid

theorem Hit.page {tab : Tab K} {event : PointerEvent K} {notice : Notice K} {index : Nat}
    {page : View K} (henabled : tab.strip.core.isDisabled = false)
    (hmisses : tab.strip.Misses event.position) (hpage : tab.PageAt event.position index page)
    (h : page.Hit event notice) : tab.toView.Hit event notice := fun id hid => by
  obtain ⟨path, below, hpresses, hat, hbelow⟩ := h id hid
  have hchild : tab.toView.branch? (.child index) = some page := hpage.present
  exact ⟨_, below, .page henabled hmisses hpage hpresses,
    (at?_cons_of_branch? hchild path).trans hat, hbelow⟩

/-- Placing a view tells of no press. -/
theorem unpressed_placeWithin (levels : Nat) (placement : Placement K) :
    View.Keeps (fun _ => True) (fun _ _ => True) (fun notice => notice.pressed? = none)
      (View.placeWithin levels placement) := by
  induction levels generalizing placement with
  | zero => exact fun view _ => Told.meets_pure ⟨trivial, trivial⟩
  | succ levels ih =>
      intro view _
      cases htab : view.tab? with
      | none =>
          refine ⟨⟨trivial, trivial⟩, fun notice hm => ?_⟩
          rw [(settled_placeWithin htab (levels + 1) placement).notices notice hm]
          rfl
      | some tab =>
          obtain rfl := eq_toView_of_tab? htab
          exact (Tab.meets_placeBy (fun _ => trivial) (fun _ _ _ _ _ => trivial) ih tab
            (fun _ _ => trivial) placement).bind fun _ _ => Told.meets_pure ⟨trivial, trivial⟩

end View

theorem Tab.unpressed_selectItem (tab : Tab K) (id : ViewId) :
    (tab.selectItem id).Meets (fun _ => True) fun notice => notice.pressed? = none := by
  have hlayout : ∀ tab : Tab K,
      tab.layout.Meets (fun _ => True) fun notice => notice.pressed? = none := fun tab =>
    (meets_layoutBy (fun _ => trivial) (fun _ _ _ _ _ => trivial)
      (fun placement view h => View.unpressed_placeWithin view.depth placement view h) tab
      fun _ _ => trivial).mono fun _ _ => trivial
  unfold selectItem
  split
  · exact Told.meets_pure trivial
  · split
    · exact Told.meets_pure trivial
    · exact (hlayout _).bind fun _ _ => Told.meets_pure trivial

namespace View

theorem hit_itemAnswer (tab : Tab K) (entry : TabItem K) (event : PointerEvent K) :
    (tab.itemAnswer entry event).Meets (fun _ => True) (tab.toView.Hit event) := by
  have hselected : (tab.selectItem entry.core.id).Meets (fun _ => True)
      (tab.toView.Hit event) :=
    ⟨trivial, fun notice hm => hit_of_none ((tab.unpressed_selectItem _).notices notice hm)⟩
  unfold Tab.itemAnswer
  split
  · refine hselected.bind fun ⟨changed, tab'⟩ _ => ?_
    cases changed with
    | false => exact Told.meets_pure trivial
    | true =>
        have hannounced : tab'.announce.Meets (fun _ => True) (tab.toView.Hit event) :=
          Told.meets_tell (hit_of_none rfl)
        exact hannounced.bind fun _ _ => Told.meets_pure trivial
  · exact Told.meets_pure trivial

/-- Only views that a press or a release comes to tell of it. -/
theorem hit_clickWithin (levels : Nat) (event : PointerEvent K) (view : View K) :
    (clickWithin levels event view).Meets (fun _ => True) (view.Hit event) := by
  induction levels generalizing view with
  | zero => exact Told.meets_pure trivial
  | succ levels ih =>
      cases view with
      | panel core clicked =>
          have hhit : (View.panel core clicked).Hit event (.clicked (.panel core clicked)) :=
            fun id hid => ⟨[], _, .here _, rfl, Option.some.inj hid⟩
          simp only [clickWithin]
          split
          · exact Told.meets_pure trivial
          · split
            · exact (Told.meets_tell hhit).bind fun _ _ => Told.meets_pure trivial
            · exact Told.meets_pure trivial
      | probe core widget consumes =>
          have hhit : (View.probe core widget consumes).Hit event (.reached core.id .click event) :=
            fun id hid => ⟨[], _, .here _, rfl, Option.some.inj hid⟩
          exact (Told.meets_tell hhit).bind fun _ _ => Told.meets_pure trivial
      | plain | group | item => exact Told.meets_pure trivial
      | tab strip pages changed =>
          let tab : Tab K := ⟨strip, pages, changed⟩
          have hclick : (tab.clickBy (clickWithin levels event) event).Meets (fun _ => True)
              (tab.toView.Hit event) := by
            cases hdisabled : tab.strip.core.isDisabled with
            | true =>
                rw [Tab.clickBy_of_disabled hdisabled]
                exact Told.meets_pure trivial
            | false =>
                rcases tab.under_pointer event.position with
                  ⟨index, entry, hitem⟩ | ⟨hmisses, ⟨index, page, hpage⟩ | hnone⟩
                · rw [Tab.clickBy_of_firstAt hdisabled hitem]
                  exact hit_itemAnswer tab entry event
                · have hbelow : (clickWithin levels event page).Meets (fun _ => True)
                      (tab.toView.Hit event) :=
                    ⟨trivial, fun notice hm =>
                      ((ih page).notices notice hm).page hdisabled hmisses hpage⟩
                  rw [Tab.clickBy_of_pageAt hdisabled hmisses hpage]
                  exact hbelow.bind fun _ _ => Told.meets_pure trivial
                · rw [Tab.clickBy_of_misses hdisabled hmisses hnone]
                  exact Told.meets_pure trivial
          exact hclick.bind fun _ _ => Told.meets_pure trivial

end View

/-- What is asked of the answer of a tab to a press or a release. A disabled tab takes it and does
nothing. Otherwise it is for the first item under the pointer, or else for the selected page under
the pointer, or else for nobody. -/
structure Tab.Routes (tab : Tab K) (event : PointerEvent K)
    (told : Told (Notice K) (Bool × View K)) : Prop where
  disabled : tab.strip.core.isDisabled = true → told = pure (true, tab.toView)
  item : tab.strip.core.isDisabled = false →
    ∀ index entry, tab.strip.FirstAt event.position index entry →
      told =
        if (event.isPrimaryDown = true ∧ entry.core.isDisabled = false) ∧
            ¬(tab.strip.selected = some index ∧
              tab.strip.settings.notifyOnReselect = false) then do
          let tab ← (tab.moveSelection index).layout
          tab.announce
          return (true, tab.toView)
        else pure (true, tab.toView)
  page : tab.strip.core.isDisabled = false → tab.strip.Misses event.position →
    ∀ index page, tab.PageAt event.position index page →
      told = do
        let (taken, page) ← page.click event
        return (taken, Tab.toView { tab with pages := tab.pages.set index page })
  nobody : tab.strip.core.isDisabled = false → tab.strip.Misses event.position →
    (∀ index page, ¬tab.PageAt event.position index page) → told = pure (false, tab.toView)

theorem Tab.routes_click {tab : Tab K} (h : tab.strip.Numbered) (event : PointerEvent K) :
    tab.Routes event (tab.toView.click event) := by
  constructor
  · intro hdisabled
    rw [View.click_toView, clickBy_of_disabled hdisabled]
    rfl
  · intro henabled index entry hitem
    rw [View.click_toView, clickBy_of_firstAt henabled hitem, itemAnswer_eq h hitem.present]
    split
    · simp only [bind_assoc, pure_bind]
    · rfl
  · intro henabled hmisses index page hpage
    rw [View.click_toView, clickBy_of_pageAt henabled hmisses hpage, bind_assoc]
    rfl
  · intro henabled hmisses hnone
    rw [View.click_toView, clickBy_of_misses henabled hmisses hnone]
    rfl

namespace View

/-- A press or a release over a tab is for the first item under the pointer, or else for the selected
page under the pointer, or else for nobody. A tab asks no other page, whatever the pages would do,
and only views that are reached through selected pages tell of the event. -/
theorem reachable_click {allowed : View K → List Branch → ViewStep K → Prop} {root : View K}
    (h : root.Reachable allowed) {path : List Branch} {tab : Tab K}
    (hat : root.at? path = some tab.toView) (event : PointerEvent K) :
    tab.Routes event (tab.toView.click event) ∧
      (∀ click click' : View K → Told (Notice K) (Bool × View K),
        (∀ index page, tab.PageAt event.position index page → click page = click' page) →
          tab.clickBy click event = tab.clickBy click' event) ∧
      ∀ notice ∈ (tab.toView.click event).notices, ∀ id, notice.pressed? = some id →
        ∃ inner below, Presses event tab.toView inner ∧ tab.toView.at? inner = some below ∧
          below.id = id :=
  ⟨Tab.routes_click (h.numbered path tab hat) event, fun _ _ => Tab.clickBy_congr,
    (hit_clickWithin _ event tab.toView).notices⟩

/-- A panel in a tab in a tab is pressed. -/
theorem reachable_click_nested :
    let empty (number : Nat) : View Rat :=
      (Tab.new (.view number) ⟨fun _ _ => ⟨8, 10⟩⟩ .standard).toView
    let panel : View Rat := .panel (.new (.view 2)) .empty
    let inner := (empty 1).run [.addPage "panel" panel]
    let root := (empty 0).run [.addPage "inner" inner, .place (.allocate ⟨0, 0, 100, 100⟩)]
    let press : PointerEvent Rat := ⟨.down, some .left, ⟨50, 50⟩⟩
    root.Reachable Proper ∧ ∃ (tab : Tab Rat) (page : View Rat), root = tab.toView ∧
      (tab.toView.click press = do
        let (taken, page) ← page.click press
        return (taken, Tab.toView { tab with pages := tab.pages.set 0 page })) ∧
      (root.click press).notices.map Notice.pressed? = [some (.view 2)] ∧
      ∃ path below, Presses press root path ∧ root.at? path = some below ∧
        below.id = .view 2 := by
  intro empty panel inner root press
  have hinner : inner.Reachable Proper :=
    (Reachable.tab _ _ _).run (by simp) (by simp [ViewStep.added?, Reachable.panel, panel])
  have hroot : root.Reachable Proper :=
    (Reachable.tab _ _ _).run (by simp) (by simp [ViewStep.added?, hinner])
  have hpresent : root.tab?.map (fun tab => (tab.strip.core.isDisabled,
      tab.strip.itemAt? press.position, tab.pageAt? press.position)) =
      some (false, none, some 0) := by decide +kernel
  obtain ⟨tab, htab, hpresent⟩ := Option.map_eq_some_iff.mp hpresent
  simp only [Prod.mk.injEq] at hpresent
  obtain ⟨henabled, hitem, hpageAt⟩ := hpresent
  obtain ⟨page, hpage⟩ := Tab.pageAt_of_pageAt? hpageAt
  have hview : root = tab.toView := eq_toView_of_tab? htab
  have hnotices : (root.click press).notices.map Notice.pressed? = [some (.view 2)] := by
    decide +kernel
  have hat : root.at? [] = some tab.toView := congrArg some hview
  obtain ⟨hroutes, -, hhit⟩ := reachable_click hroot hat press
  rw [← hview] at hhit
  have hone : some (.view 2) ∈ (root.click press).notices.map Notice.pressed? :=
    hnotices ▸ List.mem_singleton_self _
  obtain ⟨notice, hm, hid⟩ := List.mem_map.mp hone
  exact ⟨hroot, tab, page, hview,
    hroutes.page henabled (TabStrip.itemAt?_eq_none_iff.mp hitem) 0 page hpage, hnotices,
    hhit notice hm _ hid⟩

end View

end WidgetToolkit
