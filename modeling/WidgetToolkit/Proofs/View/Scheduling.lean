import WidgetToolkit.Proofs.View.Damage
import WidgetToolkit.Proofs.View.Proper
import WidgetToolkit.Proofs.View.Turning

/-! # No change is left unpainted

Whatever a step changes in what a tab draws, it schedules for repainting: over a point that does not
wait to be repainted, the tab draws the same as before. -/

namespace WidgetToolkit

/-! ## Nothing has a negative extent -/

/-- Settings without a fault have no negative padding. -/
theorem Settings.padding_nonneg {settings : Settings Rat} (h : settings.isValid) (which : Padding) :
    0 ≤ settings.tab.padding which := by
  have hfault : settings.fault? = none := Option.isNone_iff_eq_none.mp h
  unfold fault? at hfault
  split at hfault
  · cases hfault
  · split at hfault
    · cases hfault
    · dsimp only at hfault
      split at hfault
      · cases hfault
      · rename_i hbad
        have hgood := List.find?_eq_none.mp hbad which (by cases which <;> simp)
        simp_all

/-- Neither the paddings nor the titles of a tab have a negative extent. -/
structure Tab.Sized (tab : Tab Rat) : Prop where
  padding : ∀ which, 0 ≤ tab.strip.settings.padding which
  height : 0 ≤ (tab.strip.metrics.measure tab.strip.settings.referenceText tab.strip.core.font).height

instance (tab : Tab Rat) : Decidable tab.Sized :=
  decidable_of_iff ((∀ which ∈ [Padding.horizontal, .vertical, .top, .content],
      0 ≤ tab.strip.settings.padding which) ∧
    0 ≤ (tab.strip.metrics.measure tab.strip.settings.referenceText tab.strip.core.font).height)
    ⟨fun h => ⟨fun which => h.1 which (by cases which <;> simp), h.2⟩,
      fun h => ⟨fun which _ => h.padding which, h.height⟩⟩

theorem Tab.sized_of_isValid {tab : Tab Rat} {settings : Settings Rat} (hvalid : settings.isValid)
    (hsettings : tab.strip.settings = settings.tab)
    (hmetrics : ∀ text font, 0 ≤ (tab.strip.metrics.measure text font).height) : tab.Sized :=
  ⟨hsettings ▸ settings.padding_nonneg hvalid, hmetrics _ _⟩

theorem TabStrip.ordered_placeRects {origin : Point Rat} {height inset x : Rat}
    (hinset : inset ≤ height) (extents : List (Rat × Bool)) :
    ∀ rect ∈ placeRects origin height inset x extents, rect.Ordered := by
  induction extents generalizing x with
  | nil => exact fun _ hm => absurd hm List.not_mem_nil
  | cons extent rest ih =>
      obtain ⟨width, selected⟩ := extent
      let corner : Point Rat := origin + (⟨x, 0⟩ : Offset Rat)
      have hrect := Rect.ordered_ofOriginSize corner ⟨width, height⟩
      refine List.forall_mem_cons.mpr ⟨?_, ih⟩
      split
      · exact hrect
      · refine ⟨hrect.x_le, ?_⟩
        simp only [Rect.ofOriginSize, Rect.abs, Coord.least_eq_min, Coord.greatest_eq_max]
        have hlow := min_le_left corner.y (corner.y + height)
        have hhigh := le_max_right corner.y (corner.y + height)
        linarith

/-- Items that are not selected start lower, but not below the strip. -/
theorem Tab.Sized.inset_lt_height {tab : Tab Rat} (h : tab.Sized)
    (hscale : 0 < tab.strip.core.scale) :
    tab.strip.settings.topPadding * tab.strip.core.scale < tab.strip.measuredHeight := by
  have hreference := h.height
  set reference := tab.strip.metrics.measure tab.strip.settings.referenceText tab.strip.core.font
  have hceil : 0 ≤ Coord.ceil (reference.height * tab.strip.core.scale) :=
    le_trans (mul_nonneg hreference hscale.le) Rat.le_ceil
  have hvertical := mul_nonneg (h.padding .vertical) hscale.le
  change _ < Coord.ceil (reference.height * tab.strip.core.scale) +
    (2 * tab.strip.settings.verticalPadding + tab.strip.settings.topPadding) *
      tab.strip.core.scale + 1
  change 0 ≤ tab.strip.settings.verticalPadding * tab.strip.core.scale at hvertical
  linarith

theorem TabStrip.ordered_pageRect (strip : TabStrip Rat) : strip.pageRect.Ordered := by
  simp only [pageRect, Coord.greatest_eq_max]
  exact ⟨le_max_right _ _, le_max_right _ _⟩

/-- An item is at one of the places where the items belong. -/
theorem Tab.Tidy.mem_slots {tab : Tab Rat} (h : tab.Tidy Eq) {item : TabItem Rat}
    (hm : item ∈ tab.strip.items) : item.core.rect ∈ tab.strip.slots := by
  obtain ⟨slot, hslot, hsame⟩ := exists_right_of_forall₂ h.arranged
    (List.mem_map_of_mem (f := fun item => item.core.rect) hm)
  exact hsame.eq ▸ hslot

/-- A tidy tree whose tabs have nothing with a negative extent. Pages have the scale factor of their
tab. -/
structure View.Measured (view : View Rat) : Prop where
  tidy : view.Tidy Eq
  sized : view.EveryTab Tab.Sized
  scale : 0 < view.core.scale

namespace View.Measured

variable {tab : Tab Rat}

theorem framed (h : tab.toView.Measured) : tab.Framed := by
  have htab := (tidy_toView.mp h.tidy).1
  have hsized := (everyTab_tab.mp h.sized).1
  constructor
  · intro item hm
    have hinset := hsized.inset_lt_height h.scale
    rw [← htab.uniform.height_eq] at hinset
    exact TabStrip.ordered_placeRects hinset.le _ _ (htab.mem_slots hm)
  · intro page hpage
    rw [(htab.placed page hpage).eq]
    exact tab.strip.ordered_pageRect

theorem page (h : tab.toView.Measured) {page : View Rat} (hm : page ∈ tab.pages) :
    page.Measured := by
  obtain ⟨htab, hpages⟩ := tidy_toView.mp h.tidy
  have hscale : page.core.scale = tab.strip.core.scale :=
    (htab.scales page hm).elim (fun h => h) Coord.isCongruence_eq.of_beq
  exact ⟨hpages page hm, (everyTab_tab.mp h.sized).2 page hm, hscale ▸ h.scale⟩

end View.Measured

/-! ## The pointer over the items -/

/-- An item is left alone, or all of it waits to be repainted. -/
def TabItem.Repaints (item item' : TabItem Rat) : Prop :=
  item' = item ∨ item'.core.rect = item.core.rect ∧ item'.core.visible = item.core.visible ∧
    item'.core.Due

namespace TabItem

theorem Repaints.refl (item : TabItem Rat) : item.Repaints item := .inl rfl

theorem Repaints.trans (a b c : TabItem Rat) (hab : a.Repaints b) (hbc : b.Repaints c) :
    a.Repaints c := by
  rcases hbc with rfl | ⟨hrect, hvisible, hdue⟩
  · exact hab
  · rcases hab with rfl | ⟨hrect', hvisible', -⟩
    · exact .inr ⟨hrect, hvisible, hdue⟩
    · exact .inr ⟨hrect.trans hrect', hvisible.trans hvisible', hdue⟩

theorem Repaints.schedules {item item' : TabItem Rat} (h : item.Repaints item') :
    (View.item item).Schedules (.item item') := by
  rcases h with rfl | ⟨hrect, hvisible, hdue⟩
  · exact .refl _
  · exact View.schedules_of_due hrect hvisible hdue

theorem repaints_setHovered (item : TabItem Rat) (hovered : Bool) :
    item.Repaints (item.setHovered hovered) := by
  unfold setHovered
  split
  · exact .refl item
  · exact .inr ⟨(item.core.stays_setState _).rect_eq, item.core.setState_visible _,
      ViewCore.due_invalidate _⟩

end TabItem

namespace TabStrip

theorem repaints_setHovered (strip : TabStrip Rat) (id : Option ViewId) (hovered : Bool) :
    List.Forall₂ TabItem.Repaints strip.items (strip.setHovered id hovered).items := by
  unfold setHovered
  split
  · exact forall₂_modify TabItem.Repaints.refl fun item _ => item.repaints_setHovered hovered
  · exact List.forall₂_same.mpr fun item _ => .refl item

theorem repaints_track (strip : TabStrip Rat) (p : Point Rat) :
    List.Forall₂ TabItem.Repaints strip.items (strip.track p).items := by
  simp only [track]
  split
  · exact List.forall₂_same.mpr fun item _ => .refl item
  · exact forall₂_trans TabItem.Repaints.trans (strip.repaints_setHovered _ false)
      (repaints_setHovered _ _ true)

theorem samePanel_of_still {strip strip' : TabStrip Rat} (h : strip.Still strip')
    (hvisible : strip'.core.visible = strip.core.visible)
    (hstate : strip'.core.state = strip.core.state) : strip.SamePanel strip' :=
  ⟨h.rect_eq, hvisible, hstate, h.sameFrame.height_eq⟩

end TabStrip

namespace Tab

variable {tab : Tab Rat}

/-- Nothing but the pages and the looks of items changes. -/
theorem schedules_still (h : tab.toView.Measured) {tab' : Tab Rat}
    (hstill : tab.strip.Still tab'.strip)
    (hvisible : tab'.strip.core.visible = tab.strip.core.visible)
    (hstate : tab'.strip.core.state = tab.strip.core.state)
    (hitems : List.Forall₂ TabItem.Repaints tab.strip.items tab'.strip.items)
    (hpages : List.Forall₂ View.Schedules tab.pages tab'.pages) :
    tab.toView.Schedules tab'.toView :=
  schedules h.framed (TabStrip.samePanel_of_still hstill hvisible hstate) hstill.selected_eq
    (hitems.imp fun _ _ hitem => hitem.schedules) hpages

theorem schedules_moveBy (h : tab.toView.Measured) {move : View Rat → Told (Notice Rat) (View Rat)}
    (hmove : ∀ page ∈ tab.pages, page.Schedules (move page).value) (p : Point Rat) :
    tab.toView.Schedules (tab.moveBy move p).value.toView := by
  have hstill := tab.strip.still_track p
  have hcore : (tab.strip.track p).core = tab.strip.core := by
    simp only [TabStrip.track]
    split <;> simp
  have hitems := tab.strip.repaints_track p
  simp only [moveBy, forwardMoveBy]
  split
  · exact schedules_still h hstill (by simp [hcore]) (by simp [hcore]) hitems
      (List.forall₂_same.mpr fun page _ => .refl page)
  · refine schedules_still h hstill (by simp [hcore]) (by simp [hcore]) hitems ?_
    simp only [Told.bind_value, Told.modifyNth_value, Told.pure_value]
    exact forall₂_modify View.Schedules.refl fun page hpage =>
      hmove page (List.mem_of_getElem? hpage)

theorem schedules_untrack (h : tab.toView.Measured) :
    tab.toView.Schedules { tab with strip := tab.strip.untrack }.toView := by
  have hcore : tab.strip.untrack.core = tab.strip.core := by simp [TabStrip.untrack]
  exact schedules_still h tab.strip.still_untrack (by simp [hcore]) (by simp [hcore])
    (tab.strip.repaints_setHovered _ false) (List.forall₂_same.mpr fun page _ => .refl page)

/-! ## Layout and selection -/

theorem layout_core (tab : Tab Rat) : tab.layout.value.strip.core = tab.strip.core.invalidate := by
  rw [layout, layoutBy_strip]
  rfl

/-- Either nothing has changed, or all of the tab waits to be repainted. -/
theorem selectItem_core (tab : Tab Rat) (id : ViewId) :
    (tab.selectItem id).value.2 = tab ∨
      (tab.selectItem id).value.2.strip.core = tab.strip.core.invalidate := by
  unfold selectItem
  split
  · exact .inl rfl
  · split
    · exact .inl rfl
    · rename_i index _ _
      right
      change (tab.moveSelection index).layout.value.strip.core = _
      rw [layout_core, moveSelection_core]

theorem schedules_of_core {tab' : Tab Rat} (h : tab'.strip.core = tab.strip.core.invalidate) :
    tab.toView.Schedules tab'.toView := by
  have hcore : tab'.toView.core = tab.toView.core.invalidate := h
  apply View.schedules_of_due
  · rw [hcore, tab.toView.core.stays_invalidate.rect_eq]
  · rw [hcore, ViewCore.invalidate_visible]
  · rw [hcore]
    exact ViewCore.due_invalidate _

theorem schedules_selectItem (tab : Tab Rat) (id : ViewId) :
    tab.toView.Schedules (tab.selectItem id).value.2.toView := by
  rcases tab.selectItem_core id with heq | hcore
  · rw [heq]
    exact .refl _
  · exact schedules_of_core hcore

theorem schedules_clickBy (h : tab.toView.Measured)
    {click : View Rat → Told (Notice Rat) (Bool × View Rat)}
    (hclick : ∀ page ∈ tab.pages, page.Schedules (click page).value.2) (event : PointerEvent Rat) :
    tab.toView.Schedules (tab.clickBy click event).value.2.toView := by
  cases haddressed : tab.addressed? event with
  | some index =>
      obtain ⟨entry, -, hvalue, -⟩ := clickBy_of_addressed? click haddressed
      rw [hvalue]
      exact tab.schedules_selectItem entry.core.id
  | none =>
      rcases clickBy_of_addressed?_none click haddressed with
        ⟨hvalue, -⟩ | ⟨index, page, hpage, hvalue, -⟩
      · rw [hvalue]
        exact .refl _
      · rw [hvalue]
        refine schedules_still h (.refl tab.strip) rfl rfl
          (List.forall₂_same.mpr fun item _ => .refl item) ?_
        exact forall₂_set View.Schedules.refl hpage (hclick page (List.mem_of_getElem? hpage))

end Tab

namespace View

/-! ## The pointer over a tree -/

theorem schedules_moveWithin (levels : Nat) (event : PointerEvent Rat) {view : View Rat}
    (h : view.Measured) : view.Schedules (moveWithin levels event view).value := by
  induction levels generalizing view with
  | zero => exact .refl view
  | succ levels ih =>
      cases view with
      | tab strip pages changed =>
          have htab : (Tab.toView ⟨strip, pages, changed⟩).Measured := h
          exact Tab.schedules_moveBy htab (fun page hm => ih (htab.page hm)) event.position
      | panel | plain | probe | group | item => exact .refl _

theorem schedules_clickWithin (levels : Nat) (event : PointerEvent Rat) {view : View Rat}
    (h : view.Measured) : view.Schedules (clickWithin levels event view).value.2 := by
  induction levels generalizing view with
  | zero => exact .refl view
  | succ levels ih =>
      cases view with
      | tab strip pages changed =>
          have htab : (Tab.toView ⟨strip, pages, changed⟩).Measured := h
          exact Tab.schedules_clickBy htab (fun page hm => ih (htab.page hm)) event
      | panel core clicked =>
          simp only [clickWithin]
          split
          · exact .refl _
          · split <;> exact .refl _
      | plain | probe | group | item => exact .refl _

end View

/-! ## Any step -/

/-- A change of the common part leaves alone all that is drawn of it, or has all of the view
repainted. -/
theorem ViewCore.due_or_stays (core : ViewCore Rat) {change : CoreStep Rat}
    (hchange : ∀ scale, change ≠ .setScale scale) :
    (core.step change).2.Due ∨
      core.Stays (core.step change).2 ∧ (core.step change).2.visible = core.visible ∧
        (core.step change).2.state = core.state := by
  cases change with
  | setScale scale => exact absurd rfl (hchange scale)
  | setFont | setColor | setBackground | setState | setEnabled | setVisible | invalidate =>
      exact .inl (due_invalidate _)
  | allocate rect =>
      simp only [ViewCore.step, ViewCore.allocate]
      split
      · exact .inr ⟨.refl core, rfl, rfl⟩
      · exact .inl (due_invalidate { core.invalidateRect core.rect with rect := rect })
  | setFocused focused =>
      simp only [ViewCore.step, ViewCore.setFocused]
      split
      · exact .inr ⟨.refl core, rfl, rfl⟩
      · exact .inl (due_invalidate _)
  | setParent parent => exact .inr ⟨core.stays_setParent parent, rfl, rfl⟩
  | invalidateRect rect =>
      refine .inr ⟨core.stays_invalidateRect rect, core.invalidateRect_visible rect, ?_⟩
      simp only [ViewCore.step]
      rw [invalidateRect_eq]
  | setFocusable | contains | takeDamage => exact .inr ⟨⟨⟨rfl, rfl, rfl, rfl⟩, rfl⟩, rfl, rfl⟩

namespace Tab

variable {tab : Tab Rat}

theorem due_layout (tab : Tab Rat) : tab.layout.value.strip.core.Due := by
  rw [layout_core]
  exact ViewCore.due_invalidate _

theorem due_addPage (hselection : tab.Selection) (title : String) (page : View Rat) :
    (tab.addPage title page).value.strip.core.Due := by
  rw [addPage_value]
  by_cases hnil : tab.pages = []
  · have hitems : tab.strip.items = [] := by
      rw [← List.length_eq_zero_iff, hselection.length_eq, hnil, List.length_nil]
    rw [addItem_of_nil (by exact hitems) (by exact hselection.selected_eq_none.mpr hnil)]
    exact due_layout _
  · have hitems : tab.strip.items ≠ [] := by
      rwa [← List.length_pos_iff, hselection.length_eq, List.length_pos_iff]
    rw [addItem_of_ne_nil (by exact hitems)]
    exact due_layout _

theorem due_or_schedules_removePage (hselection : tab.Selection) (index : Nat) :
    (tab.removePage index).value.2.strip.core.Due ∨
      tab.toView.Schedules (tab.removePage index).value.2.toView := by
  cases hpage : tab.pages[index]? with
  | none =>
      simp only [removePage, hpage]
      exact .inr (.refl _)
  | some page =>
      have hi := (List.getElem?_eq_some_iff.mp hpage).1
      have hitem := List.getElem?_eq_getElem (hselection.length_eq ▸ hi)
      rw [removePage_value hpage hitem]
      exact .inl (due_layout _)

theorem schedules_selectPage (tab : Tab Rat) (index : Nat) :
    tab.toView.Schedules (tab.selectPage index).value.toView := by
  rw [selectPage_value, selectItemAt]
  split
  · exact tab.schedules_selectItem _
  · exact .refl _

theorem schedules_core (h : tab.toView.Measured) {core : ViewCore Rat}
    (hstays : tab.strip.core.Stays core) (hvisible : core.visible = tab.strip.core.visible)
    (hstate : core.state = tab.strip.core.state) :
    tab.toView.Schedules { tab with strip := { tab.strip with core := core } }.toView :=
  schedules_still h (tab.strip.still_withCore hstays) hvisible hstate
    (List.forall₂_same.mpr fun item _ => .refl item) (List.forall₂_same.mpr fun page _ => .refl page)

theorem schedules_rememberHeight (h : tab.toView.Measured) :
    tab.toView.Schedules { tab with strip := tab.strip.rememberHeight }.toView :=
  schedules_still h tab.strip.still_rememberHeight rfl rfl
    (List.forall₂_same.mpr fun item _ => .refl item) (List.forall₂_same.mpr fun page _ => .refl page)

/-- After a step all of the tab waits to be repainted, or what has changed in what it draws does. -/
theorem due_or_schedules_step (h : tab.toView.Measured) (hselection : tab.Selection)
    {step : ViewStep Rat} (hstep : ∀ scale, step ≠ .core (.setScale scale)) :
    (tab.toView.step step).value.2.core.Due ∨
      tab.toView.Schedules (tab.toView.step step).value.2 := by
  cases step with
  | core change =>
      have hchange : ∀ scale, change ≠ .setScale scale := fun scale heq => hstep scale (heq ▸ rfl)
      rcases tab.strip.core.due_or_stays hchange with hdue | ⟨hstays, hvisible, hstate⟩
      · exact .inl hdue
      · exact .inr (schedules_core h hstays hvisible hstate)
  | place placement =>
      left
      change (tab.placeBy (View.placeWithin (View.depths tab.pages)) placement).value.strip.core.Due
      rw [placeBy_strip]
      cases placement <;> exact ViewCore.due_invalidate _
  | setFont font => exact .inl (due_layout _)
  | setColor color => exact .inl (ViewCore.due_invalidate _)
  | setVisible visible => exact .inl (ViewCore.due_invalidate _)
  | enter event | draw region => exact .inr (.refl _)
  | leave event => exact .inr (schedules_untrack h)
  | move event => exact .inr (View.schedules_moveWithin tab.toView.depth event h)
  | click event => exact .inr (View.schedules_clickWithin tab.toView.depth event h)
  | addPage title page => exact .inl (due_addPage hselection title page)
  | removePage index => exact due_or_schedules_removePage hselection index
  | selectPage index => exact .inr (tab.schedules_selectPage index)
  | askHeight | askMinimumSize => exact .inr (schedules_rememberHeight h)

end Tab

namespace View

/-- Over every point of a tab that waits to be repainted neither in the tab nor in an item, nor in
the selected page and so on, the tab draws the same commands after a step as before. Setting the scale
factor of the common part alone is left out: then the caller has to have the tab laid out. -/
theorem reachable_repaints {root : View Rat} (h : root.Reachable Proper) {path : List Branch}
    {tab : Tab Rat} (hat : root.at? path = some tab.toView) (hsized : tab.toView.EveryTab Tab.Sized)
    (hscale : 0 < tab.strip.core.scale) {step : ViewStep Rat}
    (hstep : ∀ scale, step ≠ .core (.setScale scale)) (palette : Palette) {p : Point Rat}
    (hin : (tab.toView.step step).value.2.core.rect.contains p)
    (hclean : ¬(tab.toView.step step).value.2.DirtyAt p) :
    (tab.toView.step step).value.2.drawnAt palette p = tab.toView.drawnAt palette p := by
  have hmeasured : tab.toView.Measured :=
    ⟨EveryTab.at? (h.tidy Coord.isCongruence_eq) hat, hsized, hscale⟩
  have hselection : tab.Selection := h.respects.coherent path tab hat
  rcases Tab.due_or_schedules_step hmeasured hselection hstep with hdue | hschedules
  · exact absurd (.own (hdue p hin)) hclean
  · exact hschedules.drawnAt_eq palette hin hclean

/-- The pointer comes over an item. In the middle of the page nothing waits to be repainted, and the
panel of the tab and the background of the page are drawn as before. -/
theorem reachable_repaints_hovered_item :
    let page (number : Nat) : View Rat :=
      .panel { ViewCore.new (.view number) with background := some .black } .empty
    let laid := (Tab.new (.view 0) ⟨fun _ _ => ⟨10, 10⟩⟩ .standard).toView.run
      [.addPage "one" (page 1), .addPage "two" (page 2), .place (.allocate ⟨0, 0, 100, 100⟩)]
    let painted (root : View Rat) (path : List Branch) : View Rat :=
      (root.stepAt path (.core .takeDamage)).value.2
    let root := [[], [.item 0], [.item 1], [.child 0]].foldl painted laid
    let moved := (root.step (.move ⟨.move, none, ⟨20, 10⟩⟩)).value.2
    moved.DirtyAt ⟨20, 10⟩ ∧ ¬moved.DirtyAt ⟨50, 50⟩ ∧ (root.drawnAt .light ⟨50, 50⟩).length = 2 ∧
      moved.drawnAt .light ⟨50, 50⟩ = root.drawnAt .light ⟨50, 50⟩ := by
  intro page laid painted root moved
  have hpage : ∀ number, (page number).Reachable Proper := fun _ => .panel _ _
  have hlaid : laid.Reachable Proper :=
    (Reachable.tab _ _ _).run (by simp) (by simp [ViewStep.added?, hpage])
  have hpainted : ∀ {root : View Rat} path, root.Reachable Proper →
      (painted root path).Reachable Proper := fun path hroot =>
    .step hroot ⟨by simp [Respects, ViewStep.showsOrHides], by simp [CoreStep.keepsLook],
      fun _ _ _ => trivial⟩ (by simp [ViewStep.added?])
  have hroot : root.Reachable Proper :=
    hpainted _ (hpainted _ (hpainted _ (hpainted _ hlaid)))
  have hsized : root.EveryTab Tab.Sized := by decide +kernel
  obtain ⟨tab, htab⟩ : ∃ tab, root.tab? = some tab := Option.isSome_iff_exists.mp (by decide +kernel)
  have hview := eq_toView_of_tab? htab
  have hscale : 0 < tab.toView.core.scale := hview ▸ (by decide +kernel : 0 < root.core.scale)
  have hin : moved.core.rect.contains ⟨50, 50⟩ := by decide +kernel
  have hclean : ¬moved.DirtyAt ⟨50, 50⟩ := by decide +kernel
  refine ⟨by decide +kernel, hclean, by decide +kernel, ?_⟩
  have hat : root.at? [] = some tab.toView := congrArg some hview
  have hstep : ∀ scale, (.move ⟨.move, none, ⟨20, 10⟩⟩ : ViewStep Rat) ≠ .core (.setScale scale) :=
    by simp
  have hrepaints := @reachable_repaints root hroot [] tab hat (hview ▸ hsized) hscale _ hstep .light
  rw [← hview] at hrepaints
  exact hrepaints hin hclean

end View

end WidgetToolkit
