import WidgetToolkit.Proofs.View.Repaint
import WidgetToolkit.Proofs.View.Upkeep

/-! # What waits to be repainted

A view may draw something else than before over a point only if the point waits to be repainted: in
the view, in an item, or in what is below the selected page. -/

namespace WidgetToolkit

section

variable {K : Type} [Coord K]

/-- Whether a point of the window waits to be repainted by a view. -/
def ViewCore.dirtyAt (core : ViewCore K) (p : Point K) : Bool := core.damage.any (·.contains p)

/-- A point waits to be repainted by the view, by an item of a tab, or by the selected page and so
on. -/
inductive View.DirtyAt (p : Point K) : View K → Prop
  | own {view : View K} (h : view.core.dirtyAt p) : DirtyAt p view
  | item {tab : Tab K} {entry : TabItem K} (hm : entry ∈ tab.strip.items)
      (h : entry.core.dirtyAt p) : DirtyAt p tab.toView
  | page {tab : Tab K} {page : View K} (hpage : tab.selectedPage? = some page)
      (h : DirtyAt p page) : DirtyAt p tab.toView

/-- How far the view is from the origin of the window. -/
def ViewCore.offset (core : ViewCore K) : Offset K := core.rect.origin - (Point.origin : Point K)

/-- The commands that draw over a point when all of a view is drawn at its place in the window. -/
def View.drawnAt (palette : Palette) (view : View K) (p : Point K) : List (DrawCommand K) :=
  (Recorder.new palette).touching p (.translate view.core.offset :: view.draw view.core.localBounds)

namespace View

variable {p : Point K}

theorem dirtyAt_toView {tab : Tab K} :
    tab.toView.DirtyAt p ↔ tab.strip.core.dirtyAt p ∨
      (∃ entry ∈ tab.strip.items, entry.core.dirtyAt p) ∨
      ∃ page, tab.selectedPage? = some page ∧ page.DirtyAt p := by
  constructor
  · obtain ⟨strip, pages, changed⟩ := tab
    intro h
    generalize hview : Tab.toView ⟨strip, pages, changed⟩ = view at h
    cases h with
    | own h =>
        subst hview
        exact .inl h
    | item hm h =>
        cases hview
        exact .inr (.inl ⟨_, hm, h⟩)
    | page hpage h =>
        cases hview
        exact .inr (.inr ⟨_, hpage, h⟩)
  · rintro (h | ⟨entry, hm, h⟩ | ⟨page, hpage, h⟩)
    · exact .own h
    · exact .item hm h
    · exact .page hpage h

/-- In a view that is no tab, only its own region counts. -/
theorem dirtyAt_of_tab? {view : View K} (htab : view.tab? = none) :
    view.DirtyAt p ↔ view.core.dirtyAt p := by
  refine ⟨fun h => ?_, .own⟩
  cases h with
  | own h => exact h
  | item | page => cases htab

/-- Whether a point waits to be repainted, looked up that many levels down, less one. -/
def dirtyWithin (p : Point K) : Nat → View K → Bool
  | 0, _ => false
  | levels + 1, .tab strip pages changed =>
    strip.core.dirtyAt p || (strip.items.any (·.core.dirtyAt p) ||
      (Tab.selectedPage? ⟨strip, pages, changed⟩).any (dirtyWithin p levels))
  | _ + 1, view => view.core.dirtyAt p

theorem dirtyWithin_iff {levels : Nat} {view : View K} (h : view.depth ≤ levels) :
    view.dirtyWithin p levels ↔ view.DirtyAt p := by
  induction levels generalizing view with
  | zero => exact absurd view.depth_pos (Nat.not_lt_of_le h)
  | succ levels ih =>
      cases htab : view.tab? with
      | none =>
          rw [dirtyAt_of_tab? htab]
          cases view <;> first | rfl | cases htab
      | some tab =>
          obtain rfl := eq_toView_of_tab? htab
          have hpage : ∀ page, tab.selectedPage? = some page →
              (page.dirtyWithin p levels ↔ page.DirtyAt p) := fun page hpage =>
            ih (depths_le_iff.mp (Nat.le_of_succ_le_succ h) page (Tab.mem_of_selectedPage? hpage))
          rw [dirtyAt_toView]
          change (_ || (_ || tab.selectedPage?.any _)) = true ↔ _
          cases hselected : tab.selectedPage? with
          | none => simp
          | some page => simp [hpage page hselected]

instance (view : View K) (p : Point K) : Decidable (view.DirtyAt p) :=
  decidable_of_iff _ (dirtyWithin_iff (Nat.le_refl view.depth))

end View

/-! ## Drawing a tab -/

/-- What is drawn does not depend on the levels, if there are enough. -/
theorem View.drawWithin_eq {levels levels' : Nat} {view : View K} (h : view.depth ≤ levels)
    (h' : view.depth ≤ levels') (region : Rect K) :
    view.drawWithin levels region = view.drawWithin levels' region := by
  induction levels generalizing levels' view region with
  | zero => exact absurd view.depth_pos (Nat.not_lt_of_le h)
  | succ levels ih =>
      obtain ⟨levels', rfl⟩ : ∃ n, levels' = n + 1 :=
        Nat.exists_eq_succ_of_ne_zero (Nat.ne_of_gt (Nat.lt_of_lt_of_le view.depth_pos h'))
      have hbelow : ∀ {views : List (View K)} {child : View K}, depths views + 1 ≤ levels + 1 →
          depths views + 1 ≤ levels' + 1 → child ∈ views →
          child.drawWithin levels = child.drawWithin levels' := by
        intro views child hviews hviews' hm
        have hchild := depths_le_iff.mp (Nat.le_of_succ_le_succ hviews) child hm
        have hchild' := depths_le_iff.mp (Nat.le_of_succ_le_succ hviews') child hm
        exact funext fun part => ih hchild hchild' part
      cases view with
      | panel | plain | probe | item => rfl
      | group core widget children =>
          simp only [drawWithin]
          exact congrArg List.flatten (List.map_congr_left fun child hm => by
            rw [hbelow h h' hm])
      | tab strip pages changed =>
          simp only [drawWithin, Tab.drawBy]
          congr 1
          cases hpage : Tab.selectedPage? ⟨strip, pages, changed⟩ with
          | none => rfl
          | some page =>
              have hm : page ∈ pages := Tab.mem_of_selectedPage? hpage
              rw [Option.toList_some, List.flatMap_singleton, List.flatMap_singleton,
                hbelow h h' hm]

theorem Tab.draw_toView (tab : Tab K) (region : Rect K) :
    tab.toView.draw region = tab.drawBy View.draw region := by
  simp only [View.draw, toView, View.depth, View.drawWithin, drawBy]
  congr 1
  change tab.selectedPage?.toList.flatMap _ = _
  cases hpage : tab.selectedPage? with
  | none => rfl
  | some page =>
      have hdepth := View.depths_le_iff.mp (Nat.le_refl _) page (mem_of_selectedPage? hpage)
      have hdraw : page.drawWithin (View.depths tab.pages) = page.draw :=
        funext fun part => View.drawWithin_eq hdepth (Nat.le_refl _) part
      rw [Option.toList_some, List.flatMap_singleton, List.flatMap_singleton, hdraw]

end

/-! ## Drawing a child over a point -/

theorem Rect.ofOriginSize_add_origin {r : Rect Rat} (h : r.Ordered) :
    Rect.ofOriginSize .origin r.size + (r.origin - (Point.origin : Point Rat)) = r := by
  have hwidth : 0 ≤ r.size.width := sub_nonneg.mpr h.x_le
  have hheight : 0 ≤ r.size.height := sub_nonneg.mpr h.y_le
  rw [ofOriginSize_eq _ hwidth hheight]
  obtain ⟨x0, y0, x1, y1⟩ := r
  change Rect.mk (0 + (x0 - 0)) (0 + (y0 - 0)) (0 + (x1 - x0) + (x0 - 0))
    (0 + (y1 - y0) + (y0 - 0)) = Rect.mk x0 y0 x1 y1
  congr 1 <;> linarith

namespace ViewCore

/-- The clip of a child is its place in the window. -/
theorem localBounds_add_offset {core : ViewCore Rat} (h : core.rect.Ordered) :
    core.localBounds + core.offset = core.rect :=
  Rect.ofOriginSize_add_origin h

theorem offset_add_sub (parent child : ViewCore Rat) :
    parent.offset + (child.rect.origin - parent.rect.origin) = child.offset := by
  change Offset.mk (parent.rect.x0 - 0 + (child.rect.x0 - parent.rect.x0))
      (parent.rect.y0 - 0 + (child.rect.y0 - parent.rect.y0)) =
    Offset.mk (child.rect.x0 - 0) (child.rect.y0 - 0)
  congr 1 <;> linarith

section

variable {parent child : ViewCore Rat} {recorder : Recorder Rat}
  (horigin : recorder.scope.origin = parent.offset)

include horigin

theorem origin_enter :
    (recorder.enter (child.rect.origin - parent.rect.origin) child.localBounds).scope.origin =
      child.offset := by
  change recorder.scope.origin + (child.rect.origin - parent.rect.origin) = child.offset
  rw [horigin, offset_add_sub]

theorem admits_enter (hordered : child.rect.Ordered) (p : Point Rat) :
    (recorder.enter (child.rect.origin - parent.rect.origin) child.localBounds).scope.admits p =
      (recorder.scope.admits p && child.rect.contains p) := by
  rw [Recorder.admits_enter, PaintScope.absolute, origin_enter horigin,
    localBounds_add_offset hordered]

/-- What is drawn of a child over a point of the window is told by its place and by what it draws over
the points that are inside it. -/
theorem touching_drawChild_congr {parent' child' : ViewCore Rat}
    (hparent : parent'.rect = parent.rect) (hvisible : child'.visible = child.visible)
    (hrect : child'.rect = child.rect) (hordered : child.rect.Ordered)
    {draw draw' : Rect Rat → List (PaintCall Rat)}
    (hdraw : ∀ part, WellNested (draw part)) (hdraw' : ∀ part, WellNested (draw' part))
    {p : Point Rat}
    (hsame : ∀ (inner : Recorder Rat) part, inner.scope.origin = child.offset →
      child.rect.contains p → inner.touching p (draw' part) = inner.touching p (draw part))
    (region : Rect Rat) :
    recorder.touching p (parent'.drawChild child' region draw') =
      recorder.touching p (parent.drawChild child region draw) := by
  have hbounds : child'.localBounds = child.localBounds := by rw [localBounds, localBounds, hrect]
  have hpart : parent'.regionFor child' region = parent.regionFor child region := by
    rw [regionFor, regionFor, hparent, hrect, hbounds]
  simp only [drawChild, hpart, hparent, hvisible, hrect, hbounds]
  by_cases hhidden : (!child.visible) = true
  · rw [if_pos hhidden, if_pos hhidden]
  · rw [if_neg hhidden, if_neg hhidden]
    by_cases hempty : (parent.regionFor child region).isEmpty = true
    · rw [if_pos hempty, if_pos hempty]
    · rw [if_neg hempty, if_neg hempty, Recorder.touching_scoped, Recorder.touching_scoped]
      cases hin : child.rect.contains p with
      | true => exact hsame _ _ (origin_enter horigin) hin
      | false =>
          have hout := admits_enter horigin hordered p
          rw [hin, Bool.and_false] at hout
          rw [(hdraw _).touching_eq_nil hout, (hdraw' _).touching_eq_nil hout]

end

end ViewCore

/-! ## Scheduling -/

/-- All of the view waits to be repainted. -/
def ViewCore.Due (core : ViewCore Rat) : Prop := ∀ p, core.rect.contains p → core.dirtyAt p

theorem ViewCore.due_invalidate (core : ViewCore Rat) : core.invalidate.Due := by
  intro p hin
  rw [core.stays_invalidate.rect_eq] at hin
  rw [invalidate, invalidateRect, if_neg (by simp [Rect.isEmpty_of_contains hin])]
  cases hdamage : core.damage with
  | none => simpa [dirtyAt] using hin
  | some damage => simpa [dirtyAt] using Rect.contains_union damage core.rect (.inr hin)

namespace View

/-- A view that is where it was draws the same as before over every point inside that does not wait to
be repainted. -/
structure Schedules (view view' : View Rat) : Prop where
  rect_eq : view'.core.rect = view.core.rect
  visible_eq : view'.core.visible = view.core.visible
  touching_eq : ∀ (recorder : Recorder Rat) region p, recorder.scope.origin = view.core.offset →
    view.core.rect.contains p → ¬view'.DirtyAt p →
    recorder.touching p (view'.draw region) = recorder.touching p (view.draw region)

theorem Schedules.refl (view : View Rat) : view.Schedules view := ⟨rfl, rfl, fun _ _ _ _ _ _ => rfl⟩

theorem schedules_of_due {view view' : View Rat} (hrect : view'.core.rect = view.core.rect)
    (hvisible : view'.core.visible = view.core.visible) (hdue : view'.core.Due) :
    view.Schedules view' :=
  ⟨hrect, hvisible, fun _ _ p _ hin hclean => absurd (.own (hdue p (hrect ▸ hin))) hclean⟩

theorem Schedules.drawnAt_eq {view view' : View Rat} (h : view.Schedules view')
    (palette : Palette) {p : Point Rat} (hin : view'.core.rect.contains p)
    (hclean : ¬view'.DirtyAt p) : view'.drawnAt palette p = view.drawnAt palette p := by
  let inner := (Recorder.new palette : Recorder Rat).apply (.translate view.core.offset)
  have horigin : inner.scope.origin = view.core.offset := by
    change Offset.mk (0 + view.core.offset.dx) (0 + view.core.offset.dy) = view.core.offset
    rw [zero_add, zero_add]
  have hoffset : view'.core.offset = view.core.offset := by
    rw [ViewCore.offset, ViewCore.offset, h.rect_eq]
  have hbounds : view'.core.localBounds = view.core.localBounds := by
    rw [ViewCore.localBounds, ViewCore.localBounds, h.rect_eq]
  rw [drawnAt, hoffset, hbounds]
  exact h.touching_eq inner _ p horigin (h.rect_eq ▸ hin) hclean

end View

/-- What is drawn of the children of a view that stays where it is. -/
theorem ViewCore.touching_children_congr {parent parent' : ViewCore Rat}
    (hparent : parent'.rect = parent.rect) {views views' : List (View Rat)}
    (hviews : List.Forall₂ View.Schedules views views')
    (hordered : ∀ view ∈ views, view.core.rect.Ordered) {p : Point Rat}
    (hclean : ∀ view ∈ views', ¬view.DirtyAt p) {recorder : Recorder Rat}
    (horigin : recorder.scope.origin = parent.offset) (region : Rect Rat) :
    recorder.touching p (views'.flatMap fun view =>
        parent'.drawChild view.core region view.draw) =
      recorder.touching p (views.flatMap fun view =>
        parent.drawChild view.core region view.draw) := by
  refine WellNested.touching_flatMap_congr (fun view => ?_) (fun view => ?_) ?_
  · exact parent.nested_drawChild view.core (view.nested_drawWithin view.depth) region
  · exact parent'.nested_drawChild view.core (view.nested_drawWithin view.depth) region
  · have hboth := (List.forall₂_and_left _ _).mpr ⟨hclean,
      ((List.forall₂_and_left _ _).mpr ⟨hordered, hviews⟩).flip⟩
    refine hboth.flip.imp fun view view' ⟨hclean, hordered, hview⟩ => ?_
    exact touching_drawChild_congr horigin hparent hview.visible_eq hview.rect_eq hordered
      (view.nested_drawWithin view.depth) (view'.nested_drawWithin view'.depth)
      (fun inner part hinner hin => hview.touching_eq inner part p hinner hin hclean) region

/-! ## Tabs -/

/-- What a tab draws below its items is at the same place and looks the same. -/
structure TabStrip.SamePanel (strip strip' : TabStrip Rat) : Prop where
  rect_eq : strip'.core.rect = strip.core.rect
  visible_eq : strip'.core.visible = strip.core.visible
  state_eq : strip'.core.state = strip.core.state
  height_eq : strip'.height = strip.height

/-- The items and the selected page have no negative extent. -/
structure Tab.Framed (tab : Tab Rat) : Prop where
  items : ∀ item ∈ tab.strip.items, item.core.rect.Ordered
  page : ∀ page, tab.selectedPage? = some page → page.core.rect.Ordered

namespace Tab

theorem touching_draw (tab : Tab Rat) (recorder : Recorder Rat) (p : Point Rat) (region : Rect Rat) :
    recorder.touching p (tab.toView.draw region) =
      recorder.touching p tab.strip.drawPanel ++
        recorder.touching p ((tab.strip.items.map View.item).flatMap fun view =>
          tab.strip.core.drawChild view.core region view.draw) ++
        recorder.touching p (tab.selectedPage?.toList.flatMap fun page =>
          tab.strip.core.drawChild page.core region page.draw) := by
  have hitems : WellNested ((tab.strip.items.map View.item).flatMap fun view =>
      tab.strip.core.drawChild view.core region view.draw) :=
    .flatMap fun view _ =>
      tab.strip.core.nested_drawChild view.core (view.nested_drawWithin view.depth) region
  have hdraw : tab.toView.draw region = tab.strip.drawPanel ++
      ((tab.strip.items.map View.item).flatMap fun view =>
        tab.strip.core.drawChild view.core region view.draw) ++
      tab.selectedPage?.toList.flatMap fun page =>
        tab.strip.core.drawChild page.core region page.draw := by
    rw [draw_toView, drawBy, List.flatMap_map]
    rfl
  rw [hdraw, List.append_assoc, tab.strip.nested_drawPanel.touching_append, hitems.touching_append,
    List.append_assoc]

/-- A tab schedules what its items and its selected page schedule. -/
theorem schedules {tab tab' : Tab Rat} (hframed : tab.Framed)
    (hpanel : tab.strip.SamePanel tab'.strip)
    (hselected : tab'.strip.selected = tab.strip.selected)
    (hitems : List.Forall₂ (fun item item' => (View.item item).Schedules (.item item'))
      tab.strip.items tab'.strip.items)
    (hpages : List.Forall₂ View.Schedules tab.pages tab'.pages) :
    tab.toView.Schedules tab'.toView := by
  refine ⟨hpanel.rect_eq, hpanel.visible_eq, fun recorder region p horigin _ hclean => ?_⟩
  have hbelow : tab'.strip.drawPanel = tab.strip.drawPanel := by
    have hempty : tab'.strip.items.isEmpty = tab.strip.items.isEmpty := by
      rw [Bool.eq_iff_iff, List.isEmpty_iff_length_eq_zero, List.isEmpty_iff_length_eq_zero,
        hitems.length_eq]
    simp only [TabStrip.drawPanel, ViewCore.localBounds, hpanel.rect_eq, hpanel.height_eq,
      hpanel.state_eq, hempty]
  have hentries : List.Forall₂ View.Schedules (tab.strip.items.map .item)
      (tab'.strip.items.map .item) :=
    List.forall₂_map_left_iff.mpr (List.forall₂_map_right_iff.mpr hitems)
  have hpage := forall₂_toList_of_optionRel (rel_selectedPage? hselected hpages)
  have hcleanItems : ∀ view ∈ tab'.strip.items.map View.item, ¬view.DirtyAt p := by
    rintro view hm hdirty
    obtain ⟨entry, hentry, rfl⟩ := List.mem_map.mp hm
    exact hclean (.item hentry ((View.dirtyAt_of_tab? rfl).mp hdirty))
  have horderedItems : ∀ view ∈ tab.strip.items.map View.item, view.core.rect.Ordered := by
    intro view hm
    obtain ⟨entry, hentry, rfl⟩ := List.mem_map.mp hm
    exact hframed.items entry hentry
  rw [touching_draw, touching_draw, hbelow,
    ViewCore.touching_children_congr hpanel.rect_eq hentries horderedItems hcleanItems horigin,
    ViewCore.touching_children_congr hpanel.rect_eq hpage
      (fun page hm => hframed.page page (Option.mem_toList.mp hm))
      (fun page hm hdirty => hclean (.page (Option.mem_toList.mp hm) hdirty)) horigin]

end Tab

end WidgetToolkit
