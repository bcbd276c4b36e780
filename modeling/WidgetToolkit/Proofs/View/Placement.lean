import WidgetToolkit.Proofs.Lists
import WidgetToolkit.Proofs.Told
import WidgetToolkit.Proofs.View.Core
import WidgetToolkit.View.Placement

/-! # What placing views leaves alone -/

namespace WidgetToolkit

variable {K : Type} [Coord K]

/-! ## The strip -/

namespace TabStrip

/-- What does not depend on the place of an item stays as it is. -/
theorem map_placeItems {α : Type} (read : TabItem K → α)
    (hread : ∀ item rect, read (item.allocate rect) = read item)
    (origin : Point K) (height inset x : K) (items : List (TabItem K)) :
    (placeItems origin height inset x items).map read = items.map read := by
  induction items generalizing x with
  | nil => rfl
  | cons item rest ih => rw [placeItems, List.map_cons, List.map_cons, hread, ih]

theorem map_layout_items {α : Type} (read : TabItem K → α)
    (hread : ∀ item rect, read (item.allocate rect) = read item) (strip : TabStrip K) :
    strip.layout.items.map read = strip.items.map read :=
  map_placeItems read hread _ _ _ _ _

/-- A strip after a placement of its tab. -/
def placed (strip : TabStrip K) : Placement K → TabStrip K
  | .allocate rect => { strip with core := (strip.core.allocate rect).2 }.layout
  | .layout => strip.layout
  | .rescale scale => (strip.setScale scale).layout

theorem map_placed_items {α : Type} (read : TabItem K → α)
    (hread : ∀ item rect, read (item.allocate rect) = read item)
    (hscale : ∀ item scale, read (item.setScale scale) = read item)
    (strip : TabStrip K) (placement : Placement K) :
    (strip.placed placement).items.map read = strip.items.map read := by
  cases placement with
  | allocate rect => exact map_layout_items read hread _
  | layout => exact map_layout_items read hread strip
  | rescale scale =>
      rw [placed, map_layout_items read hread, setScale, List.map_map]
      exact List.map_congr_left fun item _ => hscale item scale

@[simp] theorem layout_core_visible (strip : TabStrip K) :
    strip.layout.core.visible = strip.core.visible :=
  ViewCore.invalidate_visible _

@[simp] theorem placed_selected (strip : TabStrip K) (placement : Placement K) :
    (strip.placed placement).selected = strip.selected := by
  cases placement <;> rfl

@[simp] theorem placed_core_visible (strip : TabStrip K) (placement : Placement K) :
    (strip.placed placement).core.visible = strip.core.visible := by
  cases placement <;> simp [placed, setScale]

@[simp] theorem layout_core_id (strip : TabStrip K) : strip.layout.core.id = strip.core.id :=
  ViewCore.invalidate_id _

@[simp] theorem placed_core_id (strip : TabStrip K) (placement : Placement K) :
    (strip.placed placement).core.id = strip.core.id := by
  cases placement <;> simp [placed, setScale]

@[simp] theorem layout_core_focused (strip : TabStrip K) :
    strip.layout.core.focused = strip.core.focused :=
  ViewCore.invalidate_focused _

@[simp] theorem layout_core_focusable (strip : TabStrip K) :
    strip.layout.core.focusable = strip.core.focusable :=
  ViewCore.invalidate_focusable _

@[simp] theorem placed_core_focused (strip : TabStrip K) (placement : Placement K) :
    (strip.placed placement).core.focused = strip.core.focused := by
  cases placement <;> simp [placed, setScale]

end TabStrip

/-! ## The pages -/

/-- On views with a property, an operation keeps the property, relates every view to what becomes of
it, and sends notices of one kind. -/
def View.Keeps (good : View K → Prop) (rel : View K → View K → Prop) (seen : Notice K → Prop)
    (operation : View K → Told (Notice K) (View K)) : Prop :=
  ∀ view, good view → (operation view).Meets (fun view' => good view' ∧ rel view view') seen

namespace Tab

/-- A tab has this strip, and pages with a property that came from those of another tab. -/
structure Became (good : View K → Prop) (rel : View K → View K → Prop) (strip : TabStrip K)
    (tab tab' : Tab K) : Prop where
  strip_eq : tab'.strip = strip
  changed_eq : tab'.changed = tab.changed
  good : ∀ page ∈ tab'.pages, good page
  rel : List.Forall₂ rel tab.pages tab'.pages

variable {good : View K → Prop} {rel : View K → View K → Prop} {seen : Notice K → Prop}
  {place : Placement K → View K → Told (Notice K) (View K)}

omit [Coord K] in
theorem became_of_forall₂ {strip : TabStrip K} {tab : Tab K} {pages : List (View K)}
    (h : List.Forall₂ (fun page page' => good page' ∧ rel page page') tab.pages pages) :
    Became good rel strip tab { tab with strip := strip, pages := pages } :=
  ⟨rfl, rfl, forall_of_forall₂ h fun _ _ h => h.1, h.imp fun _ _ h => h.2⟩

theorem layoutBy_strip (place : Placement K → View K → Told (Notice K) (View K)) (tab : Tab K) :
    (tab.layoutBy place).value.strip = tab.strip.layout := by
  simp only [layoutBy]
  split <;> rfl

/-- What becomes of the selected page when a tab is laid out. -/
def settleBy (place : Placement K → View K → Told (Notice K) (View K)) (tab : Tab K)
    (page : View K) : View K :=
  (place .layout (place (.allocate tab.strip.layout.pageRect) page).value).value

theorem layoutBy_pages (place : Placement K → View K → Told (Notice K) (View K)) (tab : Tab K) :
    (tab.layoutBy place).value.pages =
      match tab.strip.selected with
      | none => tab.pages
      | some index => tab.pages.modify index (tab.settleBy place) := by
  have hselected : tab.strip.layout.selected = tab.strip.selected := rfl
  simp only [layoutBy, hselected]
  cases tab.strip.selected with
  | none => rfl
  | some index => exact Told.modifyNth_value _ tab.pages index

theorem layoutBy_selectedPage? (place : Placement K → View K → Told (Notice K) (View K))
    (tab : Tab K) :
    (tab.layoutBy place).value.selectedPage? = tab.selectedPage?.map (tab.settleBy place) := by
  have hselected : (tab.layoutBy place).value.strip.selected = tab.strip.selected := by
    rw [layoutBy_strip]
    rfl
  rw [selectedPage?, selectedPage?, hselected, layoutBy_pages]
  cases tab.strip.selected with
  | none => rfl
  | some index => simp

theorem forall_mem_layoutBy_pages {p : View K → Prop}
    {place : Placement K → View K → Told (Notice K) (View K)} {tab : Tab K}
    (h : ∀ page ∈ tab.pages, p page) (hsettle : ∀ page ∈ tab.pages, p (tab.settleBy place page)) :
    ∀ page ∈ (tab.layoutBy place).value.pages, p page := by
  rw [layoutBy_pages]
  split
  · exact h
  · exact forall_mem_modify h fun page hpage => hsettle page (List.mem_of_getElem? hpage)

theorem placeBy_strip (place : Placement K → View K → Told (Notice K) (View K)) (tab : Tab K)
    (placement : Placement K) :
    (tab.placeBy place placement).value.strip = tab.strip.placed placement := by
  cases placement <;> exact layoutBy_strip place _

/-- The strip is laid out, and the pages are only placed. -/
theorem meets_layoutBy (hrefl : ∀ view, rel view view)
    (htrans : ∀ a b c, rel a b → rel b c → rel a c)
    (hplace : ∀ placement, View.Keeps good rel seen (place placement))
    (tab : Tab K) (hpages : ∀ page ∈ tab.pages, good page) :
    (tab.layoutBy place).Meets (Became good rel tab.strip.layout tab) seen := by
  have hsame : ∀ page ∈ tab.pages, good page ∧ rel page page := fun page hm =>
    ⟨hpages page hm, hrefl page⟩
  simp only [layoutBy]
  split
  · exact Told.meets_pure (became_of_forall₂ (List.forall₂_same.mpr hsame))
  · refine (Told.meets_modifyNth hsame ?_ _).bind fun pages h =>
      Told.meets_pure (became_of_forall₂ h)
    intro page hm
    refine (hplace _ page (hpages page hm)).bind fun placed hplaced => ?_
    refine (hplace _ placed hplaced.1).mono fun settled hsettled => ?_
    exact ⟨hsettled.1, htrans _ _ _ hplaced.2 hsettled.2⟩

theorem meets_placeBy (hrefl : ∀ view, rel view view)
    (htrans : ∀ a b c, rel a b → rel b c → rel a c)
    (hplace : ∀ placement, View.Keeps good rel seen (place placement))
    (tab : Tab K) (hpages : ∀ page ∈ tab.pages, good page) (placement : Placement K) :
    (tab.placeBy place placement).Meets (Became good rel (tab.strip.placed placement) tab) seen := by
  have hlayout := meets_layoutBy hrefl htrans hplace
  cases placement with
  | allocate rect =>
      let moved : Tab K :=
        { tab with strip := { tab.strip with core := (tab.strip.core.allocate rect).2 } }
      refine (hlayout moved hpages).mono fun tab' h => ?_
      exact ⟨h.strip_eq, h.changed_eq, h.good, h.rel⟩
  | layout => exact hlayout tab hpages
  | rescale scale =>
      refine (Told.meets_each fun page hm => hplace (.rescale scale) page (hpages page hm)).bind
        fun pages hrescaled => ?_
      refine (hlayout _ (forall_of_forall₂ hrescaled fun _ _ h => h.1)).mono fun tab' h => ?_
      refine ⟨h.strip_eq, h.changed_eq, h.good, ?_⟩
      exact forall₂_trans htrans (hrescaled.imp fun _ _ h => h.2) h.rel

end Tab

/-! ## Other views -/

/-- A view that is no tab has changed at most in its place, its looks and its measures. -/
structure View.Settled (view view' : View K) : Prop where
  tab_eq : view'.tab? = none
  id_eq : view'.core.id = view.core.id
  visible_eq : view'.core.visible = view.core.visible
  focused_eq : view'.core.focused = view.core.focused
  branch_eq : ∀ branch, view'.branch? branch = view.branch? branch

/-- Only tabs place what is below them, and only probes tell that they were laid out. -/
theorem View.settled_placeWithin {view : View K} (h : view.tab? = none) (levels : Nat)
    (placement : Placement K) :
    (placeWithin levels placement view).Meets view.Settled
      (fun notice => notice = .laidOut view.core.id) := by
  cases levels with
  | zero => exact Told.meets_pure ⟨h, rfl, rfl, rfl, fun _ => rfl⟩
  | succ levels =>
      cases view with
      | tab => simp [tab?] at h
      | panel | plain | probe | group | item =>
          cases placement <;>
            refine ⟨⟨rfl, ?_, ?_, ?_, fun branch => by cases branch <;> rfl⟩, ?_⟩ <;>
            simp [placeWithin, core, mapCore, TabItem.setScale, TabItem.remeasure]

end WidgetToolkit
