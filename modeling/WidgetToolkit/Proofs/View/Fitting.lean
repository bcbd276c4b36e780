import Mathlib.Algebra.Order.BigOperators.Group.List
import Mathlib.Algebra.Order.Ring.Rat
import WidgetToolkit.Proofs.View.Tiling

/-! # What fits into the smallest size

In exact numbers, the smallest size of a tab has room for its items side by side, for the strip, and
for the padding around the page. A tab that is no smaller has its items and its page inside, and the
page has all the room that the padding leaves. -/

namespace WidgetToolkit

/-! ## Rectangles -/

namespace Rect

/-- The rectangle is as wide and as high as a size asks for. -/
structure Holds (r : Rect Rat) (size : Size Rat) : Prop where
  width_le : size.width ≤ r.width
  height_le : size.height ≤ r.height

/-- The rectangle lies inside another one. -/
structure Within (r outer : Rect Rat) : Prop extends r.Ordered where
  x0_le : outer.x0 ≤ r.x0
  y0_le : outer.y0 ≤ r.y0
  x1_le : r.x1 ≤ outer.x1
  y1_le : r.y1 ≤ outer.y1

end Rect

/-! ## The strip -/

namespace TabStrip

theorem le_leftOf {extents : List (Rat × Bool)} (hwidths : ∀ extent ∈ extents, 0 ≤ extent.1)
    (left : Rat) (index : Nat) : left ≤ leftOf left extents index := by
  induction extents generalizing left index with
  | nil => exact le_rfl
  | cons extent rest ih =>
      obtain ⟨hwidth, hrest⟩ := List.forall_mem_cons.mp hwidths
      cases index with
      | zero => exact le_rfl
      | succ index =>
          calc left ≤ left + extent.1 := le_add_of_nonneg_right hwidth
            _ ≤ leftOf (left + extent.1) rest index := ih hrest _ index

/-- The items before an index are not wider than all of them. -/
theorem leftOf_le_sum {extents : List (Rat × Bool)} (hwidths : ∀ extent ∈ extents, 0 ≤ extent.1)
    (left : Rat) (index : Nat) : leftOf left extents index ≤ left + (extents.map (·.1)).sum := by
  induction extents generalizing left index with
  | nil => simp [leftOf]
  | cons extent rest ih =>
      obtain ⟨hwidth, hrest⟩ := List.forall_mem_cons.mp hwidths
      rw [List.map_cons, List.sum_cons]
      cases index with
      | zero =>
          have hsum : 0 ≤ (rest.map (·.1)).sum := List.sum_nonneg (List.forall_mem_map.mpr hrest)
          rw [leftOf_zero]
          linarith
      | succ index =>
          calc leftOf (left + extent.1) rest index
              ≤ left + extent.1 + (rest.map (·.1)).sum := ih hrest _ index
            _ = left + (extent.1 + (rest.map (·.1)).sum) := add_assoc _ _ _

variable {strip : TabStrip Rat}

theorem minimumSize_width (hwidths : ∀ item ∈ strip.items, item.core.rect.width = item.size.width) :
    strip.minimumSize.width =
      (strip.items.map (·.size.width)).sum +
        2 * strip.settings.contentPadding * strip.core.scale := by
  have hsum : strip.items.foldl (fun width item => width + item.core.rect.width) 0 =
      (strip.items.map (·.size.width)).sum := by
    rw [← List.map_congr_left hwidths, List.sum_eq_foldl, List.foldl_map]
  rw [← hsum]
  rfl

theorem minimumSize_height (strip : TabStrip Rat) :
    strip.minimumSize.height =
      strip.height + 2 * strip.settings.contentPadding * strip.core.scale := rfl

theorem height_le (hroom : strip.core.rect.Holds strip.minimumSize) :
    strip.height + 2 * (strip.settings.contentPadding * strip.core.scale) ≤
      strip.core.rect.y1 - strip.core.rect.y0 := by
  have hheight := hroom.height_le
  rw [strip.minimumSize_height, Rect.height] at hheight
  linarith

/-- The room for the page below the strip and inside the padding, as much as there is of it. -/
def roomBelow (strip : TabStrip Rat) : Rect Rat :=
  let bounds := strip.core.rect
  let padding := strip.settings.contentPadding * strip.core.scale
  ⟨bounds.x0 + padding, bounds.y0 + padding + strip.height - strip.core.scale, bounds.x1 - padding,
    bounds.y1 - padding⟩

theorem pageRect_eq (h : strip.roomBelow.Ordered) : strip.pageRect = strip.roomBelow := by
  have hx : max _ _ = _ := max_eq_left h.x_le
  have hy : max _ _ = _ := max_eq_left h.y_le
  simp only [pageRect, Coord.greatest_eq_max]
  exact congrArg₂ (Rect.mk _ _) hx hy

theorem sameStyle_allocate (strip : TabStrip Rat) (rect : Rect Rat) :
    strip.SameStyle (strip.placed (.allocate rect)) := by
  have hlook := strip.core.sameLook_allocate rect
  exact ⟨hlook.trans (ViewCore.stays_invalidate _).toSameLook, rfl, rfl⟩

end TabStrip

/-! ## Tabs -/

namespace Tab

/-- A tab in order with a page. No text has a negative extent, and the reference text is at least
one logical unit high. -/
structure Legible (tab : Tab Rat) : Prop extends tab.Sized where
  tidy : tab.Tidy Eq
  selection : tab.Selection
  pages_ne_nil : tab.pages ≠ []
  scale_pos : 0 < tab.strip.core.scale
  width : ∀ text font, 0 ≤ (tab.strip.metrics.measure text font).width
  reference : 1 ≤
    (tab.strip.metrics.measure tab.strip.settings.referenceText tab.strip.core.font).height

/-- The items and the selected page lie inside the tab, and the page takes all the room that there
is below the strip. -/
structure Fits (tab : Tab Rat) : Prop where
  items : ∀ item ∈ tab.strip.items, item.core.rect.Within tab.strip.core.rect
  page : ∃ page, tab.selectedPage? = some page ∧ page.core.rect = tab.strip.roomBelow ∧
    page.core.rect.Within tab.strip.core.rect

namespace Legible

variable {tab : Tab Rat} (h : tab.Legible)

include h

theorem widths : ∀ item ∈ tab.strip.items, 0 ≤ item.size.width :=
  h.tidy.size_width_nonneg h.toSized h.scale_pos h.width

theorem extents : ∀ extent ∈ tab.strip.items.map TabItem.extent, 0 ≤ extent.1 :=
  List.forall_mem_map.mpr h.widths

theorem tiles : tab.strip.Tiles := h.tidy.tiles h.toSized h.scale_pos h.widths h.selection

theorem padding_nonneg (which : Padding) :
    0 ≤ tab.strip.settings.padding which * tab.strip.core.scale :=
  mul_nonneg (h.padding which) h.scale_pos.le

theorem minimumSize_width : tab.strip.minimumSize.width =
    (tab.strip.items.map (·.size.width)).sum +
      2 * tab.strip.settings.contentPadding * tab.strip.core.scale :=
  TabStrip.minimumSize_width fun item hm => (h.tiles.width item hm).1

/-- The page overlaps the strip by one logical unit, which is no more than the strip is high. -/
theorem scale_le_height : tab.strip.core.scale ≤ tab.strip.height := by
  have hreference := h.reference
  set reference := tab.strip.metrics.measure tab.strip.settings.referenceText tab.strip.core.font
  have hceil : tab.strip.core.scale ≤ Coord.ceil (reference.height * tab.strip.core.scale) :=
    calc tab.strip.core.scale ≤ reference.height * tab.strip.core.scale :=
          le_mul_of_one_le_left h.scale_pos.le hreference
      _ ≤ _ := Rat.le_ceil
  have hvertical : 0 ≤ tab.strip.settings.verticalPadding * tab.strip.core.scale :=
    h.padding_nonneg .vertical
  have htop : 0 ≤ tab.strip.settings.topPadding * tab.strip.core.scale := h.padding_nonneg .top
  rw [h.tidy.uniform.height_eq]
  change _ ≤ Coord.ceil (reference.height * tab.strip.core.scale) +
    (2 * tab.strip.settings.verticalPadding + tab.strip.settings.topPadding) *
      tab.strip.core.scale + 1
  linarith

/-- All items together leave the padding on both sides of the page. -/
theorem leftOf_le (hroom : tab.strip.core.rect.Holds tab.strip.minimumSize) (index : Nat) :
    TabStrip.leftOf 0 (tab.strip.items.map TabItem.extent) index +
      2 * (tab.strip.settings.contentPadding * tab.strip.core.scale) ≤
        tab.strip.core.rect.x1 - tab.strip.core.rect.x0 := by
  have hsum := TabStrip.leftOf_le_sum h.extents 0 index
  have hwidth := hroom.width_le
  rw [List.map_map] at hsum
  rw [h.minimumSize_width, Rect.width] at hwidth
  change _ ≤ 0 + (tab.strip.items.map (·.size.width)).sum at hsum
  linarith

theorem item_within (hroom : tab.strip.core.rect.Holds tab.strip.minimumSize) {item : TabItem Rat}
    (hm : item ∈ tab.strip.items) : item.core.rect.Within tab.strip.core.rect := by
  obtain ⟨index, hitem⟩ := List.mem_iff_getElem?.mp hm
  have hextent : (tab.strip.items.map TabItem.extent)[index]? = some item.extent := by
    rw [List.getElem?_map, hitem, Option.map_some]
  have hpadding : 0 ≤ tab.strip.settings.contentPadding * tab.strip.core.scale :=
    h.padding_nonneg .content
  have hinset : 0 ≤ tab.strip.settings.topPadding * tab.strip.core.scale := h.padding_nonneg .top
  have hx0 : item.core.rect.x0 = tab.strip.core.rect.x0 +
      TabStrip.leftOf 0 (tab.strip.items.map TabItem.extent) index := by
    rw [h.tidy.rect_eq h.toSized h.scale_pos h.widths hitem]
    rfl
  have hx1 : item.core.rect.x1 = tab.strip.core.rect.x0 +
      TabStrip.leftOf 0 (tab.strip.items.map TabItem.extent) (index + 1) := by
    rw [h.tidy.rect_eq h.toSized h.scale_pos h.widths hitem, TabStrip.leftOf_succ hextent,
      ← add_assoc]
    rfl
  have hleft := TabStrip.le_leftOf h.extents 0 index
  have hright := h.leftOf_le hroom (index + 1)
  have hheight := TabStrip.height_le hroom
  have htop := h.tiles.top index item hitem
  have hbottom := h.tiles.bottom item hm
  refine ⟨⟨?_, ?_⟩, ?_, ?_, ?_, ?_⟩
  · exact sub_nonneg.mp ((h.widths item hm).trans_eq (h.tiles.width item hm).1.symm)
  · exact (sub_pos.mp (h.tiles.height_pos item hm)).le
  · linarith
  · rw [htop]
    split <;> linarith
  · linarith
  · linarith

theorem roomBelow_within (hroom : tab.strip.core.rect.Holds tab.strip.minimumSize) :
    tab.strip.roomBelow.Within tab.strip.core.rect := by
  have hpadding : 0 ≤ tab.strip.settings.contentPadding * tab.strip.core.scale :=
    h.padding_nonneg .content
  have hwidth := h.leftOf_le hroom 0
  rw [TabStrip.leftOf_zero] at hwidth
  have hheight := TabStrip.height_le hroom
  have hscale := h.scale_le_height
  have hpos := h.scale_pos
  constructor
  · constructor <;> simp only [TabStrip.roomBelow] <;> linarith
  all_goals
    simp only [TabStrip.roomBelow]
    linarith

theorem fits (hroom : tab.strip.core.rect.Holds tab.strip.minimumSize) : tab.Fits := by
  refine ⟨fun item hm => h.item_within hroom hm, ?_⟩
  have hwithin := h.roomBelow_within hroom
  obtain ⟨index, hselected⟩ := Option.ne_none_iff_exists'.mp
    (mt h.selection.selected_eq_none.mp h.pages_ne_nil)
  have hlt := h.selection.selected_lt index hselected
  have hpage : tab.selectedPage? = some tab.pages[index] := by
    rw [selectedPage?, hselected, Option.bind_some, List.getElem?_eq_getElem hlt]
  have hplace : tab.pages[index].core.rect = tab.strip.roomBelow :=
    (h.tidy.placed _ hpage).eq.trans (TabStrip.pageRect_eq hwithin.toOrdered)
  exact ⟨_, hpage, hplace, hplace ▸ hwithin⟩

/-! ## Placement -/

variable {tab' : Tab Rat} {rect : Rect Rat}

theorem minimumSize_height : tab.strip.minimumSize.height =
    tab.strip.measuredHeight + 2 * tab.strip.settings.contentPadding * tab.strip.core.scale := by
  rw [tab.strip.minimumSize_height, h.tidy.uniform.height_eq]

theorem of_placed (hstrip : tab'.strip = tab.strip.placed (.allocate rect)) (htidy : tab'.Tidy Eq)
    (hselection : tab'.Selection) : tab'.Legible := by
  have hstyle := tab.strip.sameStyle_allocate rect
  rw [← hstrip] at hstyle
  have hreference :
      tab'.strip.metrics.measure tab'.strip.settings.referenceText tab'.strip.core.font =
        tab.strip.metrics.measure tab.strip.settings.referenceText tab.strip.core.font := by
    rw [hstyle.metrics_eq, hstyle.settings_eq, hstyle.look.font_eq]
  refine ⟨⟨hstyle.settings_eq ▸ h.padding, hreference ▸ h.height⟩, htidy, hselection, ?_,
    hstyle.look.scale_eq ▸ h.scale_pos, hstyle.metrics_eq ▸ h.width, hreference ▸ h.reference⟩
  have hselected : tab'.strip.selected = tab.strip.selected := hstrip ▸ TabStrip.placed_selected _ _
  rw [Ne, ← hselection.selected_eq_none, hselected, h.selection.selected_eq_none]
  exact h.pages_ne_nil

/-- The smallest size does not depend on the place. -/
theorem minimumSize_of_placed (hstrip : tab'.strip = tab.strip.placed (.allocate rect))
    (h' : tab'.Legible) : tab'.strip.minimumSize = tab.strip.minimumSize := by
  have hstyle := tab.strip.sameStyle_allocate rect
  have hsizes : (tab.strip.placed (.allocate rect)).items.map (·.size.width) =
      tab.strip.items.map (·.size.width) := TabStrip.map_layout_items _ (fun _ _ => rfl) _
  rw [← hstrip] at hstyle hsizes
  have hwidth : tab'.strip.minimumSize.width = tab.strip.minimumSize.width := by
    rw [h'.minimumSize_width, h.minimumSize_width, hsizes, hstyle.settings_eq,
      hstyle.look.scale_eq]
  have hheight : tab'.strip.minimumSize.height = tab.strip.minimumSize.height := by
    rw [h'.minimumSize_height, h.minimumSize_height, hstyle.measuredHeight_eq, hstyle.settings_eq,
      hstyle.look.scale_eq]
  exact congrArg₂ Size.mk hwidth hheight

end Legible

/-- A tab that is allocated a place is laid out there. -/
theorem Legible.allocate {tab : Tab Rat} (h : tab.Legible) (htidy : tab.toView.Tidy Eq)
    (hcoherent : tab.toView.Coherent) (rect : Rect Rat) :
    ∃ tab' : Tab Rat, (tab.toView.place (.allocate rect)).value = tab'.toView ∧ tab'.Legible ∧
      tab'.strip.core.rect = rect ∧ tab'.strip.minimumSize = tab.strip.minimumSize := by
  let place : Placement Rat → View Rat → _ := View.placeWithin (View.depths tab.pages)
  let tab' : Tab Rat := (tab.placeBy place (.allocate rect)).value
  have hview : (tab.toView.place (.allocate rect)).value = tab'.toView := rfl
  have hstrip : tab'.strip = tab.strip.placed (.allocate rect) := placeBy_strip _ tab _
  have htidy' : tab'.toView.Tidy Eq := hview ▸ View.tidy_place Coord.isCongruence_eq _ htidy
  have hcoherent' : tab'.toView.Coherent := hview ▸ (View.steady_place _ _ hcoherent).value.1
  have hlegible : tab'.Legible :=
    h.of_placed hstrip (View.tidy_toView.mp htidy').1 (coherent_toView.mp hcoherent').selection
  have hplaced := tab.strip.placed_core Coord.isCongruence_eq (.allocate rect)
  rw [← hstrip] at hplaced
  exact ⟨tab', hview, hlegible, hplaced.1.eq, h.minimumSize_of_placed hstrip hlegible⟩

end Tab

/-! ## Histories -/

namespace View

/-- The smallest size of a tab adds up the widths of its titles and the padding around the page. In
a place that is no smaller, its items and its selected page lie inside the tab, and the page is as
large as the padding and the strip leave it. In logical units the smallest size is that divided by
the scale factor. -/
theorem reachable_fits {root : View Rat} (h : root.Reachable Proper) {path : List Branch}
    {tab : Tab Rat} (hat : root.at? path = some tab.toView) {settings : Settings Rat}
    (hvalid : settings.isValid) (hsettings : tab.strip.settings = settings.tab)
    (hmetrics : ∀ text font, 0 ≤ (tab.strip.metrics.measure text font).width ∧
      0 ≤ (tab.strip.metrics.measure text font).height)
    (hreference : 1 ≤
      (tab.strip.metrics.measure tab.strip.settings.referenceText tab.strip.core.font).height)
    (hscale : 0 < tab.strip.core.scale) (hpages : tab.pages ≠ []) :
    tab.strip.minimumSize.width =
        (tab.strip.items.map (·.measured.width)).sum +
          2 * tab.strip.settings.contentPadding * tab.strip.core.scale ∧
      tab.strip.minimumSize =
        ⟨tab.minimumSize.width * tab.strip.core.scale,
          tab.minimumSize.height * tab.strip.core.scale⟩ ∧
      (tab.strip.core.rect.Holds tab.strip.minimumSize → tab.Fits) ∧
      ∀ rect : Rect Rat, rect.Holds tab.strip.minimumSize →
        ∃ tab' : Tab Rat,
          (root.stepAt path (.place (.allocate rect))).value.2.at? path = some tab'.toView ∧
            tab'.strip.core.rect = rect ∧ tab'.Fits := by
  have htidy : tab.toView.Tidy Eq := (h.tidy Coord.isCongruence_eq).at? hat
  have hcoherent : tab.toView.Coherent := h.respects.coherent.at? hat
  have hselection : tab.Selection := (Tab.coherent_toView.mp hcoherent).selection
  have hsized := Tab.sized_of_isValid hvalid hsettings fun text font => (hmetrics text font).2
  have hlegible : tab.Legible :=
    ⟨hsized, (tidy_toView.mp htidy).1, hselection, hpages, hscale,
      fun text font => (hmetrics text font).1, hreference⟩
  have hmeasured : tab.strip.items.map (·.size.width) = tab.strip.items.map (·.measured.width) :=
    List.map_congr_left fun item hm => by rw [← (hlegible.tiles.width item hm).2]
  refine ⟨hmeasured ▸ hlegible.minimumSize_width, ?_, hlegible.fits, fun rect hroom => ?_⟩
  · exact congrArg₂ Size.mk (div_mul_cancel₀ _ hscale.ne').symm (div_mul_cancel₀ _ hscale.ne').symm
  · obtain ⟨tab', hview, hlegible', hrect, hsize⟩ := hlegible.allocate htidy hcoherent rect
    refine ⟨tab', ?_, hrect, hlegible'.fits ?_⟩
    · rw [stepAt, hat]
      change (root.replaceAt path (tab.toView.place (.allocate rect)).value).at? path = _
      rw [hview]
      exact at?_replaceAt hat fun entry heq => nomatch heq
    · rwa [hrect, hsize]

/-- Two pages at twice the scale, in the smallest place that has room for them. -/
theorem reachable_fits_smallest_place :
    let page (number : Nat) : View Rat := .plain (.new (.view number)) ⟨"crate", "Page"⟩
    let settings : Settings Rat := .standard
    let metrics : TextMetrics Rat := ⟨fun _ _ => ⟨8, 10⟩⟩
    let root := (Tab.new (.view 0) metrics settings).toView.run
      [.addPage "one" (page 1), .addPage "two" (page 2), .place (.rescale 2)]
    root.Reachable Proper ∧ settings.isValid = true ∧
      ∃ tab : Tab Rat, root = tab.toView ∧ tab.strip.core.scale = 2 ∧
        tab.strip.minimumSize = ⟨68, 47⟩ ∧
          ∃ tab' : Tab Rat,
            (root.stepAt [] (.place (.allocate ⟨3, 4, 71, 51⟩))).value.2.at? [] =
              some tab'.toView ∧ tab'.Fits := by
  intro page settings metrics root
  have hroot : root.Reachable Proper :=
    (Reachable.tab _ _ _).run (by simp) (by simp [ViewStep.added?, Reachable.plain, page])
  have hvalid : settings.isValid = true := by decide +kernel
  have hpresent : root.tab?.map (fun tab =>
      (tab.strip.core.scale, tab.strip.minimumSize.width, tab.strip.minimumSize.height,
        tab.pages.length)) = some (2, 68, 47, 2) := by decide +kernel
  obtain ⟨tab, htab, hpresent⟩ := Option.map_eq_some_iff.mp hpresent
  simp only [Prod.mk.injEq] at hpresent
  obtain ⟨hscale, hwidth, hheight, hlength⟩ := hpresent
  have hview := eq_toView_of_tab? htab
  have hat : root.at? [] = some tab.toView := congrArg some hview
  have hpage : ∀ number, (page number).Strips (TabStrip.MeasuresWith metrics settings.tab) :=
    fun _ => everyTab_leaf rfl
  have hmade : root.Strips (TabStrip.MeasuresWith metrics settings.tab) :=
    run_measuresWith (strips_toView.mpr ⟨⟨rfl, rfl⟩, by simp [Tab.new]⟩)
      (by simp [ViewStep.added?, hpage])
  obtain ⟨hmetrics, hsettings⟩ := hmade [] tab hat
  have hpages : tab.pages ≠ [] := List.ne_nil_of_length_pos (by simp [hlength])
  have hroom : Rect.Holds ⟨3, 4, 71, 51⟩ tab.strip.minimumSize := by
    constructor
    · norm_num [hwidth, Rect.width]
    · norm_num [hheight, Rect.height]
  obtain ⟨-, -, -, hfits⟩ := reachable_fits hroot hat hvalid hsettings
    (by simp [hmetrics, metrics]) (by simp [hmetrics, metrics]) (by simp [hscale]) hpages
  obtain ⟨tab', hat', -, hfits'⟩ := hfits _ hroom
  exact ⟨hroot, hvalid, tab, hview, hscale, congrArg₂ Size.mk hwidth hheight, tab', hat', hfits'⟩

end View

end WidgetToolkit
