import WidgetToolkit.Proofs.View.Motion

/-! # The strip is tiled

In exact numbers, the items of a strip stand side by side from its left edge, each as wide as its title
asks for, and all reach down to the lower edge of the strip. So a point is in one item at most. -/

namespace WidgetToolkit

/-! ## Where an item goes -/

namespace TabStrip

/-- The place of an item with a given extent, at some distance from the left edge. -/
def slotAt (origin : Point Rat) (height inset left : Rat) (extent : Rat × Bool) : Rect Rat :=
  ⟨origin.x + left, origin.y + if extent.2 then 0 else inset, origin.x + left + extent.1,
    origin.y + height⟩

/-- Where the item at an index begins, if those before it stand side by side from some distance on. -/
def leftOf : Rat → List (Rat × Bool) → Nat → Rat
  | left, (width, _) :: rest, index + 1 => leftOf (left + width) rest index
  | left, _, _ => left

theorem leftOf_zero (left : Rat) (extents : List (Rat × Bool)) : leftOf left extents 0 = left := by
  cases extents <;> rfl

theorem leftOf_succ {extents : List (Rat × Bool)} {index : Nat} {extent : Rat × Bool}
    (hextent : extents[index]? = some extent) (left : Rat) :
    leftOf left extents (index + 1) = leftOf left extents index + extent.1 := by
  induction extents generalizing left index with
  | nil => cases hextent
  | cons first rest ih =>
      cases index with
      | zero =>
          obtain rfl : first = extent := Option.some.inj hextent
          rw [leftOf_zero, leftOf, leftOf_zero]
      | succ index => exact ih hextent _

section

variable {origin : Point Rat} {height inset : Rat} (hheight : 0 ≤ height)

include hheight

theorem placeRects_cons (left : Rat) {extent : Rat × Bool} (hwidth : 0 ≤ extent.1)
    (rest : List (Rat × Bool)) :
    placeRects origin height inset left (extent :: rest) =
      slotAt origin height inset left extent ::
        placeRects origin height inset (left + extent.1) rest := by
  obtain ⟨width, selected⟩ := extent
  have hrect : Rect.ofOriginSize (origin + (⟨left, 0⟩ : Offset Rat)) ⟨width, height⟩ =
      slotAt origin height inset left (width, true) := by
    rw [Rect.ofOriginSize_eq _ hwidth hheight]
    change Rect.mk (origin.x + left) (origin.y + 0) (origin.x + left + width)
      (origin.y + 0 + height) = _
    simp [slotAt]
  have hextent : (slotAt origin height inset left (width, true)).width = width :=
    add_sub_cancel_left _ _
  simp only [placeRects, hrect, hextent]
  cases selected <;> simp [slotAt]

/-- Every place is told by the widths before it. -/
theorem placeRects_getElem? {extents : List (Rat × Bool)}
    (hwidths : ∀ extent ∈ extents, 0 ≤ extent.1) (left : Rat) (index : Nat) :
    (placeRects origin height inset left extents)[index]? =
      extents[index]?.map (slotAt origin height inset (leftOf left extents index)) := by
  induction extents generalizing left index with
  | nil => rfl
  | cons extent rest ih =>
      obtain ⟨hwidth, hrest⟩ := List.forall_mem_cons.mp hwidths
      rw [placeRects_cons hheight left hwidth]
      cases index with
      | zero => rfl
      | succ index => exact ih hrest _ index

end

/-! ## Side by side -/

/-- The items stand side by side from the left edge of the strip to the right, each as wide as its
title asks for. They all end at the lower edge of the strip; the selected one begins at the upper edge,
the others begin below it. -/
structure Tiles (strip : TabStrip Rat) : Prop where
  first : ∀ item, strip.items[0]? = some item → item.core.rect.x0 = strip.core.rect.x0
  next : ∀ index item item', strip.items[index]? = some item →
    strip.items[index + 1]? = some item' → item'.core.rect.x0 = item.core.rect.x1
  width : ∀ item ∈ strip.items,
    item.core.rect.width = item.size.width ∧ item.size = item.measured
  top : ∀ index item, strip.items[index]? = some item →
    item.core.rect.y0 =
      if strip.selected = some index then strip.core.rect.y0
      else strip.core.rect.y0 + strip.settings.topPadding * strip.core.scale
  bottom : ∀ item ∈ strip.items, item.core.rect.y1 = strip.core.rect.y0 + strip.height
  height_pos : ∀ item ∈ strip.items, 0 < item.core.rect.height

namespace Tiles

variable {strip : TabStrip Rat} (h : strip.Tiles)
  (hordered : ∀ item ∈ strip.items, item.core.rect.x0 ≤ item.core.rect.x1)

include h hordered

/-- An item begins where an earlier one has ended, or further to the right. -/
theorem x1_le_x0 {index later : Nat} (hlt : index < later) {item item' : TabItem Rat}
    (hitem : strip.items[index]? = some item) (hitem' : strip.items[later]? = some item') :
    item.core.rect.x1 ≤ item'.core.rect.x0 := by
  induction later, hlt using Nat.le_induction generalizing item' with
  | base => exact (h.next index item item' hitem hitem').ge
  | succ later _ ih =>
      obtain ⟨hlater, -⟩ := List.getElem?_eq_some_iff.mp hitem'
      have hbetween : strip.items[later]? = some strip.items[later] := List.getElem?_eq_getElem _
      calc item.core.rect.x1 ≤ strip.items[later].core.rect.x0 := ih hbetween
        _ ≤ strip.items[later].core.rect.x1 := hordered _ (List.getElem_mem _)
        _ = item'.core.rect.x0 := (h.next later _ item' hbetween hitem').symm

/-- A point is in one item at most. -/
theorem eq_of_contains {index index' : Nat} {item item' : TabItem Rat} {p : Point Rat}
    (hitem : strip.items[index]? = some item) (hitem' : strip.items[index']? = some item')
    (hcontains : item.core.contains p = true) (hcontains' : item'.core.contains p = true) :
    index = index' := by
  have hx := (Rect.contains_iff.mp hcontains).1
  have hx' := (Rect.contains_iff.mp hcontains').1
  rcases Nat.lt_trichotomy index index' with hlt | heq | hgt
  · have hapart := h.x1_le_x0 hordered hlt hitem hitem'
    exact absurd (hx.2.trans_le (hapart.trans hx'.1)) (lt_irrefl _)
  · exact heq
  · have hapart := h.x1_le_x0 hordered hgt hitem' hitem
    exact absurd (hx'.2.trans_le (hapart.trans hx.1)) (lt_irrefl _)

/-- The item at a point is the one that contains it. -/
theorem itemAt?_eq_some_iff {p : Point Rat} {index : Nat} :
    strip.itemAt? p = some index ↔
      ∃ item, strip.items[index]? = some item ∧ item.core.contains p = true := by
  rw [itemAt?, List.findIdx?_eq_some_iff_getElem]
  constructor
  · rintro ⟨hi, hcontains, -⟩
    exact ⟨_, List.getElem?_eq_getElem hi, hcontains⟩
  · rintro ⟨item, hitem, hcontains⟩
    obtain ⟨hi, rfl⟩ := List.getElem?_eq_some_iff.mp hitem
    refine ⟨hi, hcontains, fun other hlt hother => hlt.ne ?_⟩
    exact h.eq_of_contains hordered (List.getElem?_eq_getElem _) hitem hother hcontains

end Tiles

end TabStrip

/-! ## Tidy tabs -/

namespace Tab

variable {tab : Tab Rat}

/-- A title with a width makes an item with a width. -/
theorem Sized.measured_width_nonneg (h : tab.Sized) (hscale : 0 < tab.strip.core.scale)
    {item : TabItem Rat} (hdresses : tab.strip.Dresses item)
    (hwidth : 0 ≤ (item.metrics.measure item.title item.core.font).width) :
    0 ≤ item.size.width := by
  rw [hdresses.size_eq, TabItem.measured, hdresses.scale_eq, hdresses.settings_eq]
  have hceil := (mul_nonneg hwidth hscale.le).trans Rat.le_ceil
  have hpadding : 0 ≤ tab.strip.settings.horizontalPadding := h.padding .horizontal
  exact add_nonneg hceil (mul_nonneg (mul_nonneg (by norm_num) hpadding) hscale.le)

theorem Tidy.size_width_nonneg (h : tab.Tidy Eq) (hsized : tab.Sized)
    (hscale : 0 < tab.strip.core.scale)
    (hmetrics : ∀ text font, 0 ≤ (tab.strip.metrics.measure text font).width) :
    ∀ item ∈ tab.strip.items, 0 ≤ item.size.width := by
  intro item hm
  have hdresses := h.uniform.dresses item hm
  exact hsized.measured_width_nonneg hscale hdresses (hdresses.metrics_eq ▸ hmetrics _ _)

section

variable (h : tab.Tidy Eq) (hsized : tab.Sized) (hscale : 0 < tab.strip.core.scale)
  (hwidths : ∀ item ∈ tab.strip.items, 0 ≤ item.size.width)

include h hsized hscale hwidths

/-- The place of an item in a tidy strip. -/
theorem Tidy.rect_eq {index : Nat} {item : TabItem Rat}
    (hitem : tab.strip.items[index]? = some item) :
    item.core.rect =
      TabStrip.slotAt tab.strip.core.rect.origin tab.strip.height
        (tab.strip.settings.topPadding * tab.strip.core.scale)
        (TabStrip.leftOf 0 (tab.strip.items.map TabItem.extent) index) item.extent := by
  have hrects : tab.strip.items.map (·.core.rect) = tab.strip.slots :=
    List.forall₂_eq_eq_eq ▸ h.arranged.imp fun _ _ hsame => hsame.eq
  have hextents : ∀ extent ∈ tab.strip.items.map TabItem.extent, 0 ≤ extent.1 :=
    List.forall_mem_map.mpr hwidths
  have hslot := congrArg (·[index]?) hrects
  simp only [TabStrip.slots] at hslot
  rw [TabStrip.placeRects_getElem? (hsized.height_nonneg hscale h.uniform) hextents] at hslot
  simp only [List.getElem?_map, hitem, Option.map_some] at hslot
  exact Option.some.inj hslot

theorem Tidy.tiles (hselection : tab.Selection) : tab.strip.Tiles := by
  have hplace : ∀ index item, tab.strip.items[index]? = some item → _ := fun index item hitem =>
    h.rect_eq hsized hscale hwidths hitem
  have hbottom : ∀ item ∈ tab.strip.items,
      item.core.rect.y1 = tab.strip.core.rect.y0 + tab.strip.height := fun item hm => by
    obtain ⟨index, hitem⟩ := List.mem_iff_getElem?.mp hm
    rw [hplace index item hitem]
    rfl
  have htop : ∀ index item, tab.strip.items[index]? = some item →
      item.core.rect.y0 =
        if tab.strip.selected = some index then tab.strip.core.rect.y0
        else tab.strip.core.rect.y0 + tab.strip.settings.topPadding * tab.strip.core.scale := by
    intro index item hitem
    rw [hplace index item hitem]
    by_cases hselected : tab.strip.selected = some index
    · have hflag : item.selected = true := (hselection.item_selected index item hitem).mpr hselected
      simp [TabStrip.slotAt, TabItem.extent, Rect.origin, hselected, hflag]
    · have hflag : item.selected ≠ true :=
        mt (hselection.item_selected index item hitem).mp hselected
      simp [TabStrip.slotAt, TabItem.extent, Rect.origin, hselected, hflag]
  refine ⟨fun item hitem => ?_, fun index item item' hitem hitem' => ?_, fun item hm => ?_, htop,
    hbottom, fun item hm => ?_⟩
  · rw [hplace 0 item hitem]
    simp [TabStrip.slotAt, TabStrip.leftOf_zero, Rect.origin]
  · have hextent : (tab.strip.items.map TabItem.extent)[index]? = some item.extent := by
      rw [List.getElem?_map, hitem, Option.map_some]
    rw [hplace index item hitem, hplace (index + 1) item' hitem']
    simp [TabStrip.slotAt, TabStrip.leftOf_succ hextent, add_assoc]
  · obtain ⟨index, hitem⟩ := List.mem_iff_getElem?.mp hm
    refine ⟨?_, (h.uniform.dresses item hm).size_eq⟩
    rw [hplace index item hitem]
    exact add_sub_cancel_left _ _
  · obtain ⟨index, hitem⟩ := List.mem_iff_getElem?.mp hm
    have hinset := hsized.inset_lt_height hscale
    have hpadding : 0 ≤ tab.strip.settings.topPadding * tab.strip.core.scale :=
      mul_nonneg (hsized.padding .top) hscale.le
    rw [← h.uniform.height_eq] at hinset
    rw [Rect.height, hbottom item hm, htop index item hitem]
    split <;> linarith

end

end Tab

/-! ## What a tab measures with -/

/-- The strip measures texts with given metrics, and has given paddings. -/
def TabStrip.MeasuresWith {K : Type} (metrics : TextMetrics K) (settings : TabSettings K)
    (strip : TabStrip K) : Prop :=
  strip.metrics = metrics ∧ strip.settings = settings

theorem TabStrip.kept_measuresWith {K : Type} [Coord K] (metrics : TextMetrics K)
    (settings : TabSettings K) :
    Kept (fun _ _ => True) (MeasuresWith metrics settings) where
  withCore _ h := h
  withSelected _ h := h
  rememberHeight h := h
  layout h := h
  setFont _ h := h
  setColor _ h := h
  setScale _ h := h
  setSelected _ _ h := h
  pushItem _ h := h
  eraseItem _ h := h
  track {strip} p h := by
    have hstill := strip.still_track p
    exact ⟨hstill.metrics_eq.trans h.1, hstill.settings_eq.trans h.2⟩
  untrack {strip} h := by
    have hstill := strip.still_untrack
    exact ⟨hstill.metrics_eq.trans h.1, hstill.settings_eq.trans h.2⟩
  touch _ _ h := h

/-- A tab goes on to measure as it was made to. -/
theorem View.run_measuresWith {K : Type} [Coord K] {metrics : TextMetrics K}
    {settings : TabSettings K} {root : View K} {steps : List (ViewStep K)}
    (h : root.Strips (TabStrip.MeasuresWith metrics settings))
    (hadded : ∀ step ∈ steps, ∀ page, step.added? = some page →
      page.Strips (TabStrip.MeasuresWith metrics settings)) :
    (root.run steps).Strips (TabStrip.MeasuresWith metrics settings) := by
  induction steps generalizing root with
  | nil => exact h
  | cons step rest ih =>
      obtain ⟨hstep, hrest⟩ := List.forall_mem_cons.mp hadded
      have hkept := TabStrip.kept_measuresWith metrics settings
      exact ih (hkept.stepAt h (fun _ _ _ _ => trivial) hstep) hrest

/-! ## Histories -/

namespace View

/-- The items of every tab stand side by side. So no two of them share a point, the item at a point is
the one that contains it, and the page below has no negative extent, however little place there is. -/
theorem reachable_tiles {root : View Rat} (h : root.Reachable Proper) {path : List Branch}
    {tab : Tab Rat} (hat : root.at? path = some tab.toView) {settings : Settings Rat}
    (hvalid : settings.isValid) (hsettings : tab.strip.settings = settings.tab)
    (hmetrics : ∀ text font, 0 ≤ (tab.strip.metrics.measure text font).width ∧
      0 ≤ (tab.strip.metrics.measure text font).height)
    (hscale : 0 < tab.strip.core.scale) :
    tab.strip.Tiles ∧
      (∀ p (index index' : Nat) item item', tab.strip.items[index]? = some item →
        tab.strip.items[index']? = some item' → item.core.contains p = true →
          item'.core.contains p = true → index = index') ∧
      (∀ p index, tab.strip.itemAt? p = some index ↔
        ∃ item, tab.strip.items[index]? = some item ∧ item.core.contains p = true) ∧
      ∀ page, tab.selectedPage? = some page →
        page.core.rect.x0 ≤ page.core.rect.x1 ∧ page.core.rect.y0 ≤ page.core.rect.y1 := by
  have htidy : tab.Tidy Eq := h.tidy Coord.isCongruence_eq path tab hat
  have hselection : tab.Selection := h.respects.coherent path tab hat
  have hsized := Tab.sized_of_isValid hvalid hsettings fun text font => (hmetrics text font).2
  have hwidths : ∀ item ∈ tab.strip.items, 0 ≤ item.size.width :=
    htidy.size_width_nonneg hsized hscale fun text font => (hmetrics text font).1
  have htiles := htidy.tiles hsized hscale hwidths hselection
  have hordered : ∀ item ∈ tab.strip.items, item.core.rect.x0 ≤ item.core.rect.x1 := by
    intro item hm
    exact sub_nonneg.mp ((hwidths item hm).trans_eq (htiles.width item hm).1.symm)
  refine ⟨htiles, fun p index index' item item' hitem hitem' hcontains hcontains' => ?_,
    fun p index => htiles.itemAt?_eq_some_iff hordered, fun page hpage => ?_⟩
  · exact htiles.eq_of_contains hordered hitem hitem' hcontains hcontains'
  · have hplace : page.core.rect = tab.strip.pageRect := (htidy.placed page hpage).eq
    have hpageRect := tab.strip.ordered_pageRect
    exact hplace ▸ ⟨hpageRect.x_le, hpageRect.y_le⟩

/-- Two items of a tab that has no room for a page. -/
theorem reachable_tiles_without_room :
    let page (number : Nat) : View Rat := .plain (.new (.view number)) ⟨"crate", "Page"⟩
    let settings : Settings Rat := .standard
    let metrics : TextMetrics Rat := ⟨fun _ _ => ⟨8, 10⟩⟩
    let root := (Tab.new (.view 0) metrics settings).toView.run
      [.addPage "one" (page 1), .addPage "two" (page 2), .place (.allocate ⟨3, 4, 5, 6⟩)]
    root.Reachable Proper ∧ settings.isValid = true ∧
      ∃ tab : Tab Rat, root = tab.toView ∧ tab.strip.items.length = 2 ∧ tab.strip.Tiles ∧
        ∀ p index, tab.strip.itemAt? p = some index ↔
          ∃ item, tab.strip.items[index]? = some item ∧ item.core.contains p = true := by
  intro page settings metrics root
  have hroot : root.Reachable Proper :=
    (Reachable.tab _ _ _).run (by simp) (by simp [ViewStep.added?, Reachable.plain, page])
  have hvalid : settings.isValid = true := by decide +kernel
  have hpresent : root.tab?.map (fun tab => (tab.strip.items.length, tab.strip.core.scale)) =
      some (2, 1) := by decide +kernel
  obtain ⟨tab, htab, hpresent⟩ := Option.map_eq_some_iff.mp hpresent
  obtain ⟨hlength, hscale⟩ := Prod.mk.inj hpresent
  have hview := eq_toView_of_tab? htab
  have hat : root.at? [] = some tab.toView := congrArg some hview
  have hpage : ∀ number, (page number).Strips (TabStrip.MeasuresWith metrics settings.tab) :=
    fun _ => everyTab_leaf rfl
  have hmade : root.Strips (TabStrip.MeasuresWith metrics settings.tab) :=
    run_measuresWith (strips_toView.mpr ⟨⟨rfl, rfl⟩, by simp [Tab.new]⟩)
      (by simp [ViewStep.added?, hpage])
  obtain ⟨hmetrics, hsettings⟩ := hmade [] tab hat
  obtain ⟨htiles, -, hitemAt, -⟩ := reachable_tiles hroot hat hvalid hsettings
    (by simp [hmetrics, metrics]) (by simp [hscale])
  exact ⟨hroot, hvalid, tab, hview, hlength, htiles, hitemAt⟩

end View

end WidgetToolkit
