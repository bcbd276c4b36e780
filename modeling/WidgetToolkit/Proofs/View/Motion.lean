import WidgetToolkit.Proofs.View.Pressing
import WidgetToolkit.Proofs.View.Scheduling

/-! # Motion and presses

A press that hits an item does not reach the page below it, but motion does. That makes a difference
where the page reaches into the strip, which it does if the padding around it is less than the one
line by which a page is moved up. -/

namespace WidgetToolkit

/-! ## Who is asked -/

section

variable {K : Type} [Coord K] {α β : Type}

omit [Coord K] in
/-- An operation that is given what views answer to an event asks a view if its answer matters. -/
def View.IsAsked (view : View K) (operation : (View K → α) → β) : Prop :=
  ∃ answer answer' : View K → α, (∀ other, other ≠ view → answer other = answer' other) ∧
    operation answer ≠ operation answer'

/-- The strip takes the pointer to be over an item if there is one. -/
theorem TabStrip.isSome_track_hovered (strip : TabStrip K) (p : Point K) :
    (strip.track p).hovered.isSome = true ↔ ¬strip.Misses p := by
  rw [strip.track_hovered, ← itemAt?_eq_none_iff]
  cases hitem : strip.itemAt? p with
  | none => simp
  | some index =>
      obtain ⟨hi, -⟩ := List.findIdx?_eq_some_iff_getElem.mp hitem
      simp [hi]

namespace Tab

variable {tab : Tab K} {p : Point K} {move : View K → Told (Notice K) (View K)}

theorem moveBy_of_pageAt {index : Nat} {page : View K} (h : tab.PageAt p index page) :
    tab.moveBy move p = do
      let page ← move page
      return { tab with strip := tab.strip.track p, pages := tab.pages.set index page } := by
  have hpageAt : Tab.pageAt? { tab with strip := tab.strip.track p } p = some index := by
    rw [← h.pageAt?]
    simp only [Tab.pageAt?, (tab.strip.still_track p).selected_eq]
  simp only [moveBy, forwardMoveBy, hpageAt]
  rw [Told.modifyNth_of_getElem? h.present, bind_assoc]
  rfl

theorem moveBy_of_not_pageAt (h : ∀ index page, ¬tab.PageAt p index page) :
    tab.moveBy move p = pure { tab with strip := tab.strip.track p } := by
  have hpageAt : Tab.pageAt? { tab with strip := tab.strip.track p } p = none := by
    rw [← pageAt?_eq_none_iff.mpr h]
    simp only [Tab.pageAt?, (tab.strip.still_track p).selected_eq]
  simp only [moveBy, forwardMoveBy, hpageAt]

/-- Motion is passed on to the selected page under the pointer. -/
theorem isAsked_moveBy_iff {page : View K} :
    page.IsAsked (fun move => tab.moveBy move p) ↔ ∃ index, tab.PageAt p index page := by
  constructor
  · rintro ⟨move, move', hsame, hne⟩
    by_contra hnone
    refine hne ?_
    by_cases hother : ∃ index other, tab.PageAt p index other
    · obtain ⟨index, other, hother⟩ := hother
      have hpage : other ≠ page := fun heq => hnone ⟨index, heq ▸ hother⟩
      simp only [moveBy_of_pageAt hother, hsame other hpage]
    · have hother : ∀ index other, ¬tab.PageAt p index other :=
        fun index other h => hother ⟨index, other, h⟩
      simp only [moveBy_of_not_pageAt hother]
  · rintro ⟨index, hpage⟩
    classical
    let move (view : View K) : Told (Notice K) (View K) :=
      ⟨view, if view = page then [.laidOut page.id] else []⟩
    refine ⟨pure, move, fun other hne => ?_, fun heq => ?_⟩
    · simp only [move, if_neg hne]
      rfl
    · have hnotices := congrArg Told.notices heq
      simp [moveBy_of_pageAt hpage, move] at hnotices

/-- A press is passed on to the selected page under the pointer, unless an item is there. -/
theorem isAsked_clickBy_iff {page : View K} {event : PointerEvent K}
    (henabled : tab.strip.core.isDisabled = false) :
    page.IsAsked (fun click => tab.clickBy click event) ↔
      tab.strip.Misses event.position ∧ ∃ index, tab.PageAt event.position index page := by
  constructor
  · rintro ⟨click, click', hsame, hne⟩
    rcases tab.under_pointer event.position with
      ⟨index, entry, hitem⟩ | ⟨hmisses, -⟩
    · exact absurd (by simp only [clickBy_of_firstAt henabled hitem]) hne
    · refine ⟨hmisses, ?_⟩
      by_contra hnone
      refine hne (clickBy_congr fun index other hother => hsame other fun heq => ?_)
      exact hnone ⟨index, heq ▸ hother⟩
  · rintro ⟨hmisses, index, hpage⟩
    classical
    refine ⟨fun view => pure (false, view), fun view => pure (decide (view = page), view),
      fun other hne => by simp [hne], fun heq => ?_⟩
    have htaken := congrArg (fun told => told.value.1) heq
    simp [clickBy_of_pageAt henabled hmisses hpage] at htaken

end Tab

end

/-! ## Where the page reaches into the strip -/

theorem TabStrip.placeRects_y1 {origin : Point Rat} {height inset x : Rat} (hheight : 0 ≤ height)
    (extents : List (Rat × Bool)) :
    ∀ rect ∈ placeRects origin height inset x extents, rect.y1 = origin.y + height := by
  induction extents generalizing x with
  | nil => exact fun _ hm => absurd hm List.not_mem_nil
  | cons extent rest ih =>
      obtain ⟨width, selected⟩ := extent
      have hbottom : max (origin.y + 0) (origin.y + 0 + height) = origin.y + height := by
        rw [add_zero, max_eq_right (le_add_of_nonneg_right hheight)]
      refine List.forall_mem_cons.mpr ⟨?_, ih⟩
      rw [← hbottom, ← Coord.greatest_eq_max]
      split <;> rfl

namespace Tab

variable {tab : Tab Rat}

/-- The lower edge of the strip. -/
def stripBottom (tab : Tab Rat) : Rat := tab.strip.core.rect.y0 + tab.strip.height

theorem Sized.height_nonneg (h : tab.Sized) (hscale : 0 < tab.strip.core.scale)
    (huniform : tab.strip.Uniform) : 0 ≤ tab.strip.height := by
  rw [huniform.height_eq]
  exact (mul_nonneg (h.padding .top) hscale.le).trans (h.inset_lt_height hscale).le

/-- The items end at the lower edge of the strip. -/
theorem Tidy.lt_stripBottom (h : tab.Tidy Eq) (hsized : tab.Sized)
    (hscale : 0 < tab.strip.core.scale) {p : Point Rat} (hhit : ¬tab.strip.Misses p) :
    p.y < tab.stripBottom := by
  obtain ⟨index, entry, hitem⟩ := (tab.under_pointer p).resolve_right fun h => hhit h.1
  have hbottom : entry.core.rect.y1 = tab.stripBottom :=
    TabStrip.placeRects_y1 (hsized.height_nonneg hscale h.uniform) _ _
      (h.mem_slots (List.mem_of_getElem? hitem.present))
  have hrect : entry.core.rect.contains p = true := hitem.contains
  exact (Rect.contains_iff.mp hrect).2.2.trans_eq hbottom

/-- The page begins one line above its padding. -/
theorem Tidy.le_of_pageAt (h : tab.Tidy Eq) {p : Point Rat} {index : Nat} {page : View Rat}
    (hpage : tab.PageAt p index page) :
    tab.stripBottom - (1 - tab.strip.settings.contentPadding) * tab.strip.core.scale ≤ p.y := by
  have hrect : tab.strip.pageRect.contains p = true :=
    (h.placed page hpage.selectedPage?).eq ▸ hpage.contains
  have htop : tab.strip.pageRect.y0 =
      tab.stripBottom - (1 - tab.strip.settings.contentPadding) * tab.strip.core.scale := by
    simp only [TabStrip.pageRect, stripBottom]
    rw [sub_mul, one_mul]
    linarith
  exact htop ▸ (Rect.contains_iff.mp hrect).2.1

end Tab

namespace View

/-- Motion reaches the selected page exactly if a press does, unless the strip takes the pointer to be
over an item as well. Where it does so, the page reaches into the strip: the padding around the page
is less than the line by which the page is moved up. A tab with valid settings is sized, by
`Tab.sized_of_isValid`. -/
theorem reachable_motion {root : View Rat} (h : root.Reachable Proper) {path : List Branch}
    {tab : Tab Rat} (hat : root.at? path = some tab.toView) (hsized : tab.Sized)
    (hscale : 0 < tab.strip.core.scale) (henabled : tab.strip.core.isDisabled = false)
    (page : View Rat) (press : PointerEvent Rat) :
    let moved := page.IsAsked fun move => tab.moveBy move press.position
    let pressed := page.IsAsked fun click => tab.clickBy click press
    let hovers := (tab.strip.track press.position).hovered.isSome = true
    ((moved ↔ pressed) ↔ ¬(moved ∧ hovers)) ∧
      (moved ∧ hovers →
        tab.stripBottom - (1 - tab.strip.settings.contentPadding) * tab.strip.core.scale ≤
            press.position.y ∧ press.position.y < tab.stripBottom) ∧
      (1 ≤ tab.strip.settings.contentPadding → (moved ↔ pressed) ∧ ¬(moved ∧ hovers)) := by
  intro moved pressed hovers
  have htidy : tab.Tidy Eq := h.tidy Coord.isCongruence_eq path tab hat
  have hmoved : moved ↔ ∃ index, tab.PageAt press.position index page := Tab.isAsked_moveBy_iff
  have hpressed : pressed ↔ tab.strip.Misses press.position ∧ moved :=
    (Tab.isAsked_clickBy_iff henabled).trans (and_congr_right fun _ => hmoved.symm)
  have hhovers : hovers ↔ ¬tab.strip.Misses press.position := tab.strip.isSome_track_hovered _
  have halike : (moved ↔ pressed) ↔ ¬(moved ∧ hovers) := by
    rw [hpressed, hhovers, not_and_not_right, iff_and_self]
  have hband : moved ∧ hovers →
      tab.stripBottom - (1 - tab.strip.settings.contentPadding) * tab.strip.core.scale ≤
          press.position.y ∧ press.position.y < tab.stripBottom := by
    rintro ⟨hmove, hhit⟩
    obtain ⟨index, hat⟩ := hmoved.mp hmove
    exact ⟨htidy.le_of_pageAt hat, htidy.lt_stripBottom hsized hscale (hhovers.mp hhit)⟩
  have hapart : 1 ≤ tab.strip.settings.contentPadding → ¬(moved ∧ hovers) := by
    intro hpadding hboth
    obtain ⟨hlow, hhigh⟩ := hband hboth
    have hoverlap : (1 - tab.strip.settings.contentPadding) * tab.strip.core.scale ≤ 0 :=
      mul_nonpos_of_nonpos_of_nonneg (sub_nonpos.mpr hpadding) hscale.le
    linarith
  exact ⟨halike, hband, fun hpadding => ⟨halike.mpr (hapart hpadding), hapart hpadding⟩⟩

/-- With the standard settings, what is over the page reaches it, as motion and as a press. -/
theorem reachable_motion_standard :
    let panel (number : Nat) : View Rat := .panel (.new (.view number)) .empty
    let settings : Settings Rat := .standard
    let root := (Tab.new (.view 0) ⟨fun _ _ => ⟨8, 10⟩⟩ settings).toView.run
      [.addPage "one" (panel 1), .addPage "two" (panel 2), .place (.allocate ⟨0, 0, 100, 100⟩)]
    let press : PointerEvent Rat := ⟨.down, some .left, ⟨50, 50⟩⟩
    root.Reachable Proper ∧ settings.isValid = true ∧
      ∃ (tab : Tab Rat) (page : View Rat), root = tab.toView ∧ tab.selectedPage? = some page ∧
        1 ≤ tab.strip.settings.contentPadding ∧
        page.IsAsked (fun move => tab.moveBy move press.position) ∧
        page.IsAsked (fun click => tab.clickBy click press) := by
  intro panel settings root press
  have hroot : root.Reachable Proper :=
    (Reachable.tab _ _ _).run (by simp) (by simp [ViewStep.added?, Reachable.panel, panel])
  have hvalid : settings.isValid = true := by decide +kernel
  have hpresent : root.tab?.any (fun tab => decide (tab.Sized ∧ 0 < tab.strip.core.scale ∧
      tab.strip.core.isDisabled = false ∧ 1 ≤ tab.strip.settings.contentPadding ∧
      tab.pageAt? press.position = some 0)) := by decide +kernel
  obtain ⟨tab, htab, hpresent⟩ := (Option.any_eq_true _ _).mp hpresent
  obtain ⟨hsized, hscale, henabled, hpadding, hpageAt⟩ := of_decide_eq_true hpresent
  have hview := eq_toView_of_tab? htab
  have hat : root.at? [] = some tab.toView := congrArg some hview
  obtain ⟨page, hpage⟩ := Tab.pageAt_of_pageAt? hpageAt
  have hmoved := Tab.isAsked_moveBy_iff.mpr ⟨0, hpage⟩
  obtain ⟨-, -, halike⟩ := reachable_motion hroot hat hsized hscale henabled page press
  exact ⟨hroot, hvalid, tab, page, hview, hpage.selectedPage?, hpadding, hmoved,
    (halike hpadding).1.mp hmoved⟩

/-- Without padding around the page, motion at the lower edge of the strip both shows an item that
the pointer is over it and reaches the page. A press does not reach it. -/
theorem reachable_motion_without_padding :
    let panel (number : Nat) : View Rat := .panel (.new (.view number)) .empty
    let settings : Settings Rat :=
      { Settings.standard with tab := { TabSettings.standard with contentPadding := 0 } }
    let root := (Tab.new (.view 0) ⟨fun _ _ => ⟨8, 10⟩⟩ settings).toView.run
      [.addPage "one" (panel 1), .addPage "two" (panel 2), .place (.allocate ⟨0, 0, 100, 100⟩)]
    let press : PointerEvent Rat := ⟨.down, some .left, ⟨15, 27 / 2⟩⟩
    root.Reachable Proper ∧ settings.isValid = true ∧
      ∃ (tab : Tab Rat) (page : View Rat), root = tab.toView ∧ tab.selectedPage? = some page ∧
        tab.strip.core.isDisabled = false ∧
        page.IsAsked (fun move => tab.moveBy move press.position) ∧
        ¬page.IsAsked (fun click => tab.clickBy click press) ∧
        ∃ entry ∈ (tab.strip.track press.position).items, entry.core.state = .hovered := by
  intro panel settings root press
  have hroot : root.Reachable Proper :=
    (Reachable.tab _ _ _).run (by simp) (by simp [ViewStep.added?, Reachable.panel, panel])
  have hpresent : root.tab?.any (fun tab => decide (tab.strip.core.isDisabled = false ∧
      tab.strip.itemAt? press.position = some 1 ∧ tab.pageAt? press.position = some 0 ∧
      ∃ entry ∈ (tab.strip.track press.position).items, entry.core.state = .hovered)) := by
    decide +kernel
  obtain ⟨tab, htab, hpresent⟩ := (Option.any_eq_true _ _).mp hpresent
  obtain ⟨henabled, hitem, hpageAt, hshown⟩ := of_decide_eq_true hpresent
  obtain ⟨page, hpage⟩ := Tab.pageAt_of_pageAt? hpageAt
  refine ⟨hroot, by decide +kernel, tab, page, eq_toView_of_tab? htab, hpage.selectedPage?,
    henabled, Tab.isAsked_moveBy_iff.mpr ⟨0, hpage⟩, fun hpressed => ?_, hshown⟩
  have hmisses := ((Tab.isAsked_clickBy_iff henabled).mp hpressed).1
  rw [TabStrip.itemAt?_eq_none_iff.mpr hmisses] at hitem
  cases hitem

end View

end WidgetToolkit
