import WidgetToolkit.Proofs.Paint.Coverage
import WidgetToolkit.Tab.Pages
import WidgetToolkit.View.Drawing

/-! # Repainting a part is as good as repainting all

Over a point of the region, a view draws the same as it draws over it when all of it is repainted: what
is left out would have been drawn elsewhere. -/

namespace WidgetToolkit

/-! ## Drawing is nested -/

section

variable {K : Type} [Coord K]

theorem ViewCore.nested_drawBackground (core : ViewCore K) (region : Rect K) :
    WellNested (core.drawBackground region) := by
  unfold drawBackground
  split
  · exact .nil
  · dsimp only
    split
    · exact .nil
    · exact .draw rfl

theorem ViewCore.nested_drawChild (parent child : ViewCore K) {draw : Rect K → List (PaintCall K)}
    (hdraw : ∀ part, WellNested (draw part)) (region : Rect K) :
    WellNested (parent.drawChild child region draw) := by
  unfold drawChild
  dsimp only
  split
  · exact .nil
  · split
    · exact .nil
    · exact .inside _ _ (hdraw _)

theorem TabItem.nested_draw (item : TabItem K) : WellNested item.draw :=
  .append (.draw rfl) (.draw rfl)

theorem TabStrip.nested_drawPanel (strip : TabStrip K) : WellNested strip.drawPanel := .draw rfl

theorem View.nested_drawWithin (levels : Nat) (view : View K) (region : Rect K) :
    WellNested (view.drawWithin levels region) := by
  induction levels generalizing view region with
  | zero => exact .nil
  | succ levels ih =>
      cases view with
      | panel core | plain core | probe core => exact core.nested_drawBackground region
      | item entry => exact entry.nested_draw
      | group core widget children =>
          exact .flatMap fun child _ => core.nested_drawChild child.core (ih child) region
      | tab strip pages changed =>
          refine .append (.append strip.nested_drawPanel (.flatMap fun entry _ => ?_))
            (.flatMap fun page _ => ?_)
          · exact strip.core.nested_drawChild entry.core (fun _ => entry.nested_draw) region
          · exact strip.core.nested_drawChild page.core (ih page) region

end

/-! ## Over a point -/

namespace ViewCore

variable {recorder : Recorder Rat} {region region' : Rect Rat} {p : Point Rat}

/-- A background is drawn over the points of the view that are in the region. -/
theorem covering_drawBackground (core : ViewCore Rat) (hp : region.contains p) :
    recorder.covering (p + recorder.scope.origin) (core.drawBackground region) =
      if core.localBounds.contains p && recorder.scope.admits (p + recorder.scope.origin) then
        core.background.toList.map .fill
      else [] := by
  have harea : (region.intersect core.localBounds).contains p = core.localBounds.contains p := by
    rw [Rect.contains_intersect, hp, Bool.true_and]
  unfold drawBackground
  cases core.background with
  | none => simp
  | some color =>
      dsimp only
      split
      · rename_i hempty
        have hout : core.localBounds.contains p = false := by
          rw [← harea]
          by_contra hin
          exact absurd hempty (by simp [Rect.isEmpty_of_contains (by simpa using hin)])
        simp [hout]
      · have hmoved : (recorder.scope.absolute (region.intersect core.localBounds)).contains
            (p + recorder.scope.origin) = core.localBounds.contains p :=
          (Rect.contains_add _ _ _).trans harea
        rw [Recorder.covering_singleton rfl, DrawCommand.rect, hmoved]
        rfl

/-- The part of a region that falls on a child is the part that is inside the child. -/
theorem contains_regionFor (parent child : ViewCore Rat)
    (hp : region.contains (p + (child.rect.origin - parent.rect.origin))) :
    (parent.regionFor child region).contains p = child.localBounds.contains p := by
  rw [regionFor, Rect.contains_intersect, Rect.contains_sub, hp, Bool.true_and]

/-- A child is drawn over the points that are inside it. -/
theorem covering_drawChild (parent child : ViewCore Rat)
    {draw : Rect Rat → List (PaintCall Rat)} (hdraw : ∀ part, WellNested (draw part))
    (hp : region.contains (p + (child.rect.origin - parent.rect.origin))) :
    let offset := child.rect.origin - parent.rect.origin
    let inner := recorder.enter offset child.localBounds
    recorder.covering (p + inner.scope.origin) (parent.drawChild child region draw) =
      if child.visible && child.localBounds.contains p then
        inner.covering (p + inner.scope.origin) (draw (parent.regionFor child region))
      else [] := by
  intro offset inner
  have hpart := contains_regionFor parent child hp
  unfold drawChild
  cases hvisible : child.visible with
  | false => simp
  | true =>
      simp only [Bool.not_true, Bool.false_eq_true, if_false, Bool.true_and]
      cases hin : child.localBounds.contains p with
      | true =>
          rw [hin] at hpart
          rw [if_neg (by simp [Rect.isEmpty_of_contains hpart]), Recorder.covering_scoped]
          simp [inner, offset]
      | false =>
          split
          · simp
          · have hout : inner.scope.admits (p + inner.scope.origin) = false := by
              have hmoved : (inner.scope.absolute child.localBounds).contains
                  (p + inner.scope.origin) = child.localBounds.contains p := Rect.contains_add _ _ _
              rw [recorder.admits_enter, hmoved, hin, Bool.and_false]
            rw [Recorder.covering_scoped, (hdraw _).covering_eq_nil hout]
            simp

/-- What a child draws over a point is the same for two regions if that is so of the child itself. -/
theorem covering_drawChild_congr (parent child : ViewCore Rat)
    {draw : Rect Rat → List (PaintCall Rat)} (hdraw : ∀ part, WellNested (draw part))
    (hsame : ∀ (inner : Recorder Rat) (part part' : Rect Rat) (q : Point Rat), part.contains q →
      part'.contains q → inner.covering (q + inner.scope.origin) (draw part) =
        inner.covering (q + inner.scope.origin) (draw part'))
    (hp : region.contains p) (hp' : region'.contains p) :
    recorder.covering (p + recorder.scope.origin) (parent.drawChild child region draw) =
      recorder.covering (p + recorder.scope.origin) (parent.drawChild child region' draw) := by
  set offset := child.rect.origin - parent.rect.origin with hoffset
  -- The point as the child sees it.
  obtain ⟨q, rfl⟩ := p.exists_eq_add offset
  have horigin : q + offset + recorder.scope.origin =
      q + (recorder.enter offset child.localBounds).scope.origin :=
    q.add_add offset recorder.scope.origin
  rw [horigin, hoffset, covering_drawChild parent child hdraw hp,
    covering_drawChild parent child hdraw hp']
  split
  · rename_i hin
    have hin : child.localBounds.contains q = true := by simp_all
    exact hsame _ _ _ q ((contains_regionFor parent child hp).trans hin)
      ((contains_regionFor parent child hp').trans hin)
  · rfl

end ViewCore

namespace View

/-- Over a point that is in two regions, a view draws the same for both. -/
theorem covering_drawWithin (levels : Nat) (view : View Rat) (recorder : Recorder Rat)
    (region region' : Rect Rat) (p : Point Rat) (hp : region.contains p)
    (hp' : region'.contains p) :
    recorder.covering (p + recorder.scope.origin) (view.drawWithin levels region) =
      recorder.covering (p + recorder.scope.origin) (view.drawWithin levels region') := by
  induction levels generalizing view recorder region region' p with
  | zero => rfl
  | succ levels ih =>
      have hpage : ∀ (parent : ViewCore Rat) (child : View Rat),
          recorder.covering (p + recorder.scope.origin)
              (parent.drawChild child.core region (child.drawWithin levels)) =
            recorder.covering (p + recorder.scope.origin)
              (parent.drawChild child.core region' (child.drawWithin levels)) :=
        fun parent child => parent.covering_drawChild_congr child.core
          (child.nested_drawWithin levels) (ih child) hp hp'
      cases view with
      | panel core | plain core | probe core =>
          exact (core.covering_drawBackground hp).trans (core.covering_drawBackground hp').symm
      | item entry => rfl
      | group core widget children =>
          refine WellNested.covering_flatMap_congr (fun child => ?_) (fun child => ?_)
            fun child => hpage core child
          · exact core.nested_drawChild child.core (child.nested_drawWithin levels) region
          · exact core.nested_drawChild child.core (child.nested_drawWithin levels) region'
      | tab strip pages changed =>
          have hitem : ∀ entry : TabItem Rat,
              recorder.covering (p + recorder.scope.origin)
                  (strip.core.drawChild entry.core region fun _ => entry.draw) =
                recorder.covering (p + recorder.scope.origin)
                  (strip.core.drawChild entry.core region' fun _ => entry.draw) :=
            fun entry => strip.core.covering_drawChild_congr entry.core
              (fun _ => entry.nested_draw) (fun _ _ _ _ _ _ => rfl) hp hp'
          have hitems : ∀ (region : Rect Rat) (entry : TabItem Rat),
              WellNested (strip.core.drawChild entry.core region fun _ => entry.draw) :=
            fun region entry =>
              strip.core.nested_drawChild entry.core (fun _ => entry.nested_draw) region
          have hpages : ∀ (region : Rect Rat) (page : View Rat),
              WellNested (strip.core.drawChild page.core region (page.drawWithin levels)) :=
            fun region page =>
              strip.core.nested_drawChild page.core (page.nested_drawWithin levels) region
          simp only [drawWithin, Tab.drawBy, List.append_assoc,
            strip.nested_drawPanel.covering_append,
            (WellNested.flatMap fun entry _ => hitems region entry).covering_append,
            (WellNested.flatMap fun entry _ => hitems region' entry).covering_append]
          rw [WellNested.covering_flatMap_congr (hitems region) (hitems region') hitem,
            WellNested.covering_flatMap_congr (hpages region) (hpages region') (hpage strip.core)]

/-- Over every point of a region, a view draws the same commands when that region is repainted as when
all of it is repainted. -/
theorem covering_draw (view : View Rat) (palette : Palette) {region : Rect Rat} {p : Point Rat}
    (hregion : region.contains p) (hbounds : view.core.localBounds.contains p) :
    (Recorder.new palette).covering p (view.draw region) =
      (Recorder.new palette).covering p (view.draw view.core.localBounds) := by
  have h := view.covering_drawWithin view.depth (Recorder.new palette) region _ p hregion hbounds
  have horigin : p + (Recorder.new palette : Recorder Rat).scope.origin = p := p.add_zero
  rwa [horigin] at h

/-- In the middle of a page, the panel of the tab and the background of the page. -/
theorem covering_draw_page :
    let page : View Rat := .panel { ViewCore.new (.view 1) with background := some .black } .empty
    let empty : Tab Rat := .new (.view 0) ⟨fun _ _ => ⟨10, 10⟩⟩ .standard
    let tab : View Rat := (empty.addPage "one" page).value.toView
    let root : View Rat := (tab.place (.allocate ⟨0, 0, 100, 100⟩)).value
    let recorder : Recorder Rat := .new .light
    let drawn (region : Rect Rat) : List DrawLook := recorder.covering ⟨50, 50⟩ (root.draw region)
    drawn ⟨45, 45, 55, 55⟩ = drawn root.core.localBounds ∧ (drawn ⟨45, 45, 55, 55⟩).length = 2 := by
  intro page empty tab root recorder drawn
  exact ⟨root.covering_draw .light (by decide +kernel) (by decide +kernel), by decide +kernel⟩

end View

end WidgetToolkit
