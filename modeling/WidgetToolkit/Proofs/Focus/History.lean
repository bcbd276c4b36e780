import WidgetToolkit.Proofs.Focus.Advance
import WidgetToolkit.Proofs.View.Dimming

/-! # The focus through the history of a window

The focus is recorded twice, as an identity and as a flag. Whatever is done, both records agree, unless
the focus moves on while the focused view is hidden with a view that it is in: then its flag is left. -/

namespace WidgetToolkit

variable {K : Type} [Coord K]

/-! ## Windows -/

/-- A tree of views with its focus. -/
structure Window (K : Type) where
  root : View K
  focus : Focus

/-- What is done to a window. -/
inductive WindowStep where
  | focusView (id : ViewId)
  | advance (reverse : Bool)
  | selectPage (path : List Branch) (index : Nat)
  | setVisible (path : List Branch) (visible : Bool)
deriving DecidableEq, Repr

namespace Window

/-- The window after the focus was asked to move. -/
def moved (outcome : Bool × Focus × View K) : Window K := ⟨outcome.2.2, outcome.2.1⟩

def step (window : Window K) : WindowStep → Window K
  | .focusView id => moved (window.focus.moveTo window.root id)
  | .advance reverse => moved (window.focus.advance window.root reverse)
  | .selectPage path index =>
    { window with root := (window.root.stepAt path (.selectPage index)).value.2 }
  | .setVisible path visible =>
    { window with root := (window.root.stepAt path (.setVisible visible)).value.2 }

def run (window : Window K) (steps : List WindowStep) : Window K := steps.foldl step window

/-- Only the focused view has the focus flag. -/
def Agrees (window : Window K) : Prop :=
  ∀ path view, window.root.at? path = some view → view.core.focused = true →
    window.focus.focused = some view.id

/-- A view has the focus flag that is not shown. -/
def Stranded (window : Window K) : Prop :=
  ∃ path view, window.root.at? path = some view ∧ view.core.focused = true ∧
    window.root.shows view.id = false

omit [Coord K] in
theorem stranded_iff {window : Window K} :
    window.Stranded ↔ ¬∀ path view, window.root.at? path = some view →
      ¬(view.core.focused = true ∧ window.root.shows view.id = false) := by
  simp [Stranded]

instance (window : Window K) : Decidable window.Agrees :=
  decidable_of_iff' (∀ path ∈ window.root.addresses, ∀ view ∈ window.root.at? path,
      view.core.focused = true → window.focus.focused = some view.id) View.forall_at?_iff

instance (window : Window K) : Decidable window.Stranded :=
  decidable_of_iff' (¬∀ path ∈ window.root.addresses, ∀ view ∈ window.root.at? path,
      ¬(view.core.focused = true ∧ window.root.shows view.id = false))
    (stranded_iff.trans (not_congr View.forall_at?_iff))

end Window

/-! ## Steps that set no flag -/

namespace View

theorem dims_stepAt {root : View K} (path : List Branch) {step : ViewStep K}
    (hstep : ∀ view : View K, view.Dims (view.step step).value.2 ∧
      ∀ entry, view = .item entry → ∃ entry', (view.step step).value.2 = .item entry') :
    root.Dims (root.stepAt path step).value.2 := by
  rw [stepAt]
  split
  · exact .refl root
  · rename_i view hat
    exact dims_replaceAt hat (hstep view).1 (hstep view).2

theorem dims_stepAt_selectPage (root : View K) (path : List Branch) (index : Nat) :
    root.Dims (root.stepAt path (.selectPage index)).value.2 := by
  refine dims_stepAt path fun view => ?_
  cases view with
  | tab strip pages changed =>
      refine ⟨Tab.dims_selectPage ⟨strip, pages, changed⟩ index, fun entry h => ?_⟩
      cases h
  | _ => exact ⟨.refl _, fun entry h => ⟨entry, h⟩⟩

theorem dims_stepAt_setVisible (root : View K) (path : List Branch) (visible : Bool) :
    root.Dims (root.stepAt path (.setVisible visible)).value.2 := by
  refine dims_stepAt path fun view => ⟨view.dims_setVisible visible, ?_⟩
  rintro entry rfl
  exact ⟨_, rfl⟩

theorem dims_stepAt_setFocusable (root : View K) (path : List Branch) (focusable : Bool) :
    root.Dims (root.stepAt path (.core (.setFocusable focusable))).value.2 := by
  refine dims_stepAt path fun view => ⟨?_, ?_⟩
  · have hstep : (view.step (.core (.setFocusable focusable))).value.2 =
        view.mapCore fun _ => view.core.setFocusable focusable := rfl
    rw [hstep]
    refine dims_of_branch?_eq ?_ (branch?_mapCore view _)
    rw [core_mapCore]
    exact ⟨rfl, fun h => h⟩
  · rintro entry rfl
    exact ⟨_, rfl⟩

end View

omit [Coord K] in
theorem Window.Agrees.dims {window : Window K} (h : window.Agrees) {root : View K}
    (hdims : window.root.Dims root) : Window.Agrees ⟨root, window.focus⟩ := by
  intro path view hat hflag
  obtain ⟨before, hbefore, hcore⟩ := exists_left_of_optionRel (hat ▸ hdims path)
  rw [h path before hbefore (hcore.focused hflag)]
  exact congrArg some hcore.id_eq.symm

/-! ## Steps that move the focus -/

/-- Moving the focus to a view hands it over or changes nothing. -/
theorem Focus.moveTo_cases (focus : Focus) (root : View K) (id : ViewId) :
    (focus.moveTo root id).2 = (focus, root) ∨
      (focus.moveTo root id).2 = (⟨some id⟩,
        root.mapCores (ViewCore.setFlags (Focus.handOver focus.focused (some id)))) := by
  unfold Focus.moveTo
  split
  · exact .inl rfl
  · split
    · refine .inr (Prod.ext rfl ?_)
      cases focus.focused with
      | none => rfl
      | some previous => exact root.mapCores_mapCores _ _
    · exact .inl rfl

namespace Window

/-- The flag goes where the focus goes. -/
theorem Agrees.handOver {root : View K} {focus : Focus} (h : Window.Agrees ⟨root, focus⟩)
    (new : Option ViewId) :
    Window.Agrees
      ⟨root.mapCores (ViewCore.setFlags (Focus.handOver focus.focused new)), ⟨new⟩⟩ := by
  intro path view hat hflag
  rw [View.at?_mapCores, Option.map_eq_some_iff] at hat
  obtain ⟨before, hbefore, rfl⟩ := hat
  rw [View.core_mapCores, ViewCore.setFlags_handOver_focused] at hflag
  rw [View.id, View.core_mapCores, ViewCore.setFlags_id]
  by_contra hnew
  rw [if_neg hnew] at hflag
  by_cases hold : focus.focused = some before.core.id
  · rw [if_pos hold] at hflag
    cases hflag
  · rw [if_neg hold] at hflag
    exact hold (h path before hbefore hflag)

theorem Agrees.focusView {window : Window K} (h : window.Agrees) (id : ViewId) :
    (window.step (.focusView id)).Agrees := by
  rcases window.focus.moveTo_cases window.root id with heq | heq
  · rw [step, moved, heq]
    exact h
  · rw [step, moved, heq]
    exact h.handOver (some id)

omit [Coord K] in
/-- As long as no flag is left behind, the focus is forgotten only if there is no flag. -/
theorem Agrees.forgetHidden {window : Window K} (h : window.Agrees) (hseen : ¬window.Stranded) :
    Window.Agrees ⟨window.root, window.focus.forgetHidden window.root⟩ := by
  intro path view hat hflag
  have hfocused := h path view hat hflag
  have hshows : window.root.shows view.id = true := by
    by_contra hhidden
    exact hseen ⟨path, view, hat, hflag, by simpa using hhidden⟩
  simp [Focus.forgetHidden, hfocused, hshows]

theorem Agrees.advance {window : Window K} (h : window.Agrees) (hregular : window.root.Regular)
    (hseen : ¬window.Stranded) (reverse : Bool) : (window.step (.advance reverse)).Agrees := by
  have hkept := h.forgetHidden hseen
  rcases window.focus.advance_cases hregular reverse with heq | ⟨next, -, heq⟩
  · rw [step, moved, heq]
    exact hkept
  · rw [step, moved, heq]
    exact hkept.handOver next

/-- In a visible tree, both records part when the focus moves on from a view that is not shown. -/
theorem Agrees.advance_iff {window : Window K} (h : window.Agrees) (hregular : window.root.Regular)
    (hvisible : window.root.core.visible) (reverse : Bool) :
    (window.step (.advance reverse)).Agrees ↔ ¬window.Stranded := by
  refine ⟨?_, fun hseen => h.advance hregular hseen reverse⟩
  rintro hafter ⟨path, view, hat, hflag, hhidden⟩
  have hkept : window.focus.forgetHidden window.root = ⟨none⟩ := by
    simp [Focus.forgetHidden, h path view hat hflag, hhidden]
  have hline : view.id ∉ (window.root.line reverse).map (·.id) := fun hm => by
    rw [(View.shows_eq_true_iff hregular reverse view.id).mpr ⟨hvisible, .inr hm⟩] at hhidden
    cases hhidden
  rcases window.focus.advance_cases hregular reverse with heq | ⟨next, hnext, heq⟩
  · rw [step, moved, heq, hkept] at hafter
    cases hafter path view hat hflag
  · rw [step, moved, heq, hkept] at hafter
    have hother : next ≠ some view.core.id := fun heq => hline (hnext _ heq)
    have hleft : (view.core.setFlags (Focus.handOver none next)).focused = true := by
      rw [ViewCore.setFlags_handOver_focused, if_neg hother, if_neg (Option.some_ne_none _).symm,
        hflag]
    have hfocused := hafter path _ (by rw [View.at?_mapCores, hat]; rfl)
      (by rw [View.core_mapCores, hleft])
    rw [View.id, View.core_mapCores, ViewCore.setFlags_id] at hfocused
    exact hother hfocused

/-! ## Histories -/

theorem regular_step {window : Window K} (h : window.root.Regular) (step : WindowStep) :
    (window.step step).root.Regular := by
  have hmap := fun flags => h.mapCores (ViewCore.setFlags_id (K := K) flags)
  cases step with
  | focusView id =>
      rcases window.focus.moveTo_cases window.root id with heq | heq
      · rw [Window.step, moved, heq]
        exact h
      · rw [Window.step, moved, heq]
        exact hmap _
  | advance reverse =>
      rcases window.focus.advance_cases h reverse with heq | ⟨next, -, heq⟩
      · rw [Window.step, moved, heq]
        exact h
      · rw [Window.step, moved, heq]
        exact hmap _
  | selectPage path index => exact (View.dims_stepAt_selectPage window.root path index).regular h
  | setVisible path visible => exact (View.dims_stepAt_setVisible window.root path visible).regular h

theorem Agrees.step {window : Window K} (h : window.Agrees) (hregular : window.root.Regular)
    {step : WindowStep} (hseen : ∀ reverse, step = .advance reverse → ¬window.Stranded) :
    (window.step step).Agrees := by
  cases step with
  | focusView id => exact h.focusView id
  | advance reverse => exact h.advance hregular (hseen reverse rfl) reverse
  | selectPage path index => exact h.dims (View.dims_stepAt_selectPage window.root path index)
  | setVisible path visible => exact h.dims (View.dims_stepAt_setVisible window.root path visible)

theorem Agrees.run {window : Window K} (h : window.Agrees) (hregular : window.root.Regular)
    {steps : List WindowStep}
    (hseen : ∀ before reverse after, steps = before ++ .advance reverse :: after →
      ¬(window.run before).Stranded) :
    (window.run steps).root.Regular ∧ (window.run steps).Agrees := by
  induction steps generalizing window with
  | nil => exact ⟨hregular, h⟩
  | cons step rest ih =>
      refine ih (h.step hregular fun reverse heq => ?_) (regular_step hregular step) ?_
      · exact hseen [] reverse rest (heq ▸ rfl)
      · rintro before reverse after rfl
        exact hseen (step :: before) reverse after rfl

/-- Where no view has the focus flag at first, there is never more than one that has it, and that one
has the focus, as long as the focus does not move on from a view that is hidden with another one. -/
theorem run_single_focus {window : Window K} (hregular : window.root.Regular)
    (hnone : ∀ path view, window.root.at? path = some view → view.core.focused = false)
    {steps : List WindowStep}
    (hseen : ∀ before reverse after, steps = before ++ .advance reverse :: after →
      ¬(window.run before).Stranded) :
    (∀ path path' view view', (window.run steps).root.at? path = some view →
        (window.run steps).root.at? path' = some view' → view.core.focused = true →
          view'.core.focused = true → path = path') ∧
      ∀ path view, (window.run steps).root.at? path = some view → view.core.focused = true →
        (window.run steps).focus.focused = some view.id := by
  have hagrees : window.Agrees := fun path view hat hflag =>
    absurd hflag (by rw [hnone path view hat]; exact Bool.false_ne_true)
  obtain ⟨hregular, hagrees⟩ := hagrees.run hregular hseen
  refine ⟨fun path path' view view' hat hat' hflag hflag' => ?_, hagrees⟩
  refine hregular.distinct path path' view view' hat hat' ?_
  exact Option.some.inj ((hagrees path view hat hflag).symm.trans (hagrees path' view' hat' hflag'))

/-- The focused page of a tab is hidden and loses the flag, and the focus moves on to the other page. -/
theorem run_single_focus_other_page :
    let metrics : TextMetrics Rat := ⟨fun _ _ => .zero⟩
    let page (number : Nat) : View Rat :=
      .panel { ViewCore.new (.view number) with focusable := true } .empty
    let single : Tab Rat := ((Tab.new (.view 0) metrics .standard).addPage "one" (page 1)).value
    let root : View Rat := (single.addPage "two" (page 2)).value.toView
    let window := Window.run ⟨root, .new⟩
      [.focusView (.view 1), .selectPage [] 1, .advance false]
    (∀ path view, window.root.at? path = some view → view.core.focused = true →
        path = [.child 1]) ∧
      window.focus.focused = some (.view 2) := by
  intro metrics page single root window
  have hregular : root.Regular := by decide +kernel
  have hnone : ∀ path view, root.at? path = some view → view.core.focused = false :=
    View.forall_at?_iff.mpr (by decide +kernel)
  have hseen : ∀ before reverse after,
      [.focusView (.view 1), .selectPage [] 1, .advance false] =
        before ++ WindowStep.advance reverse :: after →
      ¬(Window.run ⟨root, .new⟩ before).Stranded := by
    intro before reverse after hsplit
    rcases before with _ | ⟨first, _ | ⟨second, _ | ⟨third, before⟩⟩⟩ <;> simp at hsplit
    obtain ⟨rfl, rfl, rfl, rfl⟩ := hsplit
    decide +kernel
  obtain ⟨hsingle, hfocused⟩ := run_single_focus hregular hnone hseen
  have hwindow : Window.run ⟨root, .new⟩ _ = window := rfl
  rw [hwindow] at hsingle hfocused
  have hother : (window.root.at? [.child 1]).map (fun view => (view.id, view.core.focused)) =
      some (.view 2, true) := by decide +kernel
  obtain ⟨view, hat, heq⟩ := Option.map_eq_some_iff.mp hother
  obtain ⟨hid, hflag⟩ := Prod.mk.inj heq
  refine ⟨fun path other hother hflag' => ?_, ?_⟩
  · exact hsingle path [.child 1] other view hother hat hflag' hflag
  · rw [hfocused [.child 1] view hat hflag, hid]

/-- The focused view is hidden with the tab that it is in and keeps the flag, and the focus moves on. -/
theorem run_two_flags :
    let metrics : TextMetrics Rat := ⟨fun _ _ => .zero⟩
    let page (number : Nat) : View Rat :=
      .panel { ViewCore.new (.view number) with focusable := true } .empty
    let inner : Tab Rat := ((Tab.new (.view 0) metrics .standard).addPage "inner" (page 1)).value
    let single : Tab Rat :=
      ((Tab.new (.view 2) metrics .standard).addPage "one" inner.toView).value
    let root : View Rat := (single.addPage "two" (page 3)).value.toView
    let window := Window.run ⟨root, .new⟩
      [.focusView (.view 1), .selectPage [] 1, .advance false]
    root.Regular ∧ (∀ path view, root.at? path = some view → view.core.focused = false) ∧
      (window.root.at? [.child 0, .child 0]).map (·.core.focused) = some true ∧
      (window.root.at? [.child 1]).map (·.core.focused) = some true ∧
      window.focus.focused = some (.view 3) := by
  refine ⟨by decide +kernel, View.forall_at?_iff.mpr (by decide +kernel), ?_, ?_, ?_⟩ <;>
    decide +kernel

end Window

end WidgetToolkit
