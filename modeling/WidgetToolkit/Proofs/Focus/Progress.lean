import WidgetToolkit.Proofs.Focus.Asking

/-! # Moving on always leads somewhere

As long as some view below the root can have the focus, moving on gives it to one of them, from a view
that is shown, from one that is hidden by now, or from none. The root is the exception. It can be asked
for and can have the focus, but it is not in the line of views, so the focus does not leave it. -/

namespace WidgetToolkit

variable {K : Type}

namespace View

/-- The line has the views below the root that the tree reveals. -/
theorem Regular.admits_iff_mem_line {root : View K} (h : root.Regular)
    (hvisible : root.core.visible = true) (reverse : Bool) (id : ViewId) :
    id ≠ root.id ∧ root.Admits id ↔
      ∃ core ∈ root.line reverse, core.id = id ∧ core.focusable = true := by
  have hmem : ∀ view, view ∈ root.shown reverse ↔ view ∈ root.shown false := by
    cases reverse with
    | false => exact fun _ => Iff.rfl
    | true => exact fun _ => h.mem_shownWithin_true_iff
  constructor
  · rintro ⟨hne, view, hreveals, rfl, hfocusable⟩
    rcases (reveals_iff.mp hreveals).2 with rfl | ⟨child, hchild, hbelow⟩
    · exact absurd rfl hne
    · have hshown := (hmem view).mpr (hbelow.mem_shown hchild)
      exact ⟨view.core, List.mem_map_of_mem hshown, rfl, hfocusable⟩
  · rintro ⟨core, hm, rfl, hfocusable⟩
    obtain ⟨view, hshown, rfl⟩ := List.mem_map.mp hm
    obtain ⟨branch, path, hat⟩ := at?_of_mem_shownWithin hshown
    obtain ⟨child, hchild, hbelow⟩ := reveals_of_mem_shownWithin ((hmem view).mp hshown)
    exact ⟨h.id_ne hat, view, .child hvisible hchild hbelow, rfl, hfocusable⟩

/-- The root is not in its own line. -/
theorem Regular.id_notMem_line {root : View K} (h : root.Regular) (reverse : Bool) :
    root.id ∉ (root.line reverse).map (·.id) := by
  rw [line, List.map_map]
  intro hm
  obtain ⟨view, hshown, hid⟩ := List.mem_map.mp hm
  obtain ⟨branch, path, hat⟩ := at?_of_mem_shownWithin hshown
  exact h.id_ne hat hid

theorem Reveals.mapCores {root view : View K} (h : root.Reveals view)
    {f : ViewCore K → ViewCore K} (hvisible : ∀ core, (f core).visible = core.visible) :
    (root.mapCores f).Reveals (view.mapCores f) := by
  induction h with
  | root hview => exact .root (by rwa [core_mapCores, hvisible])
  | child hroot hchild _ ih =>
      refine .child (by rwa [core_mapCores, hvisible]) ?_ ih
      rw [children_mapCores]
      exact List.mem_map_of_mem hchild

/-- Who can have the focus does not depend on who has it. -/
theorem Admits.setFlags [Coord K] {root : View K} {id : ViewId} (h : root.Admits id)
    (flags : List (ViewId × Bool)) :
    (root.mapCores (ViewCore.setFlags flags)).Admits id := by
  obtain ⟨view, hreveals, rfl, hfocusable⟩ := h
  refine ⟨_, hreveals.mapCores (ViewCore.setFlags_visible flags), ?_, ?_⟩
  · rw [View.id, core_mapCores, ViewCore.setFlags_id]
    rfl
  · rw [core_mapCores, ViewCore.setFlags_focusable, hfocusable]

end View

variable [Coord K]

theorem Tab.selectPage_core_focusable (tab : Tab K) (index : Nat) :
    (tab.selectPage index).value.strip.core.focusable = tab.strip.core.focusable := by
  rw [selectPage_value, selectItemAt]
  split
  · rw [selectItem]
    split
    · rfl
    · split
      · rfl
      · rename_i place _ _
        have hlaid := layoutBy_strip View.place (tab.moveSelection place)
        have hcore : (tab.moveSelection place).strip.layout.core.focusable =
            tab.strip.core.focusable := by simp
        exact (congrArg (·.core.focusable) hlaid).trans hcore
  · rfl

/-! ## Moving on -/

namespace Focus

variable {root : View K} {focus : Focus}

/-- Off the root, the focus moves on to a view below it. -/
theorem advance_admitted (hcontainer : root.isContainer = true)
    (hvisible : root.core.visible = true) (hregular : root.Regular)
    (hsome : ∃ id, id ≠ root.id ∧ root.Admits id) (hfocus : focus.focused ≠ some root.id)
    (reverse : Bool) :
    let outcome := focus.advance root reverse
    outcome.1 = true ∧ ∃ id, outcome.2.1.focused = some id ∧ id ≠ outcome.2.2.id ∧
      outcome.2.2.Admits id := by
  have hkept := forgetHidden_eq hvisible hregular hfocus reverse
  have hline : ∀ id, (focus.forgetHidden root).focused = some id →
      id ∈ (root.line reverse).map (·.id) := by
    intro id hid
    rw [hkept] at hid
    simpa using (Option.filter_eq_some_iff.mp hid).2
  have hadvance := advance_eq_handOver hcontainer hregular reverse hline
  have hnext : ((focus.forgetHidden root).successor? (root.line reverse)).isSome := by
    obtain ⟨id, hid⟩ := hsome
    obtain ⟨core, hm, -, hfocusable⟩ := (hregular.admits_iff_mem_line hvisible reverse id).mp hid
    rw [successor?_isSome, List.any_eq_true]
    exact ⟨core, hm, hfocusable⟩
  obtain ⟨next, hnext⟩ := Option.isSome_iff_exists.mp hnext
  obtain ⟨hm, hfocusable⟩ := mem_of_successor? _ hnext
  obtain ⟨hne, hadmits⟩ :=
    (hregular.admits_iff_mem_line hvisible reverse next.id).mpr ⟨next, hm, rfl, hfocusable⟩
  simp only [hnext] at hadvance
  rw [hadvance]
  refine ⟨rfl, next.id, rfl, ?_, hadmits.setFlags _⟩
  rw [View.id, View.core_mapCores, ViewCore.setFlags_id]
  exact hne

/-- On the root, the focus stays. -/
theorem advance_of_root (hcontainer : root.isContainer = true)
    (hvisible : root.core.visible = true) (hregular : root.Regular)
    (hfocus : focus.focused = some root.id) (reverse : Bool) :
    focus.advance root reverse = (false, focus, root) := by
  have hkept : focus.forgetHidden root = ⟨some root.id⟩ := by
    have hshows : root.shows root.id = true := by simp [View.shows, hvisible]
    rw [forgetHidden, hfocus, Option.all_some, hshows, if_pos rfl, ← hfocus]
  rw [advance_of_not_mem hcontainer hregular reverse hkept (hregular.id_notMem_line reverse),
    ← hfocus]

end Focus

/-! ## Windows -/

namespace Window

/-- What comes of a window in which the focus is moved and dropped, pages are selected, views are
shown and hidden, and those below the root are made focusable or not. -/
inductive Driven (start : Window K) : Window K → Prop
  | start : Driven start start
  | step {window : Window K} (h : Driven start window) (step : WindowStep) :
      Driven start (window.step step)
  | forget {window : Window K} (h : Driven start window) (id : ViewId) :
      Driven start ⟨window.root, window.focus.forget id⟩
  | setFocusable {window : Window K} (h : Driven start window) (branch : Branch)
      (path : List Branch) (focusable : Bool) :
      Driven start ⟨(window.root.stepAt (branch :: path)
        (.core (.setFocusable focusable))).value.2, window.focus⟩

theorem Driven.run {start window : Window K} (h : start.Driven window)
    (steps : List WindowStep) : start.Driven (window.run steps) := by
  induction steps generalizing window with
  | nil => exact h
  | cons step rest ih => exact ih (h.step step)

theorem Driven.regular {start window : Window K} (h : start.Driven window)
    (hregular : start.root.Regular) : window.root.Regular := by
  induction h with
  | start => exact hregular
  | step _ step ih => exact regular_step ih step
  | forget _ _ ih => exact ih
  | setFocusable _ branch path focusable ih =>
      exact (View.dims_stepAt_setFocusable _ (branch :: path) focusable).regular ih

/-- The root cannot have the focus and does not have it. -/
structure OffRoot (window : Window K) : Prop where
  not_focusable : window.root.core.focusable = false
  not_focused : window.focus.focused ≠ some window.root.id

omit [Coord K] in
theorem OffRoot.congr {window window' : Window K} (h : window.OffRoot)
    (hid : window'.root.id = window.root.id)
    (hfocusable : window'.root.core.focusable = window.root.core.focusable)
    (hfocus : window'.focus.focused = some window.root.id →
      window.focus.focused = some window.root.id) : window'.OffRoot :=
  ⟨hfocusable.trans h.not_focusable, fun hon => h.not_focused (hfocus (hid ▸ hon))⟩

theorem OffRoot.handOver {root : View K} {focus : Focus} (h : OffRoot ⟨root, focus⟩)
    {new : Option ViewId} (hnew : new ≠ some root.id) (flags : List (ViewId × Bool)) :
    OffRoot ⟨root.mapCores (ViewCore.setFlags flags), ⟨new⟩⟩ := by
  refine h.congr ?_ ?_ fun hon => absurd hon hnew
  · exact (congrArg ViewCore.id (View.core_mapCores _ _)).trans (ViewCore.setFlags_id _ _)
  · exact (congrArg ViewCore.focusable (View.core_mapCores _ _)).trans
      (ViewCore.setFlags_focusable _ _)

theorem OffRoot.focusView {window : Window K} (h : window.OffRoot)
    (hregular : window.root.Regular) (id : ViewId) : (window.step (.focusView id)).OffRoot := by
  rw [Window.step, moved]
  by_cases hid : id = window.root.id
  · rw [hid, Focus.moveTo_of_not_visible h.not_focused fun view hview heq hfocusable => ?_]
    · exact h
    · obtain rfl := hregular.eq_of_contains hview (.root _) heq
      rw [h.not_focusable] at hfocusable
      exact absurd hfocusable Bool.false_ne_true
  · rcases window.focus.moveTo_cases window.root id with heq | heq
    · rw [heq]
      exact h
    · rw [heq]
      exact h.handOver (fun hon => hid (Option.some.inj hon)) _

theorem OffRoot.advance {window : Window K} (h : window.OffRoot)
    (hregular : window.root.Regular) (reverse : Bool) :
    (window.step (.advance reverse)).OffRoot := by
  rw [Window.step, moved]
  rcases window.focus.advance_cases hregular reverse with heq | ⟨next, hnext, heq⟩
  · rw [heq]
    refine h.congr rfl rfl fun hon => ?_
    rw [Focus.forgetHidden] at hon
    split at hon
    · exact hon
    · cases hon
  · rw [heq]
    exact h.handOver (fun hon => hregular.id_notMem_line reverse (hnext _ hon)) _

/-- A step elsewhere leaves the root what it is to the focus. -/
theorem OffRoot.stepAt {window : Window K} (h : window.OffRoot) (path : List Branch)
    {step : ViewStep K}
    (hroot : path = [] → (window.root.step step).value.2.core.id = window.root.core.id ∧
      (window.root.step step).value.2.core.focusable = window.root.core.focusable) :
    OffRoot ⟨(window.root.stepAt path step).value.2, window.focus⟩ := by
  cases path with
  | nil =>
      have hstep : (window.root.stepAt [] step).value.2 = (window.root.step step).value.2 :=
        View.replaceAt_nil window.root _
      rw [hstep]
      exact h.congr (hroot rfl).1 (hroot rfl).2 id
  | cons branch path =>
      have hcore : (window.root.stepAt (branch :: path) step).value.2.core = window.root.core := by
        rw [View.stepAt]
        split
        · rfl
        · exact View.core_replaceAt _ _ _ _
      exact h.congr (congrArg ViewCore.id hcore) (congrArg ViewCore.focusable hcore) id

theorem OffRoot.step {window : Window K} (h : window.OffRoot) (hregular : window.root.Regular)
    (step : WindowStep) : (window.step step).OffRoot := by
  cases step with
  | focusView id => exact h.focusView hregular id
  | advance reverse => exact h.advance hregular reverse
  | selectPage path index =>
      refine h.stepAt path fun _ => ?_
      cases window.root with
      | tab strip pages changed =>
          exact ⟨(Tab.dims_selectPage ⟨strip, pages, changed⟩ index).core.id_eq,
            Tab.selectPage_core_focusable ⟨strip, pages, changed⟩ index⟩
      | _ => exact ⟨rfl, rfl⟩
  | setVisible path visible =>
      refine h.stepAt path fun _ => ⟨(View.dims_setVisible _ visible).core.id_eq, ?_⟩
      exact (congrArg ViewCore.focusable (View.core_mapCore _ _)).trans
        (ViewCore.setVisible_focusable _ visible)

theorem Driven.offRoot {start window : Window K} (h : start.Driven window)
    (hregular : start.root.Regular) (hstart : start.OffRoot) : window.OffRoot := by
  induction h with
  | start => exact hstart
  | step h step ih => exact ih.step (h.regular hregular) step
  | @forget window _ id ih =>
      refine ih.congr rfl rfl fun hon => ?_
      rw [Focus.forget] at hon
      split at hon
      · cases hon
      · exact hon
  | setFocusable _ branch path focusable ih =>
      exact ih.stepAt (branch :: path) fun hnil => absurd hnil (List.cons_ne_nil _ _)

/-- If some view below the root can have the focus, then the focus gets stuck on the root and
nowhere else: moving on gives it to a view below the root that can have it exactly if the root does
not have it, and changes nothing otherwise. Where the root cannot have the focus, it is never
stuck. -/
theorem Driven.moves_on_iff {start window : Window K} (h : start.Driven window)
    (hregular : start.root.Regular) (hcontainer : window.root.isContainer = true)
    (hvisible : window.root.core.visible = true)
    (hsome : ∃ id, id ≠ window.root.id ∧ window.root.Admits id) (reverse : Bool) :
    let outcome := window.focus.advance window.root reverse
    ((outcome.1 = true ∧ ∃ id, outcome.2.1.focused = some id ∧ id ≠ outcome.2.2.id ∧
        outcome.2.2.Admits id) ↔ window.focus.focused ≠ some window.root.id) ∧
      (window.focus.focused = some window.root.id →
        outcome = (false, window.focus, window.root)) ∧
      (start.root.core.focusable = false → start.focus.focused ≠ some start.root.id →
        window.focus.focused ≠ some window.root.id) := by
  intro outcome
  have hregular' := h.regular hregular
  have hstays : window.focus.focused = some window.root.id →
      outcome = (false, window.focus, window.root) :=
    fun hfocus => Focus.advance_of_root hcontainer hvisible hregular' hfocus reverse
  refine ⟨⟨?_, fun hfocus => ?_⟩, hstays, fun hfocusable hfocus => ?_⟩
  · rintro ⟨hmoved, -⟩ hfocus
    rw [hstays hfocus] at hmoved
    exact Bool.false_ne_true hmoved
  · exact Focus.advance_admitted hcontainer hvisible hregular' hsome hfocus reverse
  · exact (h.offRoot hregular ⟨hfocusable, hfocus⟩).not_focused

/-- The focused page of a tab is hidden, and the focus moves on to the other page. -/
theorem Driven.moves_on_iff_hidden_page :
    let metrics : TextMetrics Rat := ⟨fun _ _ => .zero⟩
    let page (number : Nat) : View Rat :=
      .panel { ViewCore.new (.view number) with focusable := true } .empty
    let single : Tab Rat := ((Tab.new (.view 0) metrics .standard).addPage "one" (page 1)).value
    let root : View Rat := (single.addPage "two" (page 2)).value.toView
    let window := Window.run ⟨root, .new⟩ [.focusView (.view 1), .selectPage [] 1]
    window.focus.focused = some (.view 1) ∧ window.root.shows (.view 1) = false ∧
      (window.focus.advance window.root true).1 = true ∧
      ∃ id, (window.focus.advance window.root true).2.1.focused = some id ∧
        id ≠ (window.focus.advance window.root true).2.2.id ∧
        (window.focus.advance window.root true).2.2.Admits id := by
  intro metrics page single root window
  have hregular : root.Regular := by decide +kernel
  have hdriven : Driven ⟨root, .new⟩ window := Driven.start.run _
  have hvisible : window.root.core.visible = true := by decide +kernel
  have hsome : ∃ id, id ≠ window.root.id ∧ window.root.Admits id := by
    refine ⟨.view 2, ?_⟩
    rw [(hdriven.regular hregular).admits_iff_mem_line hvisible false]
    decide +kernel
  obtain ⟨hgoes, -, hoff⟩ :=
    hdriven.moves_on_iff hregular (by decide +kernel) hvisible hsome true
  have hoff := hoff (by decide +kernel) (Option.some_ne_none _).symm
  exact ⟨by decide +kernel, by decide +kernel, hgoes.mpr hoff⟩

/-- A tab and its page can both have the focus. The focus is on the tab and stays there. -/
theorem Driven.advance_stuck_on_root :
    let metrics : TextMetrics Rat := ⟨fun _ _ => .zero⟩
    let page : View Rat := .panel { ViewCore.new (.view 1) with focusable := true } .empty
    let tab : Tab Rat := ((Tab.new (.view 0) metrics .standard).addPage "page" page).value
    let root := tab.toView.mapCore (·.setFocusable true)
    let window := Window.run ⟨root, .new⟩ [.focusView (.view 0)]
    let outcome := window.focus.advance window.root false
    root.Regular ∧ Driven ⟨root, .new⟩ window ∧ window.root.isContainer = true ∧
      window.root.core.visible = true ∧
      (∃ id, id ≠ window.root.id ∧ window.root.Admits id) ∧
      outcome.1 = false ∧ outcome.2.1.focused = some outcome.2.2.id := by
  intro metrics page tab root window outcome
  have hregular : root.Regular := by decide +kernel
  have hdriven : Driven ⟨root, .new⟩ window := Driven.start.run _
  have hvisible : window.root.core.visible = true := by decide +kernel
  refine ⟨hregular, hdriven, by decide +kernel, hvisible, ⟨.view 1, ?_⟩, by decide +kernel,
    by decide +kernel⟩
  rw [(hdriven.regular hregular).admits_iff_mem_line hvisible false]
  decide +kernel

end Window

end WidgetToolkit
