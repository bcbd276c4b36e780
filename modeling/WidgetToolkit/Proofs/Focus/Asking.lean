import WidgetToolkit.Proofs.Focus.History

/-! # Asking for the focus

A program that asks for the focus of a view is to get it if the view can have it, and is to be
refused otherwise. The search looks at the view alone and not at what it is in, and the view that
has the focus already is not looked for, so the answer is not always the one that the tree calls
for. -/

namespace WidgetToolkit

variable {K : Type}

namespace View

/-! ## The views of a tree -/

/-- A tree contains its root and what the children of the root contain. -/
inductive Contains : View K → View K → Prop
  | root (view : View K) : Contains view view
  | child {root child view : View K} (hchild : child ∈ root.children false)
      (h : Contains child view) : Contains root view

/-- A tree reveals what it contains if all views on the way are visible, from the root to the
view. -/
inductive Reveals : View K → View K → Prop
  | root {view : View K} (hvisible : view.core.visible = true) : Reveals view view
  | child {root child view : View K} (hvisible : root.core.visible = true)
      (hchild : child ∈ root.children false) (h : Reveals child view) : Reveals root view

/-- The view with an identity can have the focus: the tree reveals it, and it is focusable. -/
def Admits (root : View K) (id : ViewId) : Prop :=
  ∃ view, root.Reveals view ∧ view.id = id ∧ view.core.focusable = true

theorem Reveals.contains {root view : View K} (h : root.Reveals view) : root.Contains view := by
  induction h with
  | root => exact .root _
  | child _ hchild _ ih => exact .child hchild ih

theorem Reveals.visible {root view : View K} (h : root.Reveals view) :
    view.core.visible = true := by
  induction h with
  | root hvisible => exact hvisible
  | child _ _ _ ih => exact ih

theorem Contains.at? {root view : View K} (h : root.Contains view) :
    ∃ path, root.at? path = some view := by
  induction h with
  | root view => exact ⟨[], rfl⟩
  | child hchild _ ih =>
      obtain ⟨branch, hbranch⟩ := exists_branch?_of_mem_children hchild
      obtain ⟨path, hat⟩ := ih
      exact ⟨branch :: path, by rwa [at?_cons_of_branch? hbranch]⟩

/-- What a regular tree contains is told apart by its identity. -/
theorem Regular.eq_of_contains {root view view' : View K} (h : root.Regular)
    (hview : root.Contains view) (hview' : root.Contains view') (hid : view.id = view'.id) :
    view = view' := by
  obtain ⟨path, hat⟩ := hview.at?
  obtain ⟨path', hat'⟩ := hview'.at?
  obtain rfl := h.distinct path path' view view' hat hat' hid
  exact Option.some.inj (hat.symm.trans hat')

theorem contains_iff {root view : View K} :
    root.Contains view ↔ view = root ∨ ∃ child ∈ root.children false, child.Contains view := by
  constructor
  · intro h
    cases h with
    | root => exact .inl rfl
    | child hchild h => exact .inr ⟨_, hchild, h⟩
  · rintro (rfl | ⟨child, hchild, h⟩)
    · exact .root view
    · exact .child hchild h

theorem reveals_iff {root view : View K} :
    root.Reveals view ↔ root.core.visible = true ∧
      (view = root ∨ ∃ child ∈ root.children false, child.Reveals view) := by
  constructor
  · intro h
    cases h with
    | root hvisible => exact ⟨hvisible, .inl rfl⟩
    | child hvisible hchild h => exact ⟨hvisible, .inr ⟨_, hchild, h⟩⟩
  · rintro ⟨hvisible, rfl | ⟨child, hchild, h⟩⟩
    · exact .root hvisible
    · exact .child hvisible hchild h

/-! ## The list of all views, and the question whether one is shown -/

theorem mem_allWithin_iff {root view : View K} {levels : Nat} (hlevels : root.depth ≤ levels) :
    view ∈ root.allWithin levels ↔ root.Contains view := by
  induction levels generalizing root with
  | zero =>
      have hpos := root.depth_pos
      omega
  | succ levels ih =>
      rw [allWithin, List.mem_cons, List.mem_flatMap, contains_iff]
      refine or_congr_right (exists_congr fun child => and_congr_right fun hchild => ?_)
      obtain ⟨branch, hbranch⟩ := exists_branch?_of_mem_children hchild
      cases hcontainer : child.isContainer with
      | true =>
          have hdepth := depth_lt_of_branch? hbranch hcontainer
          exact ih (by omega)
      | false =>
          -- A leaf has depth 1 wherever it is, so the levels may be used up here.
          rw [contains_iff, children_of_leaf hcontainer]
          cases levels <;> simp [allWithin, children_of_leaf hcontainer]

theorem mem_all_iff {root view : View K} : view ∈ root.all ↔ root.Contains view :=
  mem_allWithin_iff (Nat.le_refl _)

theorem reveals_of_mem_shownWithin {root view : View K} {levels : Nat}
    (h : view ∈ root.shownWithin levels false) :
    ∃ child ∈ root.children false, child.Reveals view := by
  induction levels generalizing root with
  | zero => cases h
  | succ levels ih =>
      obtain ⟨child, hchild, hview⟩ := List.mem_flatMap.mp h
      obtain ⟨hvisible, hview⟩ := mem_shownFrom.mp hview
      refine ⟨child, hchild, reveals_iff.mpr ⟨hvisible, ?_⟩⟩
      rcases hview with hview | rfl
      · exact .inr (ih hview)
      · exact .inl rfl

theorem Reveals.mem_shown {root child view : View K} (hchild : child ∈ root.children false)
    (h : child.Reveals view) : view ∈ root.shown false := by
  induction h generalizing root with
  | root hvisible =>
      rw [shown_eq, List.mem_flatMap]
      exact ⟨_, hchild, by simp [hvisible]⟩
  | child hvisible hbelow _ ih =>
      rw [shown_eq, List.mem_flatMap]
      exact ⟨_, hchild, by simp [hvisible, ih hbelow]⟩

/-- A tree shows the identities of the views that it reveals. -/
theorem shows_iff {root : View K} {id : ViewId} :
    root.shows id = true ↔ ∃ view, root.Reveals view ∧ view.id = id := by
  have hshown : ∀ view,
      view ∈ root.shown false ↔ ∃ child ∈ root.children false, child.Reveals view :=
    fun view => ⟨reveals_of_mem_shownWithin, fun ⟨_, hchild, h⟩ => h.mem_shown hchild⟩
  simp only [shows, Bool.and_eq_true, Bool.or_eq_true, beq_iff_eq, List.any_eq_true, hshown,
    @reveals_iff _ root]
  constructor
  · rintro ⟨hvisible, hid | ⟨view, hview, hid⟩⟩
    · exact ⟨root, ⟨hvisible, .inl rfl⟩, hid⟩
    · exact ⟨view, ⟨hvisible, .inr hview⟩, hid⟩
  · rintro ⟨view, ⟨hvisible, rfl | hview⟩, hid⟩
    · exact ⟨hvisible, .inl hid⟩
    · exact ⟨hvisible, .inr ⟨view, hview, hid⟩⟩

theorem forall_contains_iff {root : View K} {p : View K → Prop} :
    (∀ view, root.Contains view → p view) ↔ ∀ view ∈ root.all, p view := by
  simp only [mem_all_iff]

/-- In a regular tree a search by identity finds the view that has it. -/
theorem Regular.find?_all {root view : View K} (h : root.Regular) (hview : root.Contains view) :
    root.all.find? (·.id == view.id) = some view := by
  have hfound : (root.all.find? (·.id == view.id)).isSome := by
    rw [List.find?_isSome]
    exact ⟨view, mem_all_iff.mpr hview, beq_self_eq_true _⟩
  obtain ⟨found, hfound⟩ := Option.isSome_iff_exists.mp hfound
  have hcontains := mem_all_iff.mp (List.mem_of_find?_eq_some hfound)
  rw [hfound, h.eq_of_contains hcontains hview (by simpa using List.find?_some hfound)]

theorem contains_mapCores {root view : View K} {f : ViewCore K → ViewCore K} :
    (root.mapCores f).Contains view ↔
      ∃ before, root.Contains before ∧ view = before.mapCores f := by
  constructor
  · intro h
    generalize hroot : root.mapCores f = root' at h
    induction h generalizing root with
    | root => exact ⟨root, .root root, hroot.symm⟩
    | child hchild _ ih =>
        rw [← hroot, children_mapCores, List.mem_map] at hchild
        obtain ⟨before, hbefore, heq⟩ := hchild
        obtain ⟨view, hview, rfl⟩ := ih heq
        exact ⟨view, .child hbefore hview, rfl⟩
  · rintro ⟨before, h, rfl⟩
    induction h with
    | root => exact .root _
    | child hchild _ ih =>
        refine .child ?_ ih
        rw [children_mapCores]
        exact List.mem_map_of_mem hchild

/-- Whether a view can have the focus is told by its flag and by the views that are shown. -/
theorem Regular.admits_iff {root view : View K} (h : root.Regular) (hview : root.Contains view) :
    root.Admits view.id ↔ view.core.focusable = true ∧ root.shows view.id = true := by
  rw [shows_iff]
  constructor
  · rintro ⟨other, hother, hid, hfocusable⟩
    obtain rfl := h.eq_of_contains hother.contains hview hid
    exact ⟨hfocusable, other, hother, rfl⟩
  · rintro ⟨hfocusable, other, hother, hid⟩
    obtain rfl := h.eq_of_contains hother.contains hview hid
    exact ⟨other, hother, rfl, hfocusable⟩

end View

variable [Coord K]

/-! ## The answer -/

namespace Focus

/-- What is asked of a focus. It goes to a view exactly if the view can have it, and that view has
the flag then and no other one has. Otherwise everything is left as it is. -/
structure Honors (focus : Focus) (root : View K) (id : ViewId) : Prop where
  answer : (focus.moveTo root id).1 = true ↔ root.Admits id
  granted : (focus.moveTo root id).1 = true →
    (focus.moveTo root id).2.1.focused = some id ∧
      ∀ view, (focus.moveTo root id).2.2.Contains view →
        (view.core.focused = true ↔ view.id = id)
  refused : (focus.moveTo root id).1 = false → (focus.moveTo root id).2 = (focus, root)

variable {focus : Focus} {root : View K} {id : ViewId}

/-- The view that has the focus is not looked for. -/
theorem moveTo_of_focused (h : focus.focused = some id) :
    focus.moveTo root id = (true, focus, root) := by
  rw [moveTo, if_pos h]

theorem moveTo_of_visible (hregular : root.Regular) {view : View K}
    (h : focus.focused ≠ some view.id) (hview : root.Contains view)
    (hfocusable : view.core.focusable = true) (hvisible : view.core.visible = true) :
    focus.moveTo root view.id = (true, ⟨some view.id⟩,
      root.mapCores (ViewCore.setFlags (handOver focus.focused (some view.id)))) := by
  have hfound : ∃ after, focus.moveTo root view.id = (true, ⟨some view.id⟩, after) := by
    rw [moveTo, if_neg h, hregular.find?_all hview, Option.any_some, hfocusable, hvisible]
    exact ⟨_, rfl⟩
  obtain ⟨after, hfound⟩ := hfound
  rcases focus.moveTo_cases root view.id with heq | heq
  · rw [hfound] at heq
    exact absurd (congrArg Focus.focused (Prod.mk.inj heq).1).symm h
  · rw [← heq, hfound]

theorem moveTo_of_not_visible (h : focus.focused ≠ some id)
    (hnone : ∀ view, root.Contains view → view.id = id → view.core.focusable = true →
      view.core.visible = false) : focus.moveTo root id = (false, focus, root) := by
  have hsearch : ¬(root.all.find? (·.id == id)).any
      (fun view => view.core.focusable && view.core.visible) = true := by
    rw [Option.any_eq_true]
    rintro ⟨view, hfound, hview⟩
    have hcontains := View.mem_all_iff.mp (List.mem_of_find?_eq_some hfound)
    have hid : view.id = id := by simpa using List.find?_some hfound
    rw [Bool.and_eq_true] at hview
    rw [hnone view hcontains hid hview.1] at hview
    exact Bool.false_ne_true hview.2
  rw [moveTo, if_neg h, if_neg hsearch]

theorem honors_of_focused (h : focus.focused = some id) :
    focus.Honors root id ↔ root.Admits id ∧
      ∀ view, root.Contains view → (view.core.focused = true ↔ view.id = id) := by
  have heq : focus.moveTo root id = _ := moveTo_of_focused h
  constructor
  · rintro ⟨hanswer, hgranted, -⟩
    rw [heq] at hanswer hgranted
    exact ⟨hanswer.mp rfl, (hgranted rfl).2⟩
  · rintro ⟨hadmits, hflags⟩
    refine ⟨?_, ?_, ?_⟩ <;> rw [heq]
    · exact iff_of_true rfl hadmits
    · exact fun _ => ⟨h, hflags⟩
    · exact fun hfalse => absurd hfalse.symm Bool.false_ne_true

/-- The flag of the view that had the focus is cleared, and any further flag stays where it is. -/
theorem flags_handOver_iff {old : Option ViewId} :
    (∀ view, (root.mapCores (ViewCore.setFlags (handOver old (some id)))).Contains view →
        (view.core.focused = true ↔ view.id = id)) ↔
      ∀ view, root.Contains view → view.core.focused = true →
        view.id = id ∨ old = some view.id := by
  have hflag : ∀ view : View K,
      (view.mapCores (ViewCore.setFlags (handOver old (some id)))).core.focused =
        if view.id = id then true else if old = some view.id then false
        else view.core.focused := fun view => by
    rw [View.core_mapCores, ViewCore.setFlags_handOver_focused]
    exact if_congr ⟨fun heq => (Option.some.inj heq).symm, fun heq => heq ▸ rfl⟩ rfl rfl
  have hid : ∀ view : View K,
      (view.mapCores (ViewCore.setFlags (handOver old (some id)))).id = view.id := fun view => by
    rw [View.id, View.core_mapCores, ViewCore.setFlags_id]
    rfl
  constructor
  · intro h view hview hfocused
    by_contra hother
    obtain ⟨hne, hold⟩ := not_or.mp hother
    have hafter := h _ (View.contains_mapCores.mpr ⟨view, hview, rfl⟩)
    rw [hflag, hid, if_neg hne, if_neg hold] at hafter
    exact hne (hafter.mp hfocused)
  · intro h after hafter
    obtain ⟨view, hview, rfl⟩ := View.contains_mapCores.mp hafter
    rw [hflag, hid]
    by_cases heq : view.id = id
    · simp [heq]
    · by_cases hold : old = some view.id
      · simp [heq, hold]
      · rw [if_neg heq, if_neg hold]
        exact iff_of_false (fun hfocused => (h view hview hfocused).elim heq hold) heq

theorem honors_of_not_focused (hregular : root.Regular) (h : focus.focused ≠ some id) :
    focus.Honors root id ↔
      ∀ view, root.Contains view → view.id = id → view.core.focusable = true →
        view.core.visible = true → root.shows id = true ∧
          ∀ other, root.Contains other → other.core.focused = true →
            other.id = id ∨ focus.focused = some other.id := by
  by_cases hview : ∃ view, root.Contains view ∧ view.id = id ∧ view.core.focusable = true ∧
      view.core.visible = true
  · obtain ⟨view, hview, rfl, hfocusable, hvisible⟩ := hview
    have heq := moveTo_of_visible hregular h hview hfocusable hvisible
    constructor
    · intro honors other hother hid _ _
      have hadmits := honors.answer.mp (by rw [heq])
      have hflags := (honors.granted (by rw [heq])).2
      rw [heq, flags_handOver_iff] at hflags
      exact ⟨((hregular.admits_iff hview).mp hadmits).2, hflags⟩
    · intro hshown
      obtain ⟨hshows, hflags⟩ := hshown view hview rfl hfocusable hvisible
      refine ⟨?_, ?_, ?_⟩ <;> rw [heq]
      · exact iff_of_true rfl ((hregular.admits_iff hview).mpr ⟨hfocusable, hshows⟩)
      · exact fun _ => ⟨rfl, flags_handOver_iff.mpr hflags⟩
      · exact fun hfalse => absurd hfalse.symm Bool.false_ne_true
  · have hnone : ∀ view, root.Contains view → view.id = id → view.core.focusable = true →
        view.core.visible = false := by
      intro view hcontains hid hfocusable
      by_contra hvisible
      exact hview ⟨view, hcontains, hid, hfocusable, by simpa using hvisible⟩
    have heq := moveTo_of_not_visible h hnone
    refine iff_of_true ⟨?_, ?_, fun _ => by rw [heq]⟩ ?_
    · rw [heq]
      refine iff_of_false Bool.false_ne_true ?_
      rintro ⟨view, hreveals, hid, hfocusable⟩
      exact hview ⟨view, hreveals.contains, hid, hfocusable, hreveals.visible⟩
    · rw [heq]
      exact fun hfalse => absurd hfalse Bool.false_ne_true
    · intro view hcontains hid hfocusable hvisible
      exact absurd ⟨view, hcontains, hid, hfocusable, hvisible⟩ hview

end Focus

/-! ## Windows -/

namespace Window

/-- What comes of a window in which the focus is moved, pages are selected, and any views are shown,
hidden, and made focusable or not. -/
inductive Reached (start : Window K) : Window K → Prop
  | start : Reached start start
  | step {window : Window K} (h : Reached start window) (step : WindowStep) :
      Reached start (window.step step)
  | setFocusable {window : Window K} (h : Reached start window) (path : List Branch)
      (focusable : Bool) :
      Reached start ⟨(window.root.stepAt path (.core (.setFocusable focusable))).value.2,
        window.focus⟩

theorem Reached.run {start window : Window K} (h : start.Reached window)
    (steps : List WindowStep) : start.Reached (window.run steps) := by
  induction steps generalizing window with
  | nil => exact h
  | cons step rest ih => exact ih (h.step step)

theorem Reached.regular {start window : Window K} (h : start.Reached window)
    (hregular : start.root.Regular) : window.root.Regular := by
  induction h with
  | start => exact hregular
  | step _ step ih => exact regular_step ih step
  | setFocusable _ path focusable ih =>
      exact (View.dims_stepAt_setFocusable _ path focusable).regular ih

/-- Asked for the view that has it, the focus does what is asked of it exactly if this view can
have it still and is the only one with the flag. Asked for another view, it does so exactly if this
view is shown whenever it is focusable and visible itself, and then no view has the flag but this
one and the one that has the focus. -/
theorem Reached.honors_iff {start window : Window K} (h : start.Reached window)
    (hregular : start.root.Regular) (id : ViewId) :
    window.focus.Honors window.root id ↔
      (window.focus.focused = some id → window.root.Admits id ∧
        ∀ view, window.root.Contains view → (view.core.focused = true ↔ view.id = id)) ∧
      (window.focus.focused ≠ some id →
        ∀ view, window.root.Contains view → view.id = id → view.core.focusable = true →
          view.core.visible = true → window.root.shows id = true ∧
            ∀ other, window.root.Contains other → other.core.focused = true →
              other.id = id ∨ window.focus.focused = some other.id) := by
  by_cases hfocused : window.focus.focused = some id
  · rw [Focus.honors_of_focused hfocused]
    simp [hfocused]
  · rw [Focus.honors_of_not_focused (h.regular hregular) hfocused]
    simp [hfocused]

/-- The focused page of a tab is hidden when the other one is selected. The focus does what is
asked of it for the other page, and not for the one that it is on. -/
theorem honors_iff_other_page :
    let metrics : TextMetrics Rat := ⟨fun _ _ => .zero⟩
    let page (number : Nat) : View Rat :=
      .panel { ViewCore.new (.view number) with focusable := true } .empty
    let single : Tab Rat := ((Tab.new (.view 0) metrics .standard).addPage "one" (page 1)).value
    let root : View Rat := (single.addPage "two" (page 2)).value.toView
    let window := Window.run ⟨root, .new⟩ [.focusView (.view 1), .selectPage [] 1]
    window.focus.Honors window.root (.view 2) ∧ ¬window.focus.Honors window.root (.view 1) := by
  intro metrics page single root window
  have hregular : root.Regular := by decide +kernel
  have hreached : Reached ⟨root, .new⟩ window := Reached.start.run _
  constructor
  · refine (hreached.honors_iff hregular (.view 2)).mpr ⟨fun h => ?_, fun _ => ?_⟩
    · exact absurd h (by decide +kernel)
    · refine View.forall_contains_iff.mpr ?_
      have hshows : window.root.shows (.view 2) = true := by decide +kernel
      have hflags : ∀ other ∈ window.root.all, other.core.focused = true →
          other.id = .view 2 ∨ window.focus.focused = some other.id := by decide +kernel
      exact fun _ _ _ _ _ => ⟨hshows, View.forall_contains_iff.mpr hflags⟩
  · intro honors
    have hfocused : window.focus.focused = some (.view 1) := by decide +kernel
    obtain ⟨⟨view, hreveals, hid, -⟩, -⟩ :=
      ((hreached.honors_iff hregular (.view 1)).mp honors).1 hfocused
    have hshows : window.root.shows (.view 1) = true := View.shows_iff.mpr ⟨view, hreveals, hid⟩
    exact absurd hshows (by decide +kernel)

/-- A view has got the focus and is hidden. Asked for it again, the focus stays on the hidden view,
which has no flag, and the answer is that it has the focus. -/
theorem run_answer_hidden :
    let metrics : TextMetrics Rat := ⟨fun _ _ => .zero⟩
    let page : View Rat := .panel { ViewCore.new (.view 1) with focusable := true } .empty
    let root : View Rat := ((Tab.new (.view 0) metrics .standard).addPage "page" page).value.toView
    let window := Window.run ⟨root, .new⟩ [.focusView (.view 1), .setVisible [.child 0] false]
    let outcome := window.focus.moveTo window.root (.view 1)
    root.Regular ∧ Reached ⟨root, .new⟩ window ∧ outcome.1 = true ∧
      ¬window.root.Admits (.view 1) ∧ ∀ view, outcome.2.2.Contains view →
        view.core.focused = false := by
  intro metrics page root window outcome
  refine ⟨by decide +kernel, Reached.start.run _, by decide +kernel, ?_, ?_⟩
  · rintro ⟨view, hreveals, hid, -⟩
    have hshows : window.root.shows (.view 1) = true := View.shows_iff.mpr ⟨view, hreveals, hid⟩
    exact absurd hshows (by decide +kernel)
  · exact View.forall_contains_iff.mpr (by decide +kernel)

end Window

end WidgetToolkit
