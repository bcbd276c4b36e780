import WidgetToolkit.Proofs.Tab.Hover
import WidgetToolkit.Proofs.View.Strips

/-! # The pointer over a tree of tabs

Motion is passed on to the selected page under the pointer and reaches the tabs on that way alone. A
pointer that leaves is told to the root only. What an event reaches is right about the pointer, and
all other tabs go on showing it where it was. -/

namespace WidgetToolkit

variable {K : Type} [Coord K]

/-! ## Histories -/

/-- Everything that a tab does to its strip keeps it in order. -/
theorem TabStrip.lasting_hovering :
    TabStrip.Lasting TabItem.Calms (TabStrip.Hovering (K := K)) where
  new := hovering_new
  withCore hid h := h.sameItems hid rfl rfl rfl
  withSelected _ h := h.sameItems rfl rfl rfl rfl
  rememberHeight h := h.sameItems rfl rfl rfl rfl
  layout h := h.layout
  setFont font h := h.setFont font
  setColor color h := h.setColor color
  setScale scale h := h.setScale scale
  setSelected _ selected h := h.modifyItem fun item _ => item.calms_setSelected selected
  pushItem title h := h.pushItem title
  eraseItem hentry h := h.eraseItem hentry
  track p h := h.track p
  untrack h := h.untrack
  touch hentry hcalms h := h.modifyItem fun item hitem => by
    rwa [Option.some.inj (hitem.symm.trans hentry)]

/-- A step that makes an item show the pointer, if the item takes it itself. -/
def ViewStep.hovers : ViewStep K → Bool
  | .enter _ => true
  | .core (.setState .hovered) => true
  | _ => false

theorem ViewCore.step_state (core : ViewCore K) {step : CoreStep K}
    (h : (ViewStep.core step).hovers = false) (hhovered : (core.step step).2.state = .hovered) :
    core.state = .hovered := by
  cases step with
  | setState state => cases state <;> simp_all [ViewStep.hovers, ViewCore.step]
  | setEnabled enabled => cases enabled <;> simp [ViewCore.step, ViewCore.setEnabled] at hhovered
  | setFocused focused =>
      simp only [ViewCore.step, ViewCore.setFocused] at hhovered
      split at hhovered
      · exact hhovered
      · simpa using hhovered
  | setFont | setColor | setBackground | setVisible =>
      simpa [ViewCore.step, ViewCore.setFont, ViewCore.setColor, ViewCore.setBackground,
        ViewCore.setVisible] using hhovered
  | allocate | invalidate | invalidateRect => simpa [ViewCore.step] using hhovered
  | setScale | setFocusable | setParent | contains | takeDamage => exact hhovered

theorem TabItem.calms_step {entry entry' : TabItem K} {step : ViewStep K}
    (h : step.hovers = false) (hstep : ((View.item entry).step step).value.2 = .item entry') :
    entry.Calms entry' := by
  cases step with
  | core change =>
      cases hstep
      exact ⟨entry.core.step_id change, fun hhovered => ⟨entry.core.step_state h hhovered, rfl⟩⟩
  | place placement =>
      cases placement with
      | allocate rect =>
          cases hstep
          exact entry.calms_allocate rect
      | layout =>
          cases hstep
          exact .refl entry
      | rescale scale =>
          cases hstep
          exact entry.calms_setScale scale
  | setFont font =>
      cases hstep
      exact entry.calms_setFont font
  | setColor color =>
      cases hstep
      exact entry.calms_setColor color
  | setVisible visible =>
      cases hstep
      refine ⟨ViewCore.setVisible_id _ _, fun hhovered => ⟨?_, rfl⟩⟩
      simpa [IsHovered, ViewCore.setVisible] using hhovered
  | enter => cases h
  | leave =>
      cases hstep
      exact entry.calms_setHovered_false
  | move | click | draw | addPage | removePage | selectPage | askHeight | askMinimumSize =>
      cases hstep
      exact .refl entry

namespace View

/-- Nobody but its tab tells an item that the pointer is over it. -/
def LeavesHover (root : View K) (path : List Branch) (step : ViewStep K) : Prop :=
  (∃ entry, root.at? path = some (.item entry)) → step.hovers = false

theorem Reachable.hovering {root : View K} (h : root.Reachable LeavesHover) :
    root.Strips TabStrip.Hovering := by
  apply Reachable.strips TabStrip.lasting_hovering
  apply h.mono
  intro root path step hleaves entry entry' hat hstep
  exact TabItem.calms_step (hleaves ⟨entry, hat⟩) hstep

/-! ## Motion -/

/-- Motion at a point reaches the view at an address: from tab to tab it is passed on to the
selected page under the pointer. -/
inductive Hears (p : Point K) : View K → List Branch → Prop
  | here (view : View K) : Hears p view []
  | page {tab : Tab K} {index : Nat} {page : View K} {path : List Branch}
      (hindex : tab.pageAt? p = some index) (hpage : tab.pages[index]? = some page)
      (hbelow : Hears p page path) : Hears p tab.toView (.child index :: path)

/-- The items that show the pointer, in all tabs of the tree, contain the point where it is. -/
def HoversOnly (root : View K) (at? : Option (Point K)) : Prop :=
  root.EveryTab fun tab => tab.strip.HoversOnly at?

omit [Coord K] in
/-- No tab is at an address that goes through an item. -/
theorem at?_item_ne_tab {view : View K} {index : Nat} {path : List Branch} {tab : Tab K} :
    view.at? (.item index :: path) ≠ some tab.toView := by
  intro hat
  obtain ⟨next, hnext, hat⟩ := at?_cons_eq_some_iff.mp hat
  cases view with
  | tab strip pages changed =>
      obtain ⟨entry, -, rfl⟩ := Option.map_eq_some_iff.mp hnext
      cases (at?_item hat).2
  | panel | plain | probe | group | item => cases hnext

theorem moveWithin_of_tab? {view : View K} (h : view.tab? = none) (levels : Nat)
    (event : PointerEvent K) : (moveWithin levels event view).value = view := by
  cases levels with
  | zero => rfl
  | succ levels =>
      cases view with
      | tab => cases h
      | panel | plain | probe | group | item => rfl

/-- What becomes of a tab when the pointer moves over it. -/
theorem moveWithin_tab (levels : Nat) (event : PointerEvent K) (tab : Tab K) :
    (moveWithin (levels + 1) event tab.toView).value =
      Tab.toView
        { tab with
          strip := tab.strip.track event.position
          pages :=
            match tab.pageAt? event.position with
            | none => tab.pages
            | some index =>
              tab.pages.modify index fun page => (moveWithin levels event page).value } := by
  have hpageAt : Tab.pageAt? { tab with strip := tab.strip.track event.position } event.position =
      tab.pageAt? event.position := by
    simp only [Tab.pageAt?, (tab.strip.still_track event.position).selected_eq]
  simp only [Tab.toView, moveWithin, Tab.moveBy, Tab.forwardMoveBy, hpageAt]
  split <;> simp [*]

theorem at?_moveWithin_child (levels : Nat) (event : PointerEvent K) (tab : Tab K) (index : Nat)
    (path : List Branch) :
    (moveWithin (levels + 1) event tab.toView).value.at? (.child index :: path) =
      tab.pages[index]?.bind fun page =>
        if tab.pageAt? event.position = some index then
          (moveWithin levels event page).value.at? path
        else page.at? path := by
  rw [moveWithin_tab]
  simp only [Tab.toView, at?, branch?]
  cases tab.pageAt? event.position with
  | none => simp
  | some index' =>
      by_cases heq : index' = index
      · cases hpage : tab.pages[index]? <;> simp [heq, hpage]
      · simp [heq]

/-- A tab that motion reaches shows the pointer only where it is. -/
theorem hoversOnly_of_hears {levels : Nat} {event : PointerEvent K} {view : View K}
    (h : view.Strips TabStrip.Hovering) (hlevels : view.depth ≤ levels) {path : List Branch}
    (hhears : Hears event.position view path) {tab : Tab K}
    (hat : (moveWithin levels event view).value.at? path = some tab.toView) :
    tab.strip.HoversOnly (some event.position) := by
  induction hhears generalizing levels with
  | here view =>
      have hpos := depth_pos view
      cases htab : view.tab? with
      | none =>
          rw [moveWithin_of_tab? htab] at hat
          cases hat
          cases htab
      | some before =>
          obtain rfl := eq_toView_of_tab? htab
          obtain ⟨levels, rfl⟩ : ∃ n, levels = n + 1 := ⟨levels - 1, by omega⟩
          rw [moveWithin_tab] at hat
          obtain ⟨hstrip, -, -⟩ := View.tab.inj (Option.some.inj hat)
          rw [← hstrip]
          exact (strips_toView.mp h).1.hoversOnly_track event.position
  | @page before index page path hindex hpage hbelow ih =>
      obtain ⟨levels, rfl⟩ : ∃ n, levels = n + 1 :=
        ⟨levels - 1, by have := depth_pos before.toView; omega⟩
      have hmem := List.mem_of_getElem? hpage
      rw [at?_moveWithin_child, hpage, Option.bind_some, if_pos hindex] at hat
      apply ih ((strips_toView.mp h).2 page hmem) ?_ hat
      exact depths_le_iff.mp (Nat.le_of_succ_le_succ hlevels) page hmem

/-- Any other tab stays as it is. -/
theorem at?_moveWithin_of_not_hears {levels : Nat} {event : PointerEvent K} {view : View K}
    {path : List Branch} (hhears : ¬ Hears event.position view path) (tab : Tab K) :
    (moveWithin levels event view).value.at? path = some tab.toView ↔
      view.at? path = some tab.toView := by
  induction levels generalizing view path with
  | zero => rfl
  | succ levels ih =>
      cases htab : view.tab? with
      | none => rw [moveWithin_of_tab? htab]
      | some before =>
          obtain rfl := eq_toView_of_tab? htab
          cases path with
          | nil => exact absurd (.here _) hhears
          | cons branch path =>
              cases branch with
              | item index => exact iff_of_false at?_item_ne_tab at?_item_ne_tab
              | child index =>
                  have hbefore : before.toView.at? (.child index :: path) =
                      before.pages[index]?.bind (·.at? path) := rfl
                  rw [at?_moveWithin_child, hbefore]
                  cases hpage : before.pages[index]? with
                  | none => rfl
                  | some page =>
                      simp only [Option.bind_some]
                      by_cases hindex : before.pageAt? event.position = some index
                      · rw [if_pos hindex]
                        exact ih fun hbelow => hhears (.page hindex hpage hbelow)
                      · rw [if_neg hindex]

/-! ## Leaving -/

theorem hoversOnly_leave {root : View K} (h : root.Strips TabStrip.Hovering)
    (event : PointerEvent K) {tab : Tab K} (htab : (root.leave event).value = tab.toView) :
    tab.strip.HoversOnly none := by
  cases root with
  | tab strip pages changed =>
      have hstrip : strip.untrack = tab.strip := (View.tab.inj htab).1
      have hbefore : strip.Hovering := h [] ⟨strip, pages, changed⟩ rfl
      rw [← hstrip]
      exact hbefore.hoversOnly_untrack
  | panel | plain | probe | group | item => cases htab

theorem at?_leave {root : View K} (event : PointerEvent K) {path : List Branch} (hne : path ≠ [])
    (tab : Tab K) :
    (root.leave event).value.at? path = some tab.toView ↔ root.at? path = some tab.toView := by
  cases path with
  | nil => exact absurd rfl hne
  | cons branch path =>
      cases branch with
      | item index => exact iff_of_false at?_item_ne_tab at?_item_ne_tab
      | child index => cases root <;> rfl

/-! ## The pointer is where the tabs show it -/

/-- After the pointer has moved, every tab that the motion reaches shows it only where it is, and
after it has left, the root does not show it. So no tab shows the pointer where it is not, if and
only if none of those does that the event does not reach: they are not told that the pointer has
gone. -/
theorem reachable_hover {root : View K} (h : root.Reachable LeavesHover) (event : PointerEvent K) :
    (∀ path tab, Hears event.position root path →
        (root.move event).value.at? path = some (Tab.toView tab) →
          tab.strip.HoversOnly (some event.position)) ∧
      ((root.move event).value.HoversOnly (some event.position) ↔
        ∀ path tab, ¬ Hears event.position root path → root.at? path = some (Tab.toView tab) →
          tab.strip.HoversOnly (some event.position)) ∧
      (∀ tab, (root.leave event).value = Tab.toView tab → tab.strip.HoversOnly none) ∧
      ((root.leave event).value.HoversOnly none ↔
        ∀ path tab, path ≠ [] → root.at? path = some (Tab.toView tab) →
          tab.strip.HoversOnly none) := by
  have hstrips := h.hovering
  have hreached : ∀ path tab, Hears event.position root path →
      (root.move event).value.at? path = some (Tab.toView tab) →
        tab.strip.HoversOnly (some event.position) :=
    fun path tab hhears hat => hoversOnly_of_hears hstrips (Nat.le_refl _) hhears hat
  have hroot : ∀ tab, (root.leave event).value = Tab.toView tab → tab.strip.HoversOnly none :=
    fun tab htab => hoversOnly_leave hstrips event htab
  refine ⟨hreached, ⟨?_, ?_⟩, hroot, ?_, ?_⟩
  · intro hmoved path tab hhears hat
    exact hmoved path tab ((at?_moveWithin_of_not_hears hhears tab).mpr hat)
  · intro hrest path tab hat
    by_cases hhears : Hears event.position root path
    · exact hreached path tab hhears hat
    · exact hrest path tab hhears ((at?_moveWithin_of_not_hears hhears tab).mp hat)
  · intro hleft path tab hne hat
    exact hleft path tab ((at?_leave event hne tab).mpr hat)
  · intro hrest path tab hat
    by_cases hnil : path = []
    · subst hnil
      exact hroot tab (Option.some.inj hat)
    · exact hrest path tab hnil ((at?_leave event hnil tab).mp hat)

theorem reachable_hover_second_item :
    let empty : View Rat := (Tab.new (.view 0) ⟨fun _ _ => ⟨8, 10⟩⟩ .standard).toView
    let page (number : Nat) : View Rat := .plain (.new (.view number)) ⟨"crate", "Page"⟩
    let one := (empty.stepAt [] (.addPage "one" (page 1))).value.2
    let two := (one.stepAt [] (.addPage "two" (page 2))).value.2
    let motion : PointerEvent Rat := ⟨.move, none, ⟨16, 8⟩⟩
    two.Reachable LeavesHover ∧ ∃ tab : Tab Rat, (two.move motion).value = tab.toView ∧
      tab.strip.items.map (·.core.state) = [.pressed, .hovered] ∧
      tab.strip.HoversOnly (some motion.position) := by
  intro empty page one two motion
  have hpage : ∀ number, (page number).Reachable LeavesHover := fun number => .plain _ _
  have hone : one.Reachable LeavesHover :=
    .step (.tab _ _ _) (by simp [LeavesHover, ViewStep.hovers]) (by simp [ViewStep.added?, hpage])
  have htwo : two.Reachable LeavesHover :=
    .step hone (by simp [LeavesHover, ViewStep.hovers]) (by simp [ViewStep.added?, hpage])
  refine ⟨htwo, _, rfl, by decide +kernel, ?_⟩
  exact (reachable_hover htwo motion).1 [] _ (.here _) rfl

/-- A tab that is a page is not told that the pointer has left. -/
theorem reachable_hover_left_behind :
    let empty (number : Nat) : View Rat :=
      (Tab.new (.view number) ⟨fun _ _ => ⟨8, 10⟩⟩ .standard).toView
    let page (number : Nat) : View Rat := .plain (.new (.view number)) ⟨"crate", "Page"⟩
    let run (root : View Rat) (steps : List (ViewStep Rat)) : View Rat :=
      steps.foldl (fun root step => (root.stepAt [] step).value.2) root
    let inner := run (empty 1) [.addPage "one" (page 2), .addPage "two" (page 3)]
    let root := run (empty 0)
      [.addPage "inner" inner, .place (.allocate ⟨0, 0, 100, 100⟩), .move ⟨.move, none, ⟨25, 25⟩⟩]
    root.Reachable (fun _ path _ => path = []) ∧
      ¬ (root.leave ⟨.leave, none, ⟨-1, -1⟩⟩).value.HoversOnly none := by
  intro empty page run inner root
  have hrun : ∀ {root : View Rat} {steps : List (ViewStep Rat)},
      root.Reachable (fun _ path _ => path = []) →
      (∀ step ∈ steps, ∀ page, step.added? = some page →
        page.Reachable (fun _ path _ => path = [])) →
      (run root steps).Reachable (fun _ path _ => path = []) := by
    intro root steps hroot hadded
    induction steps generalizing root with
    | nil => exact hroot
    | cons step rest ih =>
        obtain ⟨hstep, hrest⟩ := List.forall_mem_cons.mp hadded
        exact ih (.step hroot rfl hstep) hrest
  have hpage : ∀ number, (page number).Reachable (fun _ path _ => path = []) :=
    fun number => .plain _ _
  have hinner : inner.Reachable (fun _ path _ => path = []) :=
    hrun (.tab _ _ _) (by simp [ViewStep.added?, hpage])
  refine ⟨hrun (.tab _ _ _) (by simp [ViewStep.added?, hinner]), fun hleft => ?_⟩
  let below? := ((root.leave ⟨.leave, none, ⟨-1, -1⟩⟩).value.at? [.child 0]).bind View.tab?
  have hstale : below?.any fun tab => tab.strip.items.any (·.core.state == .hovered) := by
    decide +kernel
  obtain ⟨tab, htab⟩ : ∃ tab, below? = some tab :=
    Option.isSome_iff_exists.mp (Option.isSome_of_any hstale)
  rw [htab, Option.any_some, List.any_eq_true] at hstale
  obtain ⟨item, hitem, hshown⟩ := hstale
  obtain ⟨view, hat, hview⟩ := Option.bind_eq_some_iff.mp htab
  have hat : _ = some tab.toView := eq_toView_of_tab? hview ▸ hat
  exact absurd (hleft [.child 0] tab hat item hitem (beq_iff_eq.mp hshown)) (by simp)

end View

end WidgetToolkit
