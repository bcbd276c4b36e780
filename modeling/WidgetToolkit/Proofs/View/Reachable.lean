import WidgetToolkit.Proofs.Tab.Turning
import WidgetToolkit.Proofs.View.Paging
import WidgetToolkit.View.Step

/-! # Histories of view trees

A tree is reached from views of their own and empty tabs, by steps at any address. In every tree
reached, all tabs have their selections in order, as long as pages are shown and hidden by their tabs
only. -/

namespace WidgetToolkit

variable {K : Type}

/-- A step whose purpose it is to show or hide a view. -/
def ViewStep.showsOrHides : ViewStep K → Bool
  | .core (.setVisible _) => true
  | .setVisible _ => true
  | _ => false

/-- The page that comes into the tree with a step. -/
def ViewStep.added? : ViewStep K → Option (View K)
  | .addPage _ page => some page
  | _ => none

/-- A page that leaves the tree as the answer to a step has all its selections in order. -/
def ViewAnswer.Coherent : ViewAnswer K → Prop
  | .removed (some page) => page.Coherent
  | _ => True

/-- An item stays an item, and stays selected or not. -/
def View.SameItem (view view' : View K) : Prop :=
  ∀ entry, view = .item entry → ∃ entry', view' = .item entry' ∧ entry'.selected = entry.selected

/-- A view after a step: all selections are in order, and the flags that the tab above looks at are
what they were. -/
structure View.Stepped (step : ViewStep K) (view view' : View K) : Prop where
  coherent : view'.Coherent
  visible : step.showsOrHides = false → view.SameVisible view'
  item : view.SameItem view'

theorem View.sameItem_mapCore (view : View K) (change : ViewCore K → ViewCore K) :
    view.SameItem (view.mapCore change) := by
  rintro entry rfl
  exact ⟨_, rfl, rfl⟩

theorem View.Steady.stepped {operation : View K → Told (Notice K) (View K)}
    (hoperation : View.Steady operation) {view : View K} (h : view.Coherent) (step : ViewStep K)
    (hitem : view.SameItem (operation view).value) :
    (operation view).Meets (view.Stepped step) Notice.Coherent := by
  have hmeets := hoperation view h
  exact ⟨⟨hmeets.value.1, fun _ => hmeets.value.2, hitem⟩, hmeets.notices⟩

variable [Coord K]

/-! ## One step -/

theorem ViewCore.step_visible (core : ViewCore K) (step : CoreStep K)
    (h : (ViewStep.core step).showsOrHides = false) : (core.step step).2.visible = core.visible := by
  cases step with
  | setVisible => simp [ViewStep.showsOrHides] at h
  | setFont | setColor | setState | setEnabled | allocate | setFocused | invalidate
  | invalidateRect => simp [ViewCore.step, setEnabled]
  | setBackground => simp [ViewCore.step, setBackground]
  | setScale | setFocusable | setParent | contains | takeDamage => rfl

namespace View

theorem stepped_core {view : View K} (h : view.Coherent) (step : CoreStep K) :
    view.Stepped (.core step) (view.mapCore fun _ => (view.core.step step).2) := by
  refine ⟨coherent_mapCore h _, fun hstep => ?_, sameItem_mapCore view _⟩
  rw [SameVisible, core_mapCore, ViewCore.step_visible _ _ hstep]

theorem sameItem_place (view : View K) (placement : Placement K) :
    view.SameItem (view.place placement).value := by
  rintro entry rfl
  cases placement <;> exact ⟨_, rfl, rfl⟩

theorem sameItem_setFont (view : View K) (font : Font) :
    view.SameItem (view.setFont font).value := by
  rintro entry rfl
  exact ⟨_, rfl, rfl⟩

theorem sameItem_setColor (view : View K) (color : Color) : view.SameItem (view.setColor color) := by
  rintro entry rfl
  exact ⟨_, rfl, rfl⟩

theorem sameItem_enter (event : PointerEvent K) (view : View K) :
    view.SameItem (view.enter event).value := by
  rintro entry rfl
  exact ⟨_, rfl, Tab.setHovered_selected entry true⟩

theorem sameItem_leave (event : PointerEvent K) (view : View K) :
    view.SameItem (view.leave event).value := by
  rintro entry rfl
  exact ⟨_, rfl, Tab.setHovered_selected entry false⟩

theorem sameItem_move (event : PointerEvent K) (view : View K) :
    view.SameItem (view.move event).value := by
  rintro entry rfl
  exact ⟨_, rfl, rfl⟩

theorem sameItem_click (event : PointerEvent K) (view : View K) :
    view.SameItem (view.click event).value.2 := by
  rintro entry rfl
  exact ⟨_, rfl, rfl⟩

end View

theorem Tab.Coherent.step {tab : Tab K} (h : tab.Coherent) (step : ViewStep K)
    (hadded : ∀ page, step.added? = some page → page.Coherent) :
    (tab.step step).Meets (fun result => result.1.Coherent ∧ tab.Upheld result.2)
      Notice.Coherent := by
  cases step with
  | addPage title page =>
      refine (h.addPage title (hadded page rfl)).bind fun tab' h' => ?_
      exact Told.meets_pure ⟨trivial, h'⟩
  | removePage index =>
      refine (h.removePage index).bind fun result hresult => Told.meets_pure ⟨?_, hresult.2⟩
      cases hpage : result.1 with
      | none => trivial
      | some page => exact hresult.1 page hpage
  | selectPage index =>
      refine (h.selectPage index).bind fun tab' h' => ?_
      exact Told.meets_pure ⟨trivial, h'⟩
  | askHeight | askMinimumSize => exact Told.meets_pure ⟨trivial, h.withStrip rfl rfl rfl⟩
  | _ => exact Told.meets_pure ⟨trivial, h.upheld⟩

namespace View

/-- What tabs alone understand leaves every other view as it is. -/
theorem Coherent.stepTab {view : View K} (h : view.Coherent) (step : ViewStep K)
    (hadded : ∀ page, step.added? = some page → page.Coherent) :
    (match view.tab? with
      | none => return (.nothing, view)
      | some before => do
        let (answer, after) ← before.step step
        return (answer, after.toView) : Told (Notice K) (ViewAnswer K × View K)).Meets
      (fun result => result.1.Coherent ∧ view.Stepped step result.2) Notice.Coherent := by
  cases htab : view.tab? with
  | none => exact Told.meets_pure ⟨trivial, h, fun _ => rfl, fun entry heq => ⟨entry, heq, rfl⟩⟩
  | some before =>
      obtain rfl := eq_toView_of_tab? htab
      have hcoherent := Tab.coherent_toView.mp h
      refine (hcoherent.step step hadded).bind fun result hresult => Told.meets_pure ?_
      have hafter := Tab.coherent_toView.mpr hresult.2.coherent
      refine ⟨hresult.1, hafter, fun _ => hresult.2.visible_eq, ?_⟩
      rintro entry ⟨⟩

theorem Coherent.step {view : View K} (h : view.Coherent) (step : ViewStep K)
    (hadded : ∀ page, step.added? = some page → page.Coherent) :
    (view.step step).Meets (fun result => result.1.Coherent ∧ view.Stepped step result.2)
      Notice.Coherent := by
  have hanswered : ∀ {operation : View K → Told (Notice K) (View K)}, View.Steady operation →
      view.SameItem (operation view).value →
      (do return (.nothing, ← operation view) : Told (Notice K) (ViewAnswer K × View K)).Meets
        (fun result => result.1.Coherent ∧ view.Stepped step result.2) Notice.Coherent :=
    fun hoperation hitem => (hoperation.stepped h step hitem).bind fun view' h' =>
      Told.meets_pure ⟨trivial, h'⟩
  cases step with
  | core step => exact Told.meets_pure ⟨trivial, stepped_core h step⟩
  | place placement => exact hanswered (steady_place placement) (sameItem_place view placement)
  | setFont font => exact hanswered (steady_setFont font) (sameItem_setFont view font)
  | setColor color =>
      have hcolored := coherent_setColor h color
      exact Told.meets_pure ⟨trivial, hcolored.1, fun _ => hcolored.2, sameItem_setColor view color⟩
  | setVisible visible =>
      refine Told.meets_pure ⟨trivial, coherent_setVisible h visible, ?_, sameItem_mapCore view _⟩
      simp [ViewStep.showsOrHides]
  | enter event => exact hanswered (steady_enter event) (sameItem_enter event view)
  | leave event => exact hanswered (steady_leave event) (sameItem_leave event view)
  | move event => exact hanswered (steady_move event) (sameItem_move event view)
  | click event =>
      have hclick := steady_click event view h
      have hvalue := hclick.value
      refine ⟨⟨trivial, hvalue.1, fun _ => hvalue.2, sameItem_click event view⟩, ?_⟩
      simpa [View.step] using hclick.notices
  | draw region =>
      exact Told.meets_pure ⟨trivial, h, fun _ => rfl, fun entry heq => ⟨entry, heq, rfl⟩⟩
  | addPage | removePage | selectPage | askHeight | askMinimumSize => exact h.stepTab _ hadded

/-! ## A step at an address -/

omit [Coord K] in
theorem coherent_modifyChild {core : ViewCore K} {widget : WidgetType} {children : List (View K)}
    (h : (View.group core widget children).Coherent) {index : Nat} {child : View K}
    (hchild : children[index]? = some child) {change : View K → View K}
    (hchange : (change child).Coherent) :
    (View.group core widget (children.modify index change)).Coherent := by
  have hchildren : List.Forall₂ (fun child child' => child.Coherent → child'.Coherent)
      children (children.modify index change) := by
    refine forall₂_modify (fun _ h => h) fun child' hchild' _ => ?_
    rwa [Option.some.inj (hchild'.symm.trans hchild)]
  exact everyTab_group.mpr (forall_of_forall₂_imp hchildren (everyTab_group.mp h))

end View

namespace Tab.Coherent

variable {tab : Tab K}

omit [Coord K] in
theorem modifyPage (h : tab.Coherent) {index : Nat} {page : View K}
    (hpage : tab.pages[index]? = some page) {change : View K → View K}
    (hchange : (change page).Coherent) (hvisible : page.SameVisible (change page)) :
    Tab.Coherent { tab with pages := tab.pages.modify index change } := by
  refine (h.withPages (forall₂_modify (fun _ => ⟨fun h => h, rfl⟩) fun page' hpage' => ?_)).coherent
  rw [Option.some.inj (hpage'.symm.trans hpage)]
  exact ⟨fun _ => hchange, hvisible⟩

omit [Coord K] in
theorem modifyItem (h : tab.Coherent) {index : Nat} {item : TabItem K}
    (hitem : tab.strip.items[index]? = some item) {change : TabItem K → TabItem K}
    (hselected : (change item).selected = item.selected) :
    Tab.Coherent { tab with strip := tab.strip.modifyItem index change } := by
  have hitems : List.Forall₂ (fun item item' => item'.selected = item.selected)
      tab.strip.items (tab.strip.items.modify index change) := by
    apply forall₂_modify
    · exact fun _ => rfl
    · intro item' hitem'
      rw [Option.some.inj (hitem'.symm.trans hitem), hselected]
  have hmodified : tab.Upheld { tab with strip := tab.strip.modifyItem index change } :=
    h.withStrip (map_eq_of_forall₂ hitems fun _ _ h => h) rfl rfl
  exact hmodified.coherent

end Tab.Coherent

namespace View

omit [Coord K] in
/-- What has taken the place of a view below is all that has changed. -/
theorem coherent_replaceAt {root view view' : View K} {path : List Branch} (h : root.Coherent)
    (hat : root.at? path = some view) (hcoherent : view'.Coherent)
    (hvisible : root.IsPageAt path → view.SameVisible view') (hitem : view.SameItem view') :
    (root.replaceAt path view').Coherent := by
  induction path generalizing root with
  | nil =>
      cases root <;> exact hcoherent
  | cons branch path ih =>
      obtain ⟨next, hnext, hthere⟩ := at?_cons_eq_some_iff.mp hat
      have hbelow : (next.replaceAt path view').Coherent :=
        ih (h.branch branch hnext) hthere fun hpage => hvisible (hpage.cons hnext)
      cases branch with
      | child index =>
          cases root with
          | group core widget children => exact coherent_modifyChild h hnext hbelow
          | tab strip pages changed =>
              have htab : Tab.Coherent ⟨strip, pages, changed⟩ := Tab.coherent_toView.mp h
              have hsame : next.SameVisible (next.replaceAt path view') := by
                cases path with
                | nil =>
                    obtain rfl : next = view := Option.some.inj hthere
                    exact hvisible (isPageAt_child ⟨strip, pages, changed⟩ index)
                | cons branch path =>
                    exact congrArg ViewCore.visible (core_replaceAt next branch path view')
              exact Tab.coherent_toView.mpr (htab.modifyPage hnext hbelow hsame)
          | panel | plain | probe | item => simp [branch?] at hnext
      | item index =>
          cases root with
          | tab strip pages changed =>
              have htab : Tab.Coherent ⟨strip, pages, changed⟩ := Tab.coherent_toView.mp h
              obtain ⟨entry, hentry, rfl⟩ := Option.map_eq_some_iff.mp hnext
              obtain ⟨rfl, rfl⟩ := at?_item hthere
              obtain ⟨entry', rfl, hselected⟩ := hitem entry rfl
              exact Tab.coherent_toView.mpr (htab.modifyItem hentry hselected)
          | panel | plain | probe | group | item => simp [branch?] at hnext

/-! ## Histories -/

/-- Views that a program can come to, given the steps that it may take. It starts from views of its
own and from empty tabs, and a page that it adds to a tab is one that it has come to before. -/
inductive Reachable (allowed : View K → List Branch → ViewStep K → Prop) : View K → Prop
  | panel (core : ViewCore K) (clicked : Signal String) : Reachable allowed (.panel core clicked)
  | plain (core : ViewCore K) (widget : WidgetType) : Reachable allowed (.plain core widget)
  | probe (core : ViewCore K) (widget : WidgetType) (consumes : Bool) :
      Reachable allowed (.probe core widget consumes)
  | item (entry : TabItem K) : Reachable allowed (.item entry)
  | group (core : ViewCore K) (widget : WidgetType) {children : List (View K)}
      (hchildren : ∀ child ∈ children, Reachable allowed child) :
      Reachable allowed (.group core widget children)
  | tab (id : ViewId) (metrics : TextMetrics K) (settings : Settings K) :
      Reachable allowed (Tab.new id metrics settings).toView
  | step {root : View K} (hroot : Reachable allowed root) {path : List Branch} {step : ViewStep K}
      (hallowed : allowed root path step)
      (hadded : ∀ page, step.added? = some page → Reachable allowed page) :
      Reachable allowed (root.stepAt path step).value.2
  | removed {root : View K} (hroot : Reachable allowed root) {path : List Branch} {index : Nat}
      {page : View K}
      (hpage : (root.stepAt path (.removePage index)).value.1 = some (.removed (some page))) :
      Reachable allowed page

/-- The more steps are allowed, the more views can be reached. -/
theorem Reachable.mono {allowed allowed' : View K → List Branch → ViewStep K → Prop}
    (hallowed : ∀ root path step, allowed root path step → allowed' root path step) {root : View K}
    (h : root.Reachable allowed) : root.Reachable allowed' := by
  induction h with
  | panel core clicked => exact .panel core clicked
  | plain core widget => exact .plain core widget
  | probe core widget consumes => exact .probe core widget consumes
  | item entry => exact .item entry
  | group core widget _ ih => exact .group core widget ih
  | tab id metrics settings => exact .tab id metrics settings
  | step _ hstep _ ih ihadded => exact .step ih (hallowed _ _ _ hstep) ihadded
  | removed _ hpage ih => exact .removed ih hpage

/-- Steps at the root, one after the other. -/
def run (root : View K) (steps : List (ViewStep K)) : View K :=
  steps.foldl (fun root step => (root.stepAt [] step).value.2) root

theorem Reachable.run_of_allowed {allowed : View K → List Branch → ViewStep K → Prop}
    {root : View K} (h : root.Reachable allowed) {steps : List (ViewStep K)}
    (hallowed : ∀ root, ∀ step ∈ steps, allowed root [] step)
    (hadded : ∀ step ∈ steps, ∀ page, step.added? = some page → page.Reachable allowed) :
    (root.run steps).Reachable allowed := by
  induction steps generalizing root with
  | nil => exact h
  | cons step rest ih =>
      obtain ⟨hpage, hpages⟩ := List.forall_mem_cons.mp hadded
      have hstep := hallowed root step List.mem_cons_self
      exact ih (.step h hstep hpage) (fun root step hm => hallowed root step
        (List.mem_cons_of_mem _ hm)) hpages

/-- The pages of tabs are shown and hidden by their tabs only. -/
def Respects (root : View K) (path : List Branch) (step : ViewStep K) : Prop :=
  step.showsOrHides = true → ¬root.IsPageAt path

theorem Coherent.stepAt {root : View K} (h : root.Coherent) {path : List Branch} {step : ViewStep K}
    (hrespects : root.Respects path step)
    (hadded : ∀ page, step.added? = some page → page.Coherent) :
    (root.stepAt path step).Meets
      (fun result => (∀ answer, result.1 = some answer → answer.Coherent) ∧ result.2.Coherent)
      Notice.Coherent := by
  unfold View.stepAt
  split
  · exact Told.meets_pure ⟨by simp, h⟩
  · rename_i view hat
    have hview : view.Coherent := EveryTab.at? h hat
    refine (hview.step step hadded).bind fun result hresult => Told.meets_pure ⟨?_, ?_⟩
    · rintro _ ⟨⟩
      exact hresult.1
    · refine coherent_replaceAt h hat hresult.2.coherent (fun hpage => ?_) hresult.2.item
      refine hresult.2.visible ?_
      by_contra hshows
      exact hrespects (by simpa using hshows) hpage

theorem Reachable.coherent {root : View K} (h : root.Reachable Respects) : root.Coherent := by
  induction h with
  | panel | plain | probe => exact everyTab_leaf rfl
  | item entry => exact everyTab_item entry
  | group core widget hchildren ih => exact everyTab_group.mpr ih
  | tab id metrics settings =>
      refine everyTab_tab.mpr ⟨Tab.selection_new id metrics settings, ?_⟩
      simp [Tab.new]
  | step hroot hallowed hadded ih ihadded => exact (ih.stepAt hallowed ihadded).value.2
  | removed hroot hpage ih =>
      refine (ih.stepAt ?_ ?_).value.1 _ hpage
      · simp [Respects, ViewStep.showsOrHides]
      · simp [ViewStep.added?]

/-- After every step, and whenever observers are told of a tab, its items, its pages and its selection
agree. -/
theorem reachable_selection {root : View K} (h : root.Reachable Respects) :
    (∀ path tab, root.at? path = some (Tab.toView tab) → tab.Selection) ∧
      ∀ path step, root.Respects path step →
        (∀ page, step.added? = some page → page.Reachable Respects) →
        ∀ tab, Notice.selectedPageChanged tab ∈ (root.stepAt path step).notices → tab.Selection := by
  refine ⟨h.coherent, fun path step hrespects hadded tab hm => ?_⟩
  exact (h.coherent.stepAt hrespects fun page hpage => (hadded page hpage).coherent).notices _ hm

/-- The selected one of three pages is removed, so the one after it is selected. Then the first page
is selected, and observers are told. -/
theorem reachable_selection_after_removal :
    let page (number : Nat) : View Rat := .plain (.new (.view number)) ⟨"crate", "Page"⟩
    let flags (tab : Tab Rat) := (tab.strip.items.map (·.selected), tab.pages.map (·.core.visible))
    let root := (Tab.new (.view 0) ⟨fun _ _ => .zero⟩ .standard).toView.run
      [.addPage "one" (page 1), .addPage "two" (page 2), .addPage "three" (page 3), .selectPage 1,
        .removePage 1]
    ∃ tab told : Tab Rat, root = tab.toView ∧ flags tab = ([false, true], [false, true]) ∧
      tab.Selection ∧ .selectedPageChanged told ∈ (root.stepAt [] (.selectPage 0)).notices ∧
      flags told = ([true, false], [true, false]) ∧ told.Selection := by
  intro page flags root
  have hroot : root.Reachable Respects :=
    (Reachable.tab _ _ _).run_of_allowed (by simp [Respects, ViewStep.showsOrHides])
      (by simp [ViewStep.added?, Reachable.plain, page])
  obtain ⟨hselection, htold⟩ := reachable_selection hroot
  have hflags : root.tab?.map flags = some ([false, true], [false, true]) := by decide +kernel
  obtain ⟨tab, htab, hflags⟩ := Option.map_eq_some_iff.mp hflags
  have hview := eq_toView_of_tab? htab
  have hannounced : (root.stepAt [] (.selectPage 0)).announced.map flags =
      [([true, false], [true, false])] := by decide +kernel
  obtain ⟨told, hannounced, hafter⟩ := List.map_eq_singleton_iff.mp hannounced
  have hm : .selectedPageChanged told ∈ (root.stepAt [] (.selectPage 0)).notices :=
    Told.mem_announced_iff.mp (hannounced ▸ List.mem_singleton_self told)
  refine ⟨tab, told, hview, hflags, hselection [] tab (congrArg some hview), hm, hafter, ?_⟩
  exact htold [] (.selectPage 0) (by simp [Respects, ViewStep.showsOrHides]) nofun told hm

end View

end WidgetToolkit
