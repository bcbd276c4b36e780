import WidgetToolkit.Proofs.View.Placement
import WidgetToolkit.View.Step

/-! # Addresses in view trees -/

namespace WidgetToolkit.View

variable {K : Type}

theorem eq_toView_of_tab? {view : View K} {tab : Tab K} (h : view.tab? = some tab) :
    view = tab.toView := by
  cases view <;> simp only [tab?, Option.some.injEq, reduceCtorEq] at h
  subst h
  rfl

/-! ## Going to an address -/

theorem at?_cons_eq_some_iff {root view : View K} {branch : Branch} {path : List Branch} :
    root.at? (branch :: path) = some view ↔
      ∃ next, root.branch? branch = some next ∧ next.at? path = some view := by
  rw [at?, Option.bind_eq_some_iff]

/-- Below an item there is nothing. -/
theorem at?_item {entry : TabItem K} {path : List Branch} {view : View K}
    (h : (View.item entry).at? path = some view) : path = [] ∧ view = .item entry := by
  cases path with
  | nil => exact ⟨rfl, (Option.some.inj h).symm⟩
  | cons branch path =>
      obtain ⟨next, hnext, _⟩ := at?_cons_eq_some_iff.mp h
      cases branch <;> simp [branch?] at hnext

/-! ## Properties of all tabs in a tree -/

/-- A property of the tabs at all addresses. -/
def EveryTab (p : Tab K → Prop) (root : View K) : Prop :=
  ∀ path tab, root.at? path = some (Tab.toView tab) → p tab

variable {p : Tab K → Prop}

theorem EveryTab.branch {root view : View K} (h : root.EveryTab p) (branch : Branch)
    (hbranch : root.branch? branch = some view) : view.EveryTab p := fun path tab hat =>
  h (branch :: path) tab (at?_cons_eq_some_iff.mpr ⟨view, hbranch, hat⟩)

theorem EveryTab.at? {root view : View K} (h : root.EveryTab p) {path : List Branch}
    (hat : root.at? path = some view) : view.EveryTab p := by
  induction path generalizing root with
  | nil => exact Option.some.inj hat ▸ h
  | cons branch path ih =>
      obtain ⟨next, hnext, hat⟩ := at?_cons_eq_some_iff.mp hat
      exact ih (h.branch branch hnext) hat

/-- It is enough to look at the view itself and at what is right below it. -/
theorem everyTab_of_branches {root : View K} (hroot : ∀ tab, root = Tab.toView tab → p tab)
    (hbranch : ∀ branch view, root.branch? branch = some view → view.EveryTab p) :
    root.EveryTab p := by
  intro path tab hat
  cases path with
  | nil => exact hroot tab (Option.some.inj hat)
  | cons branch path =>
      obtain ⟨next, hnext, hat⟩ := at?_cons_eq_some_iff.mp hat
      exact hbranch branch next hnext path tab hat

/-- What is settled has the same views below it. -/
theorem Settled.everyTab {view view' : View K} (hsettled : view.Settled view')
    (h : view.EveryTab p) : view'.EveryTab p := by
  apply everyTab_of_branches
  · rintro tab rfl
    cases hsettled.tab_eq
  · intro branch below hbelow
    exact h.branch branch (hsettled.branch_eq branch ▸ hbelow)

theorem everyTab_item (entry : TabItem K) : (View.item entry).EveryTab p := by
  intro path tab hat
  cases (at?_item hat).2

/-- There is no tab in a view that has nothing below it and is none. -/
theorem everyTab_leaf {view : View K} (h : view.isContainer = false) : view.EveryTab p := by
  apply everyTab_of_branches
  · rintro tab rfl
    simp [Tab.toView, isContainer] at h
  · intro branch below hbelow
    cases view <;> cases branch <;> simp [branch?, isContainer] at hbelow h

theorem everyTab_group {core : ViewCore K} {widget : WidgetType} {children : List (View K)} :
    (View.group core widget children).EveryTab p ↔ ∀ child ∈ children, child.EveryTab p := by
  constructor
  · intro h child hm
    obtain ⟨index, hindex⟩ := List.mem_iff_getElem?.mp hm
    exact h.branch (.child index) hindex
  · intro h
    apply everyTab_of_branches
    · intro tab heq
      cases heq
    · intro branch view hview
      cases branch with
      | child index => exact h view (List.mem_of_getElem? hview)
      | item index => simp [branch?] at hview

theorem everyTab_tab {tab : Tab K} :
    tab.toView.EveryTab p ↔ p tab ∧ ∀ page ∈ tab.pages, page.EveryTab p := by
  constructor
  · intro h
    refine ⟨h [] tab rfl, ?_⟩
    intro page hm
    obtain ⟨index, hindex⟩ := List.mem_iff_getElem?.mp hm
    exact h.branch (.child index) hindex
  · rintro ⟨htab, hpages⟩
    apply everyTab_of_branches
    · rintro ⟨strip, pages, changed⟩ heq
      cases heq
      exact htab
    · intro branch view hview
      cases branch with
      | child index => exact hpages view (List.mem_of_getElem? hview)
      | item index =>
          obtain ⟨entry, _, rfl⟩ := Option.map_eq_some_iff.mp hview
          exact everyTab_item entry

/-- The common part of a view is no tab. -/
theorem EveryTab.mapCore {view : View K} (h : view.EveryTab p) (change : ViewCore K → ViewCore K)
    (hp : ∀ tab, p tab → p { tab with strip := { tab.strip with core := change tab.strip.core } }) :
    (view.mapCore change).EveryTab p := by
  cases view with
  | panel | plain | probe | item => exact everyTab_leaf rfl
  | group => exact everyTab_group.mpr (everyTab_group.mp h)
  | tab strip pages changed =>
      obtain ⟨htab, hpages⟩ : p ⟨strip, pages, changed⟩ ∧ _ := everyTab_tab.mp h
      exact everyTab_tab.mpr ⟨hp _ htab, hpages⟩

/-! ## Replacing a view -/

/-- What is put below a view does not change what it is itself. -/
theorem core_replaceAt (root : View K) (branch : Branch) (path : List Branch) (new : View K) :
    (root.replaceAt (branch :: path) new).core = root.core := by
  cases branch with
  | child index => cases root <;> rfl
  | item index =>
      cases root with
      | tab => cases new <;> rfl
      | _ => rfl

/-- At an address there is a page of a tab. -/
def IsPageAt (root : View K) (path : List Branch) : Prop :=
  ∃ front index tab, path = front ++ [.child index] ∧ root.at? front = some (Tab.toView tab)

theorem isPageAt_child (tab : Tab K) (index : Nat) : tab.toView.IsPageAt [.child index] :=
  ⟨[], index, tab, rfl, rfl⟩

theorem IsPageAt.cons {root view : View K} {branch : Branch} {path : List Branch}
    (h : view.IsPageAt path) (hbranch : root.branch? branch = some view) :
    root.IsPageAt (branch :: path) := by
  obtain ⟨front, index, tab, rfl, hat⟩ := h
  exact ⟨branch :: front, index, tab, rfl, at?_cons_eq_some_iff.mpr ⟨view, hbranch, hat⟩⟩

/-- At an address there is an item or a page of a tab. -/
def IsBelowTab (root : View K) (path : List Branch) : Prop :=
  ∃ front branch tab, path = front ++ [branch] ∧ root.at? front = some (Tab.toView tab)

theorem isBelowTab_singleton (tab : Tab K) (branch : Branch) : tab.toView.IsBelowTab [branch] :=
  ⟨[], branch, tab, rfl, rfl⟩

theorem IsBelowTab.cons {root view : View K} {branch : Branch} {path : List Branch}
    (h : view.IsBelowTab path) (hbranch : root.branch? branch = some view) :
    root.IsBelowTab (branch :: path) := by
  obtain ⟨front, last, tab, rfl, hat⟩ := h
  exact ⟨branch :: front, last, tab, rfl, at?_cons_eq_some_iff.mpr ⟨view, hbranch, hat⟩⟩

end WidgetToolkit.View
