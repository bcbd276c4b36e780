import WidgetToolkit.Focus
import WidgetToolkit.Proofs.View.Regular

/-! # Changes of the common parts of all views of a tree

A change throughout a tree is a change at every address. One that concerns a single branch can be made
there. -/

namespace WidgetToolkit.View

variable {K : Type}

variable {f : ViewCore K → ViewCore K}

theorem mapAllCores_eq_map (f : ViewCore K → ViewCore K) (views : List (View K)) :
    mapAllCores f views = views.map (mapCores f) := by
  induction views with
  | nil => rfl
  | cons view rest ih => rw [mapAllCores, List.map_cons, ih]

@[simp] theorem core_mapCores (view : View K) (f : ViewCore K → ViewCore K) :
    (view.mapCores f).core = f view.core := by
  cases view <;> rfl

@[simp] theorem isContainer_mapCores (view : View K) (f : ViewCore K → ViewCore K) :
    (view.mapCores f).isContainer = view.isContainer := by
  cases view <;> rfl

@[simp] theorem frame_mapCores (view : View K) (f : ViewCore K → ViewCore K) :
    (view.mapCores f).frame = (view.mapCore f).frame := by
  cases view <;> rfl

@[simp] theorem branch?_mapCores (view : View K) (f : ViewCore K → ViewCore K) (branch : Branch) :
    (view.mapCores f).branch? branch = (view.branch? branch).map (mapCores f) := by
  cases view with
  | panel | plain | probe | item => cases branch <;> rfl
  | group => cases branch <;> simp [branch?, mapCores, mapAllCores_eq_map]
  | tab =>
      cases branch with
      | child => simp [branch?, mapCores, mapAllCores_eq_map]
      | item => simp [branch?, Function.comp_def, mapCores, mapCore]

@[simp] theorem branch?_mapCore (view : View K) (f : ViewCore K → ViewCore K) (branch : Branch) :
    (view.mapCore f).branch? branch = view.branch? branch := by
  cases view <;> cases branch <;> rfl

@[simp] theorem at?_mapCores (view : View K) (f : ViewCore K → ViewCore K) (path : List Branch) :
    (view.mapCores f).at? path = (view.at? path).map (mapCores f) := by
  induction path generalizing view with
  | nil => rfl
  | cons branch path ih =>
      rw [at?, at?, branch?_mapCores, Option.bind_map, Option.map_bind]
      exact congrArg _ (funext ih)

@[simp] theorem branches_mapCores (view : View K) (f : ViewCore K → ViewCore K) (reverse : Bool) :
    (view.mapCores f).branches reverse = view.branches reverse := by
  cases view <;> simp [mapCores, mapAllCores_eq_map, branches, mapCore]

theorem mapCores_mapCores (view : View K) (f g : ViewCore K → ViewCore K) :
    (view.mapCores f).mapCores g = view.mapCores (g ∘ f) := by
  induction view using branch_induction with
  | step view ih =>
      apply ext_branches
      · cases view <;> rfl
      · intro branch
        rw [branch?_mapCores, branch?_mapCores, branch?_mapCores, Option.map_map]
        exact Option.map_congr fun child hchild => ih branch child hchild

theorem mapCore_congr {view : View K} {g : ViewCore K → ViewCore K} (h : f view.core = g view.core) :
    view.mapCore f = view.mapCore g := by
  cases view <;> simp only [core] at h <;> simp only [mapCore, h]

theorem mapCore_eq_self {view : View K} (h : f view.core = view.core) : view.mapCore f = view := by
  cases view <;> simp only [core] at h <;> simp only [mapCore, h]

/-- A change that leaves what is on a branch alone. -/
theorem branch?_mapCores_of_eq {view : View K} {branch : Branch}
    (h : ∀ child, view.branch? branch = some child → child.mapCores f = child) :
    (view.mapCores f).branch? branch = view.branch? branch := by
  rw [branch?_mapCores]
  cases hchild : view.branch? branch with
  | none => rfl
  | some child => rw [Option.map_some, h child hchild]

/-- A change that leaves the common part of every view alone changes nothing. -/
theorem mapCores_eq_self {view : View K}
    (h : ∀ path below, view.at? path = some below → f below.core = below.core) :
    view.mapCores f = view := by
  induction view using branch_induction with
  | step view ih =>
      apply ext_branches
      · rw [frame_mapCores, mapCore_eq_self (h [] view rfl)]
      · intro branch
        refine branch?_mapCores_of_eq fun child hchild => ih branch child hchild ?_
        intro path below hat
        exact h (branch :: path) below (by rwa [at?_cons_of_branch? hchild])

/-- A change that concerns a view and nothing below it. -/
theorem mapCores_eq_mapCore {view : View K}
    (h : ∀ branch path below, view.at? (branch :: path) = some below → f below.core = below.core) :
    view.mapCores f = view.mapCore f := by
  apply ext_branches
  · exact frame_mapCores view f
  · intro branch
    rw [branch?_mapCore]
    refine branch?_mapCores_of_eq fun child hchild => mapCores_eq_self fun path below hat => ?_
    exact h branch path below (by rwa [at?_cons_of_branch? hchild])

/-- A change that concerns what is on one branch can be made there. -/
theorem replaceAt_mapCores {view child : View K} {branch : Branch}
    (hchild : view.branch? branch = some child) (hcore : f view.core = view.core)
    (hothers : ∀ other path below, other ≠ branch → view.at? (other :: path) = some below →
      f below.core = below.core) :
    view.replaceAt [branch] (child.mapCores f) = view.mapCores f := by
  apply ext_branches
  · rw [frame_replaceAt_singleton, frame_mapCores, mapCore_eq_self hcore]
  · intro other
    by_cases hother : other = branch
    · rw [hother, branch?_mapCores, hchild]
      refine branch?_replaceAt_self hchild ?_
      rintro entry rfl
      exact ⟨_, rfl⟩
    · rw [branch?_replaceAt_of_ne view hother]
      refine (branch?_mapCores_of_eq fun beside hbeside => mapCores_eq_self ?_).symm
      intro path below hat
      exact hothers other path below hother (by rwa [at?_cons_of_branch? hbeside])

/-! ## Children and regularity -/

theorem childrenAlong_mapCores (view : View K) (f : ViewCore K → ViewCore K)
    (branches : List Branch) :
    (view.mapCores f).childrenAlong branches = (view.childrenAlong branches).map (mapCores f) := by
  induction branches with
  | nil => rfl
  | cons branch rest ih =>
      simp only [childrenAlong, branch?_mapCores]
      cases view.branch? branch with
      | none => rfl
      | some child => exact congrArg (child.mapCores f :: ·) ih

theorem children_mapCores (view : View K) (f : ViewCore K → ViewCore K) (reverse : Bool) :
    (view.mapCores f).children reverse = (view.children reverse).map (mapCores f) := by
  rw [children_eq, children_eq, branches_mapCores, childrenAlong_mapCores]

theorem Regular.mapCores {root : View K} (h : root.Regular)
    (hid : ∀ core, (f core).id = core.id) : (root.mapCores f).Regular := by
  constructor
  · intro path path' view view' hview hview' heq
    rw [at?_mapCores, Option.map_eq_some_iff] at hview hview'
    obtain ⟨before, hbefore, rfl⟩ := hview
    obtain ⟨before', hbefore', rfl⟩ := hview'
    refine h.distinct _ _ _ _ hbefore hbefore' ?_
    simpa [View.id, hid] using heq
  · intro path index
    simpa using h.paired path index

end WidgetToolkit.View
