import WidgetToolkit.Proofs.View.Cores

/-! # The views that are shown

The list is told by the views and their children alone, each view comes once in it, and in a regular
tree the same views come in both orders. -/

namespace WidgetToolkit.View

variable {K : Type}

/-! ## The list -/

/-- What comes into the list because of a child: what is shown below it, and then the child. -/
def shownFrom (levels : Nat) (reverse : Bool) (child : View K) : List (View K) :=
  if child.core.visible then child.shownWithin levels reverse ++ [child] else []

theorem shownWithin_succ (view : View K) (levels : Nat) (reverse : Bool) :
    view.shownWithin (levels + 1) reverse =
      (view.children reverse).flatMap (shownFrom levels reverse) := rfl

theorem mem_shownFrom {child below : View K} {levels : Nat} {reverse : Bool} :
    below ∈ child.shownFrom levels reverse ↔
      child.core.visible ∧ (below ∈ child.shownWithin levels reverse ∨ below = child) := by
  rw [shownFrom]
  split <;> simp_all

theorem shownWithin_of_leaf {view : View K} (h : view.isContainer = false) (levels : Nat)
    (reverse : Bool) : view.shownWithin levels reverse = [] := by
  cases levels with
  | zero => rfl
  | succ levels => rw [shownWithin_succ, children_of_leaf h, List.flatMap_nil]

theorem shownFrom_congr {child : View K} {levels levels' : Nat} {reverse : Bool}
    (h : child.isContainer →
      child.shownWithin levels reverse = child.shownWithin levels' reverse) :
    child.shownFrom levels reverse = child.shownFrom levels' reverse := by
  rw [shownFrom, shownFrom]
  cases hcontainer : child.isContainer with
  | false => rw [shownWithin_of_leaf hcontainer, shownWithin_of_leaf hcontainer]
  | true => rw [h hcontainer]

/-- More levels than there are change nothing. -/
theorem shownWithin_eq_of_depth_le {view : View K} {levels levels' : Nat} (reverse : Bool)
    (h : view.depth ≤ levels) (h' : view.depth ≤ levels') :
    view.shownWithin levels reverse = view.shownWithin levels' reverse := by
  induction levels generalizing view levels' with
  | zero => exact absurd view.depth_pos (by omega)
  | succ levels ih =>
      cases levels' with
      | zero => exact absurd view.depth_pos (by omega)
      | succ levels' =>
          rw [shownWithin_succ, shownWithin_succ, List.flatMap, List.flatMap]
          refine congrArg List.flatten (List.map_congr_left fun child hm => ?_)
          obtain ⟨branch, hbranch⟩ := exists_branch?_of_mem_children hm
          refine shownFrom_congr fun hcontainer => ?_
          have hdepth := depth_lt_of_branch? hbranch hcontainer
          exact ih (by omega) (by omega)

/-- The views that are shown are the visible children, each after those that are shown below it. -/
theorem shown_eq (view : View K) (reverse : Bool) :
    view.shown reverse = (view.children reverse).flatMap fun child =>
      if child.core.visible then child.shown reverse ++ [child] else [] := by
  have hlevels : view.shown reverse = view.shownWithin (view.depth + 1) reverse :=
    shownWithin_eq_of_depth_le reverse (Nat.le_refl _) (Nat.le_succ _)
  rw [hlevels, shownWithin_succ, List.flatMap, List.flatMap]
  refine congrArg List.flatten (List.map_congr_left fun child hm => ?_)
  obtain ⟨branch, hbranch⟩ := exists_branch?_of_mem_children hm
  refine shownFrom_congr fun hcontainer => ?_
  have hdepth := depth_lt_of_branch? hbranch hcontainer
  exact shownWithin_eq_of_depth_le reverse (Nat.le_of_lt hdepth) (Nat.le_refl _)

/-- What is shown is below the view. -/
theorem at?_of_mem_shownWithin {view below : View K} {levels : Nat} {reverse : Bool}
    (h : below ∈ view.shownWithin levels reverse) :
    ∃ branch path, view.at? (branch :: path) = some below := by
  induction levels generalizing view with
  | zero => cases h
  | succ levels ih =>
      obtain ⟨child, hchild, hbelow⟩ := List.mem_flatMap.mp h
      obtain ⟨branch, hbranch⟩ := exists_branch?_of_mem_children hchild
      obtain ⟨-, hbelow | rfl⟩ := mem_shownFrom.mp hbelow
      · obtain ⟨branch', path, hat⟩ := ih hbelow
        exact ⟨branch, branch' :: path, by rwa [at?_cons_of_branch? hbranch]⟩
      · exact ⟨branch, [], by rw [at?_cons_of_branch? hbranch]; rfl⟩

theorem at?_of_mem_shownFrom {child below : View K} {levels : Nat} {reverse : Bool}
    (h : below ∈ child.shownFrom levels reverse) : ∃ path, child.at? path = some below := by
  obtain ⟨-, hbelow | rfl⟩ := mem_shownFrom.mp h
  · obtain ⟨branch, path, hat⟩ := at?_of_mem_shownWithin hbelow
    exact ⟨branch :: path, hat⟩
  · exact ⟨[], rfl⟩

/-- The order changes nothing about what is shown in a regular tree. -/
theorem Regular.mem_shownWithin_true_iff {view below : View K} (h : view.Regular) {levels : Nat} :
    below ∈ view.shownWithin levels true ↔ below ∈ view.shownWithin levels false := by
  induction levels generalizing view with
  | zero => rfl
  | succ levels ih =>
      simp only [shownWithin_succ, List.mem_flatMap, h.mem_children_true_iff, mem_shownFrom]
      refine exists_congr fun child => and_congr_right fun hchild => ?_
      obtain ⟨branch, hbranch⟩ := exists_branch?_of_mem_children hchild
      rw [ih (h.branch hbranch)]

theorem shownWithin_mapCores (view : View K) {f : ViewCore K → ViewCore K}
    (hvisible : ∀ core, (f core).visible = core.visible) (levels : Nat) (reverse : Bool) :
    (view.mapCores f).shownWithin levels reverse =
      (view.shownWithin levels reverse).map (mapCores f) := by
  induction levels generalizing view with
  | zero => rfl
  | succ levels ih =>
      rw [shownWithin_succ, shownWithin_succ, children_mapCores, List.flatMap_map, List.map_flatMap]
      refine congrArg (List.flatMap · _) (funext fun child => ?_)
      rw [shownFrom, shownFrom, core_mapCores, hvisible, ih]
      split <;> simp

/-! ## Every view once -/

theorem pairwise_childrenAlong (view : View K) {branches : List Branch} (h : branches.Nodup) :
    (view.childrenAlong branches).Pairwise fun child other =>
      ∃ branch branch', branch ≠ branch' ∧ view.branch? branch = some child ∧
        view.branch? branch' = some other := by
  induction branches with
  | nil => exact .nil
  | cons branch rest ih =>
      obtain ⟨hne, hrest⟩ := List.nodup_cons.mp h
      rw [childrenAlong]
      cases hchild : view.branch? branch with
      | none => exact .nil
      | some child =>
          refine .cons (fun other hm => ?_) (ih hrest)
          obtain ⟨branch', hm, hother⟩ := mem_childrenAlong hm
          exact ⟨branch, branch', fun heq => hne (heq ▸ hm), hchild, hother⟩

/-- What is on two branches of a regular tree is told apart by its identity. -/
theorem Regular.id_ne_of_branch_ne {root view view' : View K} (h : root.Regular)
    {branch branch' : Branch} {path path' : List Branch} (hne : branch ≠ branch')
    (hview : root.at? (branch :: path) = some view)
    (hview' : root.at? (branch' :: path') = some view') : view.id ≠ view'.id := fun hid =>
  hne (List.cons.inj (h.distinct _ _ _ _ hview hview' hid)).1

theorem Regular.nodup_shownWithin {view : View K} (h : view.Regular) (levels : Nat)
    (reverse : Bool) : ((view.shownWithin levels reverse).map (·.id)).Nodup := by
  induction levels generalizing view with
  | zero => exact .nil
  | succ levels ih =>
      rw [shownWithin_succ, List.map_flatMap, children_eq, List.nodup_flatMap]
      constructor
      · intro child hm
        obtain ⟨branch, -, hbranch⟩ := mem_childrenAlong hm
        have hchild := h.branch hbranch
        rw [shownFrom]
        split
        · rw [List.map_append, List.map_singleton, ← List.concat_eq_append, List.nodup_concat]
          refine ⟨fun hid => ?_, ih hchild⟩
          obtain ⟨below, hbelow, hid⟩ := List.mem_map.mp hid
          obtain ⟨branch', path, hat⟩ := at?_of_mem_shownWithin hbelow
          exact hchild.id_ne hat hid
        · exact .nil
      · refine (pairwise_childrenAlong view (nodup_branches view reverse)).imp ?_
        rintro child other ⟨branch, branch', hne, hchild, hother⟩
        refine List.disjoint_left.mpr fun id hid hid' => ?_
        obtain ⟨below, hbelow, rfl⟩ := List.mem_map.mp hid
        obtain ⟨below', hbelow', hid⟩ := List.mem_map.mp hid'
        obtain ⟨path, hat⟩ := at?_of_mem_shownFrom hbelow
        obtain ⟨path', hat'⟩ := at?_of_mem_shownFrom hbelow'
        rw [← at?_cons_of_branch? hchild] at hat
        rw [← at?_cons_of_branch? hother] at hat'
        exact h.id_ne_of_branch_ne hne hat hat' hid.symm

end WidgetToolkit.View
