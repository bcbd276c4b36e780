import WidgetToolkit.Proofs.Focus.Shown

/-! # A search goes through the views that are shown

In a regular tree a search does what it would do on the list of the views that are shown, and sets and
clears the flags that it would set and clear there. -/

namespace WidgetToolkit

variable {K : Type}

namespace Search

/-! ## Lists -/

/-- The outcome on a list of views that have been gone through, with the flags that are set. -/
def scan : Search → List (ViewCore K) → Outcome (List (ViewId × Bool))
  | search, [] => ⟨false, search, []⟩
  | search, core :: rest =>
    if search.focused = some core.id then
      let outcome := scan { search with ready := true } rest
      { outcome with visited := (core.id, false) :: outcome.visited }
    else if search.ready && core.focusable then
      ⟨true, { search with focused := some core.id }, [(core.id, true)]⟩
    else scan search rest

/-- What is set is set on one of the views. -/
theorem mem_scan_visited {search : Search} {cores : List (ViewCore K)} {flag : ViewId × Bool}
    (h : flag ∈ (search.scan cores).visited) : ∃ core ∈ cores, core.id = flag.1 := by
  induction cores generalizing search with
  | nil => cases h
  | cons core rest ih =>
      rw [scan] at h
      split at h
      · rcases List.mem_cons.mp h with rfl | h
        · exact ⟨core, List.mem_cons_self, rfl⟩
        · obtain ⟨other, hm, hid⟩ := ih h
          exact ⟨other, List.mem_cons_of_mem _ hm, hid⟩
      · split at h
        · cases List.mem_singleton.mp h
          exact ⟨core, List.mem_cons_self, rfl⟩
        · obtain ⟨other, hm, hid⟩ := ih h
          exact ⟨other, List.mem_cons_of_mem _ hm, hid⟩

/-- A search that has found nothing in the first views goes on with the others. -/
theorem scan_append (search : Search) (front back : List (ViewCore K)) :
    search.scan (front ++ back) =
      let first := search.scan front
      if first.found then first
      else
        let second := first.search.scan back
        { second with visited := first.visited ++ second.visited } := by
  induction front generalizing search with
  | nil => rfl
  | cons core rest ih =>
      simp only [List.cons_append, scan]
      split
      · rw [ih]
        cases hfound : (scan { search with ready := true } rest).found <;> simp [hfound]
      · split
        · rfl
        · exact ih search

end Search

variable [Coord K]

/-! ## Flags -/

/-- Sets and clears focus flags, one after the other, each for one identity. -/
def ViewCore.setFlags (flags : List (ViewId × Bool)) (core : ViewCore K) : ViewCore K :=
  flags.foldl (fun core flag => if core.id = flag.1 then (core.setFocused flag.2).2 else core) core

namespace ViewCore

variable {flags : List (ViewId × Bool)}

theorem setFlags_append (flags further : List (ViewId × Bool)) :
    setFlags (K := K) (flags ++ further) = setFlags further ∘ setFlags flags := by
  funext core
  exact List.foldl_append

/-- What is not about the focus stays as it is. -/
theorem read_setFlags {α : Type} (read : ViewCore K → α)
    (hread : ∀ core focused, read (core.setFocused focused).2 = read core)
    (flags : List (ViewId × Bool)) (core : ViewCore K) :
    read (core.setFlags flags) = read core := by
  induction flags generalizing core with
  | nil => rfl
  | cons flag rest ih =>
      rw [setFlags, List.foldl_cons]
      refine (ih _).trans ?_
      split
      · exact hread core flag.2
      · rfl

@[simp] theorem setFlags_id (flags : List (ViewId × Bool)) (core : ViewCore K) :
    (core.setFlags flags).id = core.id :=
  read_setFlags ViewCore.id setFocused_id flags core

@[simp] theorem setFlags_visible (flags : List (ViewId × Bool)) (core : ViewCore K) :
    (core.setFlags flags).visible = core.visible :=
  read_setFlags ViewCore.visible setFocused_visible flags core

@[simp] theorem setFlags_focusable (flags : List (ViewId × Bool)) (core : ViewCore K) :
    (core.setFlags flags).focusable = core.focusable :=
  read_setFlags ViewCore.focusable setFocused_focusable flags core

theorem setFlags_eq_self {core : ViewCore K} (h : ∀ flag ∈ flags, flag.1 ≠ core.id) :
    core.setFlags flags = core := by
  induction flags with
  | nil => rfl
  | cons flag rest ih =>
      obtain ⟨hflag, hrest⟩ := List.forall_mem_cons.mp h
      rw [setFlags, List.foldl_cons, if_neg (Ne.symm hflag)]
      exact ih hrest

end ViewCore

namespace Search

theorem meet_eq (search : Search) (core : ViewCore K) :
    search.meet core =
      let outcome := search.scan [core]
      ⟨outcome.found, outcome.search, core.setFlags outcome.visited⟩ := by
  simp only [meet, scan]
  split
  · simp [ViewCore.setFlags]
  · split <;> simp [ViewCore.setFlags]

/-! ## Trees -/

/-- A search of a view does to it what a search of a list of views would do to them. -/
def Through (visit : Search → View K → Outcome (View K)) (views : List (View K)) (view : View K) :
    Prop :=
  ∀ search : Search,
    let outcome := search.scan (views.map (·.core))
    visit search view =
      ⟨outcome.found, outcome.search, view.mapCores (ViewCore.setFlags outcome.visited)⟩

theorem through_nil (view : View K) : Through (fun search view => ⟨false, search, view⟩) [] view :=
  fun search => congrArg (Outcome.mk false search) (View.mapCores_eq_self fun _ _ _ => rfl).symm

/-- Flags of views that are all below a view leave the view itself alone. -/
theorem setFlags_scan_core (views : List (View K)) {view : View K} {search : Search}
    (h : ∀ below ∈ views, below.id ≠ view.id) :
    view.core.setFlags (search.scan (views.map (·.core))).visited = view.core := by
  refine ViewCore.setFlags_eq_self fun flag hflag hid => ?_
  obtain ⟨core, hcore, hcoreid⟩ := mem_scan_visited hflag
  obtain ⟨below, hm, rfl⟩ := List.mem_map.mp hcore
  exact h below hm (hcoreid.trans hid)

/-- A search of a child goes through those that are shown below it, and then the child. -/
theorem through_visitBy {below : Search → View K → Outcome (View K)} {levels : Nat} {reverse : Bool}
    {child : View K} (hchild : child.Regular)
    (hbelow : Through below (child.shownWithin levels reverse) child) :
    Through (visitBy below) (child.shownFrom levels reverse) child := by
  intro search
  rw [View.shownFrom]
  by_cases hvisible : child.core.visible
  · set first := search.scan ((child.shownWithin levels reverse).map (·.core)) with hfirst
    have hself : child.core.setFlags first.visited = child.core :=
      setFlags_scan_core _ fun view hm => by
        obtain ⟨branch, path, hat⟩ := View.at?_of_mem_shownWithin hm
        exact hchild.id_ne hat
    simp only [visitBy, hvisible, Bool.not_true, Bool.false_eq_true, if_false, if_true,
      hbelow search, List.map_append, List.map_cons, List.map_nil, scan_append,
      View.core_mapCores, ← hfirst, hself, meet_eq]
    split
    · rfl
    · set second := first.search.scan [child.core]
      -- The child comes after what is below it, and its flag is its own.
      have hbelow : ∀ branch path view,
          (child.mapCores (ViewCore.setFlags first.visited)).at? (branch :: path) = some view →
            view.core.setFlags second.visited = view.core := by
        intro branch path view hat
        have hne := (hchild.mapCores (ViewCore.setFlags_id first.visited)).id_ne hat
        exact setFlags_scan_core [child] (by simpa [View.id] using hne.symm)
      have hmet : (child.mapCores (ViewCore.setFlags first.visited)).mapCore
            (fun _ => child.core.setFlags second.visited) =
          child.mapCores (ViewCore.setFlags (first.visited ++ second.visited)) := by
        calc
          _ = (child.mapCores (ViewCore.setFlags first.visited)).mapCore
                (ViewCore.setFlags second.visited) :=
            View.mapCore_congr (by rw [View.core_mapCores, hself])
          _ = (child.mapCores (ViewCore.setFlags first.visited)).mapCores
                (ViewCore.setFlags second.visited) := (View.mapCores_eq_mapCore hbelow).symm
          _ = _ := by rw [View.mapCores_mapCores, ViewCore.setFlags_append]
      rw [hmet]
  · simp only [visitBy, hvisible]
    exact through_nil child search

/-- Going to children goes through what is shown because of them, one child after the other. -/
theorem through_along {visit : Search → View K → Outcome (View K)} {levels : Nat} {reverse : Bool}
    (hvisit : ∀ child : View K, child.Regular →
      Through visit (child.shownFrom levels reverse) child)
    {view : View K} (hview : view.Regular) {branches : List Branch} (hbranches : branches.Nodup) :
    Through (along visit branches)
      ((view.childrenAlong branches).flatMap (View.shownFrom levels reverse)) view := by
  induction branches generalizing view with
  | nil => exact through_nil view
  | cons branch rest ih =>
      obtain ⟨hne, hrest⟩ := List.nodup_cons.mp hbranches
      intro search
      simp only [along, View.childrenAlong]
      cases hchild : view.branch? branch with
      | none => exact through_nil view search
      | some child =>
          set first := search.scan ((child.shownFrom levels reverse).map (·.core)) with hfirst
          -- What is set is set on the branch. The rest of the view stays as it is.
          have hkept : ∀ path below, path.head? ≠ some branch → view.at? path = some below →
              below.core.setFlags first.visited = below.core := by
            intro path below hpath hat
            refine setFlags_scan_core _ fun shown hm hid => ?_
            obtain ⟨path', hat'⟩ := View.at?_of_mem_shownFrom hm
            rw [← View.at?_cons_of_branch? hchild] at hat'
            rw [← hview.distinct _ _ _ _ hat' hat hid] at hpath
            exact hpath rfl
          have hreplace : view.replaceAt [branch]
                (child.mapCores (ViewCore.setFlags first.visited)) =
              view.mapCores (ViewCore.setFlags first.visited) :=
            View.replaceAt_mapCores hchild (hkept [] view (Option.some_ne_none _).symm rfl)
              fun other path below hother => hkept (other :: path) below (by simpa using hother)
          have hsame : (view.mapCores (ViewCore.setFlags first.visited)).childrenAlong rest =
              view.childrenAlong rest := by
            rw [View.childrenAlong_mapCores]
            refine (List.map_congr_left fun beside hm => ?_).trans (List.map_id _)
            obtain ⟨other, hother, hbeside⟩ := View.mem_childrenAlong hm
            refine View.mapCores_eq_self fun path below hat => ?_
            refine hkept (other :: path) below ?_ (by rwa [View.at?_cons_of_branch? hbeside])
            exact fun heq => hne (Option.some.inj heq ▸ hother)
          have hnext := ih (hview.mapCores (ViewCore.setFlags_id first.visited)) hrest first.search
          rw [hsame] at hnext
          simp only [hvisit child (hview.branch hchild) search, ← hfirst, hreplace,
            List.flatMap_cons, List.map_append, scan_append, hnext]
          split
          · rw [‹first.found = true›]
          · rw [View.mapCores_mapCores, ← ViewCore.setFlags_append]

end Search

/-- A search of the views below a view goes through those that are shown. -/
theorem View.Regular.through_searchWithin {view : View K} (h : view.Regular) (levels : Nat)
    (reverse : Bool) :
    Search.Through (searchWithin levels reverse) (view.shownWithin levels reverse) view := by
  induction levels generalizing view with
  | zero => exact Search.through_nil view
  | succ levels ih =>
      rw [shownWithin_succ, children_eq]
      exact Search.through_along (fun child hchild => Search.through_visitBy hchild (ih hchild)) h
        (nodup_branches view reverse)

end WidgetToolkit
