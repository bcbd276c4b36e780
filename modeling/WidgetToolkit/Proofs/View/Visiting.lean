import WidgetToolkit.Proofs.View.Branches

/-! # What a visitor is shown

A visitor may change what it is shown, and decides after each view whether it goes on. It is shown the
children as they were at the beginning of the visit, up to the first one after which it has seen
enough. -/

namespace WidgetToolkit

variable {K σ : Type}

namespace View

/-- What a visitor knows once it has been shown some views. -/
def known (visitor : σ → View K → Visited K σ) (state : σ) (views : List (View K)) : σ :=
  views.foldl (fun state view => (visitor state view).state) state

/-- After each of the views the visitor wants to see more. -/
def Insists (visitor : σ → View K → Visited K σ) : σ → List (View K) → Prop
  | _, [] => True
  | state, view :: rest =>
    (visitor state view).more = true ∧ Insists visitor (visitor state view).state rest

/-- Every visitor is shown the first of these views, ending with the one after which it has seen
enough, or else all of them. -/
def Exhibits (view : View K) (reverse : Bool) (views : List (View K)) : Prop :=
  ∀ {σ : Type} (visitor : σ → View K → Visited K σ) (state : σ), ∃ called rest,
    views = called ++ rest ∧ (view.visit visitor reverse state).1 = known visitor state called ∧
      Insists visitor state called.dropLast ∧ (rest ≠ [] → ¬Insists visitor state called)

variable {view view' : View K} {branches : List Branch}

theorem childrenAlong_congr
    (h : ∀ branch ∈ branches, view'.branch? branch = view.branch? branch) :
    view'.childrenAlong branches = view.childrenAlong branches := by
  induction branches with
  | nil => rfl
  | cons branch rest ih =>
      obtain ⟨hbranch, hrest⟩ := List.forall_mem_cons.mp h
      rw [childrenAlong, childrenAlong, hbranch, ih hrest]

/-- The visitor cannot change what comes later: all it can change is the view that it is shown. -/
theorem visitAlong_exhibits (visitor : σ → View K → Visited K σ) (hnodup : branches.Nodup)
    (state : σ) (view : View K) :
    ∃ called rest, view.childrenAlong branches = called ++ rest ∧
      (visitAlong visitor branches state view).1 = known visitor state called ∧
      Insists visitor state called.dropLast ∧ (rest ≠ [] → ¬Insists visitor state called) := by
  induction branches generalizing state view with
  | nil => exact ⟨[], [], rfl, rfl, trivial, fun h => absurd rfl h⟩
  | cons branch rest ih =>
      obtain ⟨hfresh, hnodup⟩ := List.nodup_cons.mp hnodup
      rw [childrenAlong, visitAlong]
      cases hchild : view.branch? branch with
      | none => exact ⟨[], [], rfl, rfl, trivial, fun h => absurd rfl h⟩
      | some child =>
          cases hmore : (visitor state child).more with
          | false =>
              refine ⟨[child], view.childrenAlong rest, rfl, ?_, trivial, fun _ hinsists => ?_⟩
              · simp [hmore, known]
              · exact absurd (hmore.symm.trans hinsists.1) Bool.false_ne_true
          | true =>
              let left := view.replaceAt [branch] (visitor state child).view
              obtain ⟨called, behind, hsplit, hknown, hinsists, hstops⟩ :=
                ih hnodup (visitor state child).state left
              have hlater : left.childrenAlong rest = view.childrenAlong rest := by
                refine childrenAlong_congr fun other hm => branch?_replaceAt_of_ne view ?_ _
                rintro rfl
                exact hfresh hm
              refine ⟨child :: called, behind, ?_, ?_, ?_, fun hbehind h => hstops hbehind h.2⟩
              · rw [← hlater, hsplit]
                rfl
              · simpa [hmore, known] using hknown
              · cases called with
                | nil => trivial
                | cons next called => exact ⟨hmore, hinsists⟩

theorem exhibits_children (view : View K) (reverse : Bool) :
    view.Exhibits reverse (view.children reverse) := by
  intro σ visitor state
  rw [children_eq]
  exact visitAlong_exhibits visitor (view.nodup_branches reverse) state view

end View

end WidgetToolkit
