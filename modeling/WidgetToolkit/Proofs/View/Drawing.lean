import WidgetToolkit.Proofs.Lists
import WidgetToolkit.Proofs.Paint.Balance
import WidgetToolkit.Proofs.View.Branches
import WidgetToolkit.Proofs.View.Repaint

/-! # What drawing calls are made for

A view is drawn without a trace in the scope of the painter, and calls are made only for views that
are shown. -/

namespace WidgetToolkit

variable {K : Type}

/-! ## Views that are shown -/

namespace View

/-- A view at an address is shown: it is visible, and selected if it is a page, and so is every view
on the way to it. The root itself counts as shown. -/
def ShownAt (root : View K) (path : List Branch) : Prop :=
  ∀ front branch, front ++ [branch] <+: path →
    ∃ above below, root.at? front = some above ∧ above.branch? branch = some below ∧
      below.core.visible = true ∧
      ∀ tab index, above = Tab.toView tab → branch = .child index → tab.strip.selected = some index

theorem shownAt_nil (root : View K) : root.ShownAt [] := by
  intro front branch hprefix
  simp at hprefix

theorem ShownAt.cons {view child : View K} {branch : Branch} {path : List Branch}
    (h : child.ShownAt path) (hchild : view.branch? branch = some child)
    (hvisible : child.core.visible = true)
    (hselected : ∀ tab index, view = Tab.toView tab → branch = .child index →
      tab.strip.selected = some index) : view.ShownAt (branch :: path) := by
  intro front last hprefix
  cases front with
  | nil =>
      obtain ⟨rfl, -⟩ := List.cons_prefix_cons.mp hprefix
      exact ⟨view, child, rfl, hchild, hvisible, hselected⟩
  | cons first front =>
      obtain ⟨rfl, hrest⟩ := List.cons_prefix_cons.mp hprefix
      rw [at?_cons_of_branch? hchild]
      exact h front last hrest

end View

/-! ## Calls with addresses -/

/-- A drawing call, and the address of the view that it is made for. -/
structure ViewCall (K : Type) where
  path : List Branch
  call : PaintCall K

namespace ViewCall

/-- A call that a view makes itself. -/
def own (call : PaintCall K) : ViewCall K := ⟨[], call⟩

/-- The same call, seen from the view above. -/
def below (branch : Branch) (made : ViewCall K) : ViewCall K :=
  { made with path := branch :: made.path }

theorem map_own (calls : List (PaintCall K)) : (calls.map own).map (·.call) = calls := by
  simp [own, Function.comp_def]

theorem shownAt_of_mem_own {view : View K} {calls : List (PaintCall K)} {made : ViewCall K}
    (hm : made ∈ calls.map own) : view.ShownAt made.path := by
  obtain ⟨call, -, rfl⟩ := List.mem_map.mp hm
  exact view.shownAt_nil

end ViewCall

open ViewCall (map_own shownAt_of_mem_own)

variable [Coord K]

/-- The calls for a child on a branch: its own scope, and what is drawn inside. -/
def ViewCore.callsForChild (parent child : ViewCore K) (branch : Branch) (region : Rect K)
    (calls : Rect K → List (ViewCall K)) : List (ViewCall K) :=
  if !child.visible then []
  else
    let part := parent.regionFor child region
    if part.isEmpty then []
    else
      let enter : List (PaintCall K) :=
        [.save, .translate (child.rect.origin - parent.rect.origin), .clip child.localBounds]
      (enter.map ViewCall.own ++ calls part ++ [ViewCall.own .restore]).map (.below branch)

/-- The calls for a tab: for its panel, its items, and its selected page. -/
def Tab.callsBy (calls : View K → Rect K → List (ViewCall K)) (tab : Tab K) (region : Rect K) :
    List (ViewCall K) :=
  let core := tab.strip.core
  tab.strip.drawPanel.map .own
    ++ tab.strip.items.zipIdx.flatMap (fun (entry, index) =>
      core.callsForChild entry.core (.item index) region fun _ => entry.draw.map .own)
    ++ tab.strip.selected.toList.flatMap fun index => tab.pages[index]?.toList.flatMap fun page =>
      core.callsForChild page.core (.child index) region (calls page)

namespace View

/-- The calls for a view and for that many levels of views below it, less one. -/
def callsWithin : Nat → View K → Rect K → List (ViewCall K)
  | 0, _, _ => []
  | levels + 1, .tab strip pages changed, region =>
    Tab.callsBy (callsWithin levels) ⟨strip, pages, changed⟩ region
  | levels + 1, .group core _ children, region =>
    children.zipIdx.flatMap fun (child, index) =>
      core.callsForChild child.core (.child index) region (callsWithin levels child)
  | _ + 1, .item entry, _ => entry.draw.map .own
  | _ + 1, view, region => (view.core.drawBackground region).map .own

/-- The calls that draw a view, each with the address of the view that it is made for. -/
def calls (view : View K) (region : Rect K) : List (ViewCall K) :=
  callsWithin view.depth view region

end View

/-! ## They are the calls that draw the view -/

theorem ViewCore.map_callsForChild (parent child : ViewCore K) (branch : Branch) (region : Rect K)
    {calls : Rect K → List (ViewCall K)} {draw : Rect K → List (PaintCall K)}
    (hcalls : ∀ part, (calls part).map (·.call) = draw part) :
    (parent.callsForChild child branch region calls).map (·.call) =
      parent.drawChild child region draw := by
  simp only [callsForChild, drawChild]
  split
  · rfl
  · split
    · rfl
    · simp [ViewCall.below, ViewCall.own, ← hcalls, Function.comp_def]

theorem Tab.map_callsBy {calls : View K → Rect K → List (ViewCall K)}
    {draw : View K → Rect K → List (PaintCall K)}
    (hcalls : ∀ page part, (calls page part).map (·.call) = draw page part) (tab : Tab K)
    (region : Rect K) : (tab.callsBy calls region).map (·.call) = tab.drawBy draw region := by
  simp only [callsBy, drawBy, List.map_append, List.map_flatMap, map_own]
  congr 1
  · congr 1
    exact flatMap_zipIdx fun entry index =>
      tab.strip.core.map_callsForChild _ _ _ fun _ => map_own _
  · have hpage : ∀ (page : View K) (index : Nat),
        (tab.strip.core.callsForChild page.core (.child index) region (calls page)).map (·.call) =
          tab.strip.core.drawChild page.core region (draw page) := fun page index =>
      tab.strip.core.map_callsForChild _ _ _ (hcalls page)
    cases hselected : tab.strip.selected <;> simp [selectedPage?, hselected, hpage]

theorem View.map_callsWithin (levels : Nat) (view : View K) (region : Rect K) :
    (view.callsWithin levels region).map (·.call) = view.drawWithin levels region := by
  induction levels generalizing view region with
  | zero => rfl
  | succ levels ih =>
      cases view with
      | panel | plain | probe | item => exact map_own _
      | group core widget children =>
          simp only [callsWithin, drawWithin, List.map_flatMap]
          exact flatMap_zipIdx fun child index => core.map_callsForChild _ _ _ (ih child)
      | tab strip pages changed => exact Tab.map_callsBy ih ⟨strip, pages, changed⟩ region

/-! ## They are made for views that are shown -/

namespace View

/-- What is drawn of a child is drawn because the child is visible. -/
theorem shownAt_of_mem_callsForChild {parent : ViewCore K} {view child : View K} {branch : Branch}
    {region : Rect K} {calls : Rect K → List (ViewCall K)} {made : ViewCall K}
    (hchild : view.branch? branch = some child)
    (hm : made ∈ parent.callsForChild child.core branch region calls)
    (hcalls : ∀ part, ∀ made ∈ calls part, child.ShownAt made.path)
    (hselected : ∀ tab index, view = Tab.toView tab → branch = .child index →
      tab.strip.selected = some index) : view.ShownAt made.path := by
  simp only [ViewCore.callsForChild] at hm
  split at hm
  · cases hm
  · rename_i hvisible
    split at hm
    · cases hm
    · obtain ⟨inner, hinner, rfl⟩ := List.mem_map.mp hm
      have hshown : child.ShownAt inner.path := by
        rcases List.mem_append.mp hinner with hinner | hinner
        · rcases List.mem_append.mp hinner with hinner | hinner
          · exact shownAt_of_mem_own hinner
          · exact hcalls _ inner hinner
        · rw [List.mem_singleton.mp hinner]
          exact child.shownAt_nil
      exact hshown.cons hchild (by simpa using hvisible) hselected

theorem shownAt_of_mem_callsBy {calls : View K → Rect K → List (ViewCall K)}
    (hcalls : ∀ page part, ∀ made ∈ calls page part, page.ShownAt made.path) {tab : Tab K}
    {region : Rect K} {made : ViewCall K} (hm : made ∈ tab.callsBy calls region) :
    tab.toView.ShownAt made.path := by
  obtain ⟨strip, pages, changed⟩ := tab
  rcases List.mem_append.mp hm with hm | hm
  · rcases List.mem_append.mp hm with hm | hm
    · exact shownAt_of_mem_own hm
    · obtain ⟨⟨entry, index⟩, hentry, hm⟩ := List.mem_flatMap.mp hm
      have hitem : (Tab.toView ⟨strip, pages, changed⟩).branch? (.item index) =
          some (.item entry) := by
        have hget := List.mem_zipIdx_iff_getElem?.mp hentry
        simp [Tab.toView, branch?, hget]
      refine shownAt_of_mem_callsForChild hitem hm ?_ ?_
      · exact fun _ _ hown => shownAt_of_mem_own hown
      · rintro _ _ _ ⟨⟩
  · obtain ⟨index, hindex, hm⟩ := List.mem_flatMap.mp hm
    obtain ⟨page, hpage, hm⟩ := List.mem_flatMap.mp hm
    refine shownAt_of_mem_callsForChild (Option.mem_toList.mp hpage) hm (hcalls page) ?_
    rintro ⟨strip', pages', changed'⟩ _ htab ⟨⟩
    cases htab
    exact Option.mem_toList.mp hindex

theorem shownAt_of_mem_callsWithin {levels : Nat} {view : View K} {region : Rect K}
    {made : ViewCall K} (hm : made ∈ view.callsWithin levels region) : view.ShownAt made.path := by
  induction levels generalizing view region made with
  | zero => cases hm
  | succ levels ih =>
      cases view with
      | panel | plain | probe | item => exact shownAt_of_mem_own hm
      | group core widget children =>
          obtain ⟨⟨child, index⟩, hchild, hm⟩ := List.mem_flatMap.mp hm
          have hget : (group core widget children).branch? (.child index) = some child :=
            List.mem_zipIdx_iff_getElem?.mp hchild
          refine shownAt_of_mem_callsForChild hget hm (fun _ _ => ih) ?_
          intro tab _ htab
          cases htab
      | tab strip pages changed =>
          have htab : made ∈ Tab.callsBy (callsWithin levels) ⟨strip, pages, changed⟩ region := hm
          exact shownAt_of_mem_callsBy (fun _ _ _ => ih) htab

/-- Drawing leaves a painter as it was, with nothing but commands added behind those that it had, and
never restores more than it has saved. Every call is made for the root or for a view that is shown. -/
theorem balanced_draw (view : View K) (region : Rect K) (recorder : Recorder K) :
    (recorder.run (view.draw region)).scope = recorder.scope ∧
      (recorder.run (view.draw region)).saved = recorder.saved ∧
      recorder.commands <+: (recorder.run (view.draw region)).commands ∧
      (∀ moment ∈ recorder.moments (view.draw region),
        recorder.saved <:+ moment.saved ∧ moment.strayRestores = recorder.strayRestores) ∧
      (view.calls region).map (·.call) = view.draw region ∧
      ∀ made ∈ view.calls region, view.ShownAt made.path := by
  have hnested : WellNested (view.draw region) := view.nested_drawWithin view.depth region
  have halike : recorder.Alike (recorder.run (view.draw region)) := hnested.alike recorder
  refine ⟨halike.scope_eq, halike.saved_eq, ?_, ?_, ?_, ?_⟩
  · rw [Recorder.run_commands]
    exact List.prefix_append _ _
  · intro moment hm
    have hretains := hnested.retains hm
    exact ⟨hretains.saved, hretains.strayRestores⟩
  · exact view.map_callsWithin view.depth region
  · exact fun made hm => shownAt_of_mem_callsWithin hm

/-- The panel, both items, and the selected page. -/
example :
    let empty : Tab Rat := .new (.view 0) ⟨fun _ _ => ⟨10, 10⟩⟩ .standard
    let one := (empty.addPage "one" (.panel (.new (.view 1)) .empty)).value
    let both := (one.addPage "two" (.panel (.new (.view 2)) .empty)).value
    let root : View Rat := (both.toView.place (.allocate ⟨0, 0, 100, 100⟩)).value
    ((root.calls root.core.localBounds).map (·.path)).dedup =
      [[], [.item 0], [.item 1], [.child 0]] := by
  decide +kernel

end View

end WidgetToolkit
