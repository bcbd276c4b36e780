import WidgetToolkit.Proofs.View.Upkeep

/-! # Proper histories

In a proper history the pages and items of a tab are placed, dressed and shown by the tab alone. Every
tree that is reached in this way is tidy. -/

namespace WidgetToolkit

variable {K : Type}

/-- A step that leaves a view where it is, with the scale factor and, if it is an item, with the looks
that it has. -/
def ViewStep.Leaves (view : View K) : ViewStep K → Prop
  | .place .layout => True
  | .place _ => False
  | .setFont _ | .setColor _ => ∀ entry, view ≠ .item entry
  | _ => True

/-- Below a tab, views take only steps that leave them where they are, and pages are shown and hidden
by their tabs only. The common part of a view is not changed in its looks or its place directly. -/
structure View.Proper (root : View K) (path : List Branch) (step : ViewStep K) : Prop where
  respects : root.Respects path step
  keepsLook : ∀ change, step = .core change → change.keepsLook
  leaves : ∀ view, root.at? path = some view → root.IsBelowTab path → step.Leaves view

/-- At the root nothing is placed, dressed or shown by a tab above. -/
theorem View.proper_nil (root : View K) {step : ViewStep K}
    (h : ∀ change, step = .core change → change.keepsLook) : root.Proper [] step := by
  refine ⟨fun _ hpage => ?_, h, fun _ _ hbelow => ?_⟩
  · obtain ⟨front, index, tab, heq, -⟩ := hpage
    simp at heq
  · obtain ⟨front, branch, tab, heq, -⟩ := hbelow
    simp at heq

variable [Coord K] {same : K → K → Prop}

/-- A page that leaves the tree as the answer to a step is tidy. -/
def ViewAnswer.Tidy (same : K → K → Prop) : ViewAnswer K → Prop
  | .removed (some page) => page.Tidy same
  | _ => True

namespace View

/-! ## One step -/

/-- A view after a step: it is tidy, and where it was unless the step was to move it. -/
structure Kept (same : K → K → Prop) (step : ViewStep K) (view view' : View K) : Prop where
  tidy : view'.Tidy same
  stands : step.Leaves view → view.Stands view'

theorem Tended.kept {view view' : View K} (htended : view.Tended same view') (h : view.Tidy same)
    (step : ViewStep K) : view.Kept same step view' :=
  ⟨(htended h).1, fun _ => (htended h).2⟩

theorem kept_core {view : View K} (h : view.Tidy same) {change : CoreStep K}
    (hchange : change.keepsLook) :
    view.Kept same (.core change) (view.mapCore fun core => (core.step change).2) :=
  ⟨h.mapCore fun core => core.stays_step hchange, fun _ => view.stands_mapCore
    (fun core => core.stays_step hchange) fun entry _ => entry.core.step_parent hchange⟩

theorem kept_setVisible {view : View K} (h : view.Tidy same) (visible : Bool) :
    view.Kept same (.setVisible visible) (view.setVisible visible) :=
  ⟨h.mapCore fun core => core.stays_setVisible visible, fun _ => view.stands_mapCore
    (fun core => core.stays_setVisible visible) fun _ _ => ViewCore.invalidate_parent _⟩

/-- Changing the common part of a view that is no tab puts no tab out of order. -/
theorem tidy_mapCore_of_tab? {view : View K} (h : view.Tidy same) (htab : view.tab? = none)
    (change : ViewCore K → ViewCore K) : (view.mapCore change).Tidy same := by
  cases view with
  | panel | plain | probe => exact everyTab_leaf rfl
  | group => exact everyTab_group.mpr (everyTab_group.mp h)
  | item => exact everyTab_item _
  | tab => cases htab

theorem kept_place (hsame : Coord.IsCongruence same) {view : View K} (h : view.Tidy same)
    (placement : Placement K) :
    view.Kept same (.place placement) (view.place placement).value := by
  refine ⟨tidy_place hsame placement h, fun hleaves => ?_⟩
  cases placement with
  | allocate | rescale => cases hleaves
  | layout =>
      obtain ⟨hrect, hscale⟩ := placed_place hsame .layout view
      refine ⟨hrect, hscale, ?_⟩
      rintro entry rfl
      exact ⟨entry, rfl, .refl entry⟩

theorem kept_setFont (hsame : Coord.IsCongruence same) {view : View K} (h : view.Tidy same)
    (font : Font) : view.Kept same (.setFont font) (view.setFont font).value := by
  cases view with
  | tab strip pages changed =>
      let dressed : Tab K := ⟨strip.setFont font, pages, changed⟩
      have hlook := strip.core.stays_setFont font
      have hdressed : dressed.Dressed same (View.Tidy same) := by
        have hbefore : Tab.Dressed same (View.Tidy same) ⟨strip, pages, changed⟩ := Tidy.dressed h
        refine ⟨hbefore.uniform.setFont font, ?_, hbefore.pages⟩
        exact hlook.scale_eq.symm ▸ hbefore.scales
      have hlaid := hdressed.layout hsame
      refine ⟨hlaid.tidy, fun _ => ⟨?_, ?_, fun _ heq => by cases heq⟩⟩
      · exact hlaid.stands.rect_eq.trans hlook.rect_eq
      · exact hlaid.stands.look.scale_eq.trans hlook.scale_eq
  | item entry => exact ⟨everyTab_item _, fun hleaves => absurd rfl (hleaves entry)⟩
  | panel core | plain core | probe core | group core =>
      have hlook := core.stays_setFont font
      refine ⟨tidy_mapCore_of_tab? h rfl (·.setFont font), fun _ => ?_⟩
      exact ⟨hlook.rect_eq, hlook.scale_eq, fun _ heq => by cases heq⟩

theorem kept_setColor {view : View K} (h : view.Tidy same) (color : Color) :
    view.Kept same (.setColor color) (view.setColor color) := by
  cases view with
  | tab strip pages changed =>
      obtain ⟨htab, hpages⟩ := (@tidy_toView _ _ same ⟨strip, pages, changed⟩).mp h
      have hframe := strip.sameFrame_setColor color
      have htidy : Tab.Tidy same ⟨strip.setColor color, pages, changed⟩ := by
        refine ⟨htab.uniform.setColor color, ?_, htab.arranged.setColor color, ?_⟩
        · exact hframe.scale_eq.symm ▸ htab.scales
        · exact hframe.pageRect_eq.symm ▸ htab.placed
      refine ⟨tidy_toView.mpr ⟨htidy, hpages⟩, fun _ => ?_⟩
      exact ⟨hframe.rect_eq, hframe.scale_eq, fun _ heq => by cases heq⟩
  | item entry => exact ⟨everyTab_item _, fun hleaves => absurd rfl (hleaves entry)⟩
  | panel core | plain core | probe core | group core =>
      have hlook := core.stays_setColor color
      refine ⟨tidy_mapCore_of_tab? h rfl (·.setColor color), fun _ => ?_⟩
      exact ⟨hlook.rect_eq, hlook.scale_eq, fun _ heq => by cases heq⟩

/-! ## The pointer -/

omit [Coord K] in
theorem stands_item {entry entry' : TabItem K} (h : entry.Still entry') :
    (View.item entry).Stands (.item entry') :=
  ⟨h.rect_eq, h.look.scale_eq, fun _ heq => ⟨entry', rfl, View.item.inj heq ▸ h⟩⟩

theorem tended_enter (event : PointerEvent K) (view : View K) :
    view.Tended same (view.enter event).value := by
  cases view with
  | item entry => exact fun _ => ⟨everyTab_item _, stands_item (entry.still_setHovered true)⟩
  | panel | plain | probe | group | tab => exact .refl _

theorem tended_leave (event : PointerEvent K) (view : View K) :
    view.Tended same (view.leave event).value := by
  cases view with
  | item entry => exact fun _ => ⟨everyTab_item _, stands_item (entry.still_setHovered false)⟩
  | tab strip pages changed =>
      intro h
      have hleft : Tab.Tended same ⟨strip, pages, changed⟩ ⟨strip.untrack, pages, changed⟩ :=
        Tab.tended_withStrip h strip.still_untrack
      exact hleft.toView h
  | panel | plain | probe | group => exact .refl _

theorem tended_moveWithin (levels : Nat) (event : PointerEvent K) (view : View K) :
    view.Tended same (moveWithin levels event view).value := by
  induction levels generalizing view with
  | zero => exact .refl view
  | succ levels ih =>
      cases view with
      | tab strip pages changed =>
          let tab : Tab K := ⟨strip, pages, changed⟩
          exact fun h : tab.toView.Tidy same => (Tab.tended_moveBy ih h _).toView h
      | panel | plain | probe | group | item => exact .refl _

theorem tended_clickWithin (hsame : Coord.IsCongruence same) (levels : Nat) (event : PointerEvent K)
    (view : View K) : view.Tended same (clickWithin levels event view).value.2 := by
  induction levels generalizing view with
  | zero => exact .refl view
  | succ levels ih =>
      cases view with
      | tab strip pages changed =>
          let tab : Tab K := ⟨strip, pages, changed⟩
          exact fun h : tab.toView.Tidy same => (Tab.tended_clickBy ih hsame h _).toView h
      | panel core clicked =>
          simp only [clickWithin]
          split
          · exact .refl _
          · split <;> exact .refl _
      | plain | probe | group | item => exact .refl _

/-! ## Any step -/

theorem Tidy.tabStep (hsame : Coord.IsCongruence same) {tab : Tab K} (h : tab.toView.Tidy same)
    (hlength : tab.strip.items.length = tab.pages.length) (step : ViewStep K)
    (hadded : ∀ page, step.added? = some page → page.Tidy same) :
    (tab.step step).value.1.Tidy same ∧ tab.Tended same (tab.step step).value.2 := by
  cases step with
  | addPage title page => exact ⟨trivial, Tab.tended_addPage hsame h title (hadded page rfl)⟩
  | removePage index =>
      obtain ⟨htended, hpage⟩ := Tab.tended_removePage hsame h hlength index
      refine ⟨?_, htended⟩
      change (ViewAnswer.removed (tab.removePage index).value.1).Tidy same
      cases hremoved : (tab.removePage index).value.1 with
      | none => trivial
      | some page => exact hpage page hremoved
  | selectPage index => exact ⟨trivial, Tab.tended_selectPage hsame h index⟩
  | askHeight | askMinimumSize =>
      exact ⟨trivial, Tab.tended_withStrip h tab.strip.still_rememberHeight⟩
  | _ => exact ⟨trivial, Tab.tended_refl h⟩

theorem Tidy.stepTab (hsame : Coord.IsCongruence same) {view : View K} (h : view.Tidy same)
    (hcoherent : view.Coherent) (step : ViewStep K)
    (hadded : ∀ page, step.added? = some page → page.Tidy same) :
    let stepped : Told (Notice K) (ViewAnswer K × View K) :=
      match view.tab? with
      | none => return (.nothing, view)
      | some before => do
        let (answer, after) ← before.step step
        return (answer, after.toView)
    stepped.value.1.Tidy same ∧ view.Tended same stepped.value.2 := by
  cases htab : view.tab? with
  | none => exact ⟨trivial, .refl view⟩
  | some tab =>
      obtain rfl := eq_toView_of_tab? htab
      have hlength := (Tab.coherent_toView.mp hcoherent).selection.length_eq
      have hstep := h.tabStep hsame hlength step hadded
      exact ⟨hstep.1, hstep.2.toView⟩

theorem Tidy.step (hsame : Coord.IsCongruence same) {view : View K} (h : view.Tidy same)
    (hcoherent : view.Coherent) (step : ViewStep K)
    (hkeeps : ∀ change, step = .core change → change.keepsLook)
    (hadded : ∀ page, step.added? = some page → page.Tidy same) :
    (view.step step).value.1.Tidy same ∧ view.Kept same step (view.step step).value.2 := by
  cases step with
  | core change =>
      have heq : (view.mapCore fun _ => (view.core.step change).2) =
          view.mapCore fun core => (core.step change).2 := by cases view <;> rfl
      refine ⟨trivial, ?_⟩
      change view.Kept same (.core change) (view.mapCore fun _ => (view.core.step change).2)
      rw [heq]
      exact kept_core h (hkeeps change rfl)
  | place placement => exact ⟨trivial, kept_place hsame h placement⟩
  | setFont font => exact ⟨trivial, kept_setFont hsame h font⟩
  | setColor color => exact ⟨trivial, kept_setColor h color⟩
  | setVisible visible => exact ⟨trivial, kept_setVisible h visible⟩
  | enter event => exact ⟨trivial, (view.tended_enter event).kept h _⟩
  | leave event => exact ⟨trivial, (view.tended_leave event).kept h _⟩
  | move event => exact ⟨trivial, (view.tended_moveWithin view.depth event).kept h _⟩
  | click event => exact ⟨trivial, (view.tended_clickWithin hsame view.depth event).kept h _⟩
  | draw region => exact ⟨trivial, (Tended.refl view).kept h _⟩
  | addPage | removePage | selectPage | askHeight | askMinimumSize =>
      have hstep := h.stepTab hsame hcoherent _ hadded
      exact ⟨hstep.1, hstep.2.kept h _⟩

/-! ## A step at an address -/

/-- A tab keeps its items and pages where they are, whatever becomes of them otherwise. -/
theorem tidy_replaceAt {root view new : View K} {path : List Branch} (h : root.Tidy same)
    (hat : root.at? path = some view) (hnew : new.Tidy same)
    (hstands : root.IsBelowTab path → view.Stands new) (hitem : view.SameItem new) :
    (root.replaceAt path new).Tidy same := by
  have hentry : ∀ entry, view = .item entry → ∃ entry', new = .item entry' :=
    fun entry heq => (hitem entry heq).imp fun _ h => h.1
  refine EveryTab.replaceAt ?_ (fun _ _ => stands_of_isContainer) h hat hnew hstands hentry
  rintro ⟨strip, pages, changed⟩ ⟨strip', pages', changed'⟩ branch child new htab hchild hstands heq
  cases branch with
  | child index =>
      cases heq
      refine htab.still (.refl strip) (forall₂_modify Stands.refl fun page hpage => ?_)
      rw [Option.some.inj (hpage.symm.trans hchild), replaceAt_nil]
      exact hstands
  | item index =>
      obtain ⟨entry, hentry, rfl⟩ := Option.map_eq_some_iff.mp hchild
      obtain ⟨entry', rfl, hstill⟩ := hstands.item entry rfl
      cases heq
      refine htab.still (strip.still_modifyItem index fun item hitem => ?_)
        (List.forall₂_same.mpr fun page _ => .refl page)
      rwa [Option.some.inj (hitem.symm.trans hentry)]

theorem Tidy.stepAt (hsame : Coord.IsCongruence same) {root : View K} (h : root.Tidy same)
    (hcoherent : root.Coherent) {path : List Branch} {step : ViewStep K}
    (hproper : root.Proper path step)
    (hadded : ∀ page, step.added? = some page → page.Tidy same ∧ page.Coherent) :
    (∀ answer, (root.stepAt path step).value.1 = some answer → answer.Tidy same) ∧
      (root.stepAt path step).value.2.Tidy same := by
  unfold View.stepAt
  split
  · exact ⟨by simp, h⟩
  · rename_i view hat
    have hview : view.Coherent := EveryTab.at? hcoherent hat
    obtain ⟨hanswer, hkept⟩ := Tidy.step hsame (EveryTab.at? h hat) hview step hproper.keepsLook
      fun page hpage => (hadded page hpage).1
    have hstepped := (hview.step step fun page hpage => (hadded page hpage).2).value.2
    refine ⟨fun answer heq => Option.some.inj heq ▸ hanswer, ?_⟩
    exact tidy_replaceAt h hat hkept.tidy
      (fun hbelow => hkept.stands (hproper.leaves view hat hbelow)) hstepped.item

/-! ## Histories -/

theorem Reachable.run {root : View K} (h : root.Reachable Proper) {steps : List (ViewStep K)}
    (hcore : ∀ step ∈ steps, ∀ change, step = .core change → change.keepsLook)
    (hadded : ∀ step ∈ steps, ∀ page, step.added? = some page → page.Reachable Proper) :
    (root.run steps).Reachable Proper :=
  h.run_of_allowed (fun root step hm => root.proper_nil (hcore step hm)) hadded

theorem Reachable.respects {root : View K} (h : root.Reachable Proper) : root.Reachable Respects :=
  h.mono fun _ _ _ hproper => hproper.respects

theorem tidy_new (id : ViewId) (metrics : TextMetrics K) (settings : Settings K) :
    (Tab.new id metrics settings).toView.Tidy same := by
  refine tidy_toView.mpr ⟨⟨TabStrip.uniform_new id metrics settings, ?_, .nil, ?_⟩, ?_⟩
  all_goals simp [Tab.new, Tab.selectedPage?, TabStrip.new]

/-- In a proper history nothing is ever out of place or out of date. -/
theorem Reachable.tidy (hsame : Coord.IsCongruence same) {root : View K}
    (h : root.Reachable Proper) : root.Tidy same := by
  induction h with
  | panel | plain | probe => exact everyTab_leaf rfl
  | item entry => exact everyTab_item entry
  | group core widget hchildren ih => exact everyTab_group.mpr ih
  | tab id metrics settings => exact tidy_new id metrics settings
  | step hroot hproper hadded ih ihadded =>
      refine (ih.stepAt hsame hroot.respects.coherent hproper fun page hpage => ?_).2
      exact ⟨ihadded page hpage, (hadded page hpage).respects.coherent⟩
  | removed hroot hpage ih =>
      refine (ih.stepAt hsame hroot.respects.coherent ?_ ?_).1 _ hpage
      · exact ⟨by simp [Respects, ViewStep.showsOrHides], by simp, fun _ _ _ => trivial⟩
      · simp [ViewStep.added?]

end View

end WidgetToolkit
