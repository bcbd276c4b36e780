import WidgetToolkit.Proofs.View.Faces

/-! # What becomes of a tab itself

A step somewhere in the tree of a tab, seen from the tab: what becomes of its own strip, and which
views are its pages, whatever becomes of the views below. -/

namespace WidgetToolkit

variable {K : Type} [Coord K]

/-! ## The strip -/

namespace TabStrip.Kept

variable {touched : TabItem K → TabItem K → Prop} {good : TabStrip K → Prop}
  (hgood : Kept touched good) {tab tab' : Tab K}

include hgood

theorem own_layoutBy (place : Placement K → View K → Told (Notice K) (View K))
    (h : good tab.strip) : good (tab.layoutBy place).value.strip := by
  rw [Tab.layoutBy_strip]
  exact hgood.layout h

theorem own_placeBy (place : Placement K → View K → Told (Notice K) (View K))
    (h : good tab.strip) (placement : Placement K) :
    good (tab.placeBy place placement).value.strip := by
  rw [Tab.placeBy_strip]
  cases placement with
  | allocate rect => exact hgood.layout (hgood.withCore (ViewCore.allocate_id _ _) h)
  | layout => exact hgood.layout h
  | rescale scale => exact hgood.layout (hgood.setScale scale h)

theorem own_moveSelection (h : good tab.strip) (index : Nat) :
    good (tab.moveSelection index).strip := by
  have hshown : ∀ {strip : TabStrip K}, good strip →
      good { strip.modifyItem index (·.setSelected true) with selected := some index } :=
    fun h => hgood.withSelected _ (hgood.setSelected index true h)
  simp only [Tab.moveSelection]
  split
  · split
    · exact hshown h
    · exact hshown (hgood.setSelected _ false h)
  · exact hshown h

theorem own_selectItem (h : good tab.strip) (id : ViewId) :
    good (tab.selectItem id).value.2.strip := by
  unfold Tab.selectItem
  split
  · exact h
  · split
    · exact h
    · exact hgood.own_layoutBy _ (hgood.own_moveSelection h _)

theorem own_selectItemAt (h : good tab.strip) (index : Nat) :
    good (tab.selectItemAt index).value.2.strip := by
  unfold Tab.selectItemAt
  split
  · exact hgood.own_selectItem h _
  · exact h

theorem own_addPage (h : good tab.strip) (title : String) (page : View K) :
    good (tab.addPage title page).value.strip := by
  have hlonger := hgood.pushItem title h
  rw [Tab.addPage_value]
  simp only [Tab.addItem]
  split
  · rw [Told.bind_value]
    split
    · exact hgood.own_selectItemAt hlonger 0
    · exact hgood.own_layoutBy _ (hgood.own_selectItemAt hlonger 0)
  · exact hgood.own_layoutBy _ hlonger

theorem own_passSelection (h : good tab.strip) (index : Nat) :
    good (tab.passSelection index).2.strip := by
  simp only [Tab.passSelection]
  split
  · exact h
  · split
    · split
      · exact hgood.withSelected none h
      · exact hgood.withSelected _ (hgood.setSelected _ true h)
    · split
      · exact hgood.withSelected _ h
      · exact h

theorem own_removeItemAt (h : good tab.strip) (index : Nat) :
    good (tab.removeItemAt index).value.2.strip := by
  unfold Tab.removeItemAt
  split
  · exact h
  · rename_i entry hentry
    have hpassed := hgood.own_passSelection h index
    exact hgood.own_layoutBy _ (hgood.eraseItem_passSelection hentry hpassed)

theorem own_removePage (h : good tab.strip) (index : Nat) :
    good (tab.removePage index).value.2.strip := by
  let fewer : Tab K := { tab with pages := tab.pages.eraseIdx index }
  have hfewer : good fewer.strip := h
  have hremoved := hgood.own_removeItemAt hfewer index
  unfold Tab.removePage
  split
  · exact h
  · simp only [Told.bind_value]
    split <;> exact hremoved

theorem own_clickBy (click : View K → Told (Notice K) (Bool × View K)) (h : good tab.strip)
    (event : PointerEvent K) : good (tab.clickBy click event).value.2.strip := by
  cases haddressed : tab.addressed? event with
  | some index =>
      obtain ⟨entry, -, hvalue, -⟩ := Tab.clickBy_of_addressed? click haddressed
      rw [hvalue]
      exact hgood.own_selectItem h entry.core.id
  | none =>
      rcases Tab.clickBy_of_addressed?_none click haddressed with
        ⟨hvalue, -⟩ | ⟨index, page, -, hvalue, -⟩
      · rw [hvalue]
        exact h
      · rw [hvalue]
        exact h

/-- What everything keeps that a tab does to its strip, a step of the tab keeps. -/
theorem own_step (h : good tab.strip) (step : ViewStep K) :
    ∃ tab' : Tab K, (tab.toView.step step).value.2 = tab'.toView ∧ good tab'.strip := by
  have hcore : ∀ core : ViewCore K, core.id = tab.strip.core.id →
      good { tab.strip with core := core } := fun core hid => hgood.withCore hid h
  cases step with
  | core change => exact ⟨⟨_, _, _⟩, rfl, hcore _ (tab.strip.core.step_id change)⟩
  | place placement => exact ⟨_, rfl, hgood.own_placeBy _ h placement⟩
  | setFont font =>
      let dressed : Tab K := { tab with strip := tab.strip.setFont font }
      have hdressed : good dressed.strip := hgood.setFont font h
      exact ⟨_, rfl, hgood.own_layoutBy View.place hdressed⟩
  | setColor color => exact ⟨⟨_, _, _⟩, rfl, hgood.setColor color h⟩
  | setVisible visible => exact ⟨⟨_, _, _⟩, rfl, hcore _ (tab.strip.core.setVisible_id visible)⟩
  | enter | draw => exact ⟨tab, rfl, h⟩
  | leave => exact ⟨⟨_, _, _⟩, rfl, hgood.untrack h⟩
  | move event =>
      exact ⟨_, View.moveWithin_tab (View.depths tab.pages) event tab, hgood.track event.position h⟩
  | click event => exact ⟨_, rfl, hgood.own_clickBy _ h event⟩
  | addPage title page => exact ⟨_, rfl, hgood.own_addPage h title page⟩
  | removePage index => exact ⟨_, rfl, hgood.own_removePage h index⟩
  | selectPage index =>
      refine ⟨_, rfl, ?_⟩
      rw [Tab.selectPage_value]
      exact hgood.own_selectItemAt h index
  | askHeight | askMinimumSize => exact ⟨⟨_, _, _⟩, rfl, hgood.rememberHeight h⟩

/-- A step somewhere in the tree of a tab keeps it, too, if the items that take the step themselves
change as the relation tells. -/
theorem own_stepAt (htouched : ∀ entry entry' step,
      ((View.item entry).step step).value.2 = .item entry' → touched entry entry')
    (h : good tab.strip) {path : List Branch} {step : ViewStep K}
    (hstep : (tab.toView.stepAt path step).value.2 = tab'.toView) : good tab'.strip := by
  rcases Tab.stepAt_cases hstep with
    ⟨-, hown⟩ | ⟨index, entry, entry', -, hentry, hentry', hstrip⟩ | ⟨-, hstrip⟩
  · obtain ⟨after, hafter, hkept⟩ := hgood.own_step h step
    rw [Tab.toView_inj (hown.symm.trans hafter)]
    exact hkept
  · rw [hstrip]
    exact hgood.touch hentry (htouched entry entry' step hentry') h
  · rw [hstrip]
    exact h

end TabStrip.Kept

/-! ## Identities -/

theorem TabStrip.kept_id (id : ViewId) :
    TabStrip.Kept (fun entry entry' => entry'.core.id = entry.core.id)
      fun strip : TabStrip K => strip.core.id = id :=
  kept_of_ids (fun h _ hid _ => hid.trans h) (fun _ h => h) fun _ _ h => h

namespace View

/-- No step changes which view it is that takes it. -/
theorem step_id (view : View K) (step : ViewStep K) : (view.step step).value.2.id = view.id := by
  cases htab : view.tab? with
  | some tab =>
      obtain rfl := eq_toView_of_tab? htab
      obtain ⟨tab', hvalue, hid⟩ := (TabStrip.kept_id tab.strip.core.id).own_step rfl step
      rw [hvalue]
      exact hid
  | none =>
      cases step with
      | core change => exact (view.follows_core change).id_eq
      | place placement => exact (view.follows_place placement).value.id_eq
      | setFont font => exact (view.follows_setFont font).id_eq
      | setColor color => exact (view.follows_setColor color).id_eq
      | setVisible visible => exact (view.follows_mapCore fun core => core.setVisible_id visible).id_eq
      | enter event => exact (view.follows_enter event).id_eq
      | leave event => exact (view.follows_leave event).id_eq
      | move event => exact (view.follows_moveWithin view.depth event).value.id_eq
      | click event => exact (view.answers_clickWithin view.depth event).follows.id_eq
      | draw region => rfl
      | addPage | removePage | selectPage | askHeight | askMinimumSize =>
          simp only [View.step, htab]
          rfl

/-- Nor does a step of a view below. -/
theorem id_replaceAt_step {root view : View K} {path : List Branch} (hat : root.at? path = some view)
    (step : ViewStep K) : (root.replaceAt path (view.step step).value.2).id = root.id := by
  cases path with
  | nil =>
      obtain rfl : root = view := Option.some.inj hat
      rw [replaceAt_nil, step_id]
  | cons branch path => exact congrArg ViewCore.id (core_replaceAt root branch path _)

end View

namespace Tab

variable {tab tab' : Tab K}

/-- The identities of the pages after a step. -/
def pageIdsAfter (tab : Tab K) : ViewStep K → List ViewId
  | .addPage _ page => tab.pages.map View.id ++ [page.id]
  | .removePage index => (tab.pages.map View.id).eraseIdx index
  | _ => tab.pages.map View.id

/-- Pages come and go one at a time, and as they are asked to. -/
theorem pageIds_step (hpaired : tab.Paired) (step : ViewStep K) :
    ∃ tab' : Tab K, (tab.toView.step step).value.2 = tab'.toView ∧
      tab'.pages.map View.id = tab.pageIdsAfter step := by
  by_cases hquiet : step.turns = false
  · have hsame : tab.pageIdsAfter step = tab.pages.map View.id := by
      cases step <;> first | rfl | cases hquiet
    obtain ⟨tab', hvalue, hturns⟩ := (tab.quiet_step hquiet).value
    exact ⟨tab', hvalue, hturns.ids_eq.trans hsame.symm⟩
  · have hselect : ∀ id, (tab.selectItem id).value.2.pages.map View.id = tab.pages.map View.id := by
      intro id
      obtain ⟨selected, -, hselected⟩ := tab.turns_selectItem id
      exact hselected.value.ids_eq
    cases step with
    | addPage title page =>
        obtain ⟨page', hfollows, hturns, -⟩ := addPage_turns hpaired title page
        refine ⟨_, rfl, hturns.ids_eq.trans ?_⟩
        rw [List.map_append, List.map_singleton, hfollows.id_eq]
        rfl
    | removePage index =>
        refine ⟨_, rfl, ?_⟩
        cases hpage : tab.pages[index]? with
        | none =>
            have hlength : (tab.pages.map View.id).length ≤ index := by
              simpa using List.getElem?_eq_none_iff.mp hpage
            rw [pageIdsAfter, List.eraseIdx_of_length_le hlength, removePage, hpage]
            rfl
        | some page =>
            obtain ⟨-, hturns, -⟩ := removePage_turns hpaired hpage
            exact hturns.ids_eq.trans (List.eraseIdx_map ..).symm
    | selectPage index =>
        refine ⟨_, rfl, ?_⟩
        rw [selectPage_value, selectItemAt]
        split
        · exact hselect _
        · rfl
    | click event =>
        let click : View K → Told (Notice K) (Bool × View K) :=
          View.clickWithin (View.depths tab.pages) event
        have hclick : ∀ page : View K, page.Follows (click page).value.2 := fun page =>
          (page.answers_clickWithin _ event).follows
        have hids : (tab.clickBy click event).value.2.pages.map View.id = tab.pages.map View.id := by
          cases haddressed : tab.addressed? event with
          | some index =>
              obtain ⟨entry, -, hvalue, -⟩ := clickBy_of_addressed? click haddressed
              rw [hvalue]
              exact hselect entry.core.id
          | none =>
              rcases clickBy_of_addressed?_none click haddressed with
                ⟨hvalue, -⟩ | ⟨index, page, hpage, hvalue, -⟩
              · rw [hvalue]
              · rw [hvalue]
                have hpages := forall₂_set View.Follows.refl hpage (hclick page)
                exact map_eq_of_forall₂ hpages fun _ _ h => h.id_eq
        exact ⟨_, rfl, hids⟩
    | _ => exact absurd rfl hquiet

/-- Steps below a tab leave it its pages. -/
theorem pageIds_stepAt (hpaired : tab.Paired) {path : List Branch} {step : ViewStep K}
    (h : (tab.toView.stepAt path step).value.2 = tab'.toView) :
    tab'.pages.map View.id = if path = [] then tab.pageIdsAfter step else tab.pages.map View.id := by
  cases path with
  | nil =>
      obtain ⟨after, hafter, hids⟩ := pageIds_step hpaired step
      have hown : (tab.toView.step step).value.2 = tab'.toView := h
      rw [toView_inj (hown.symm.trans hafter), hids, if_pos rfl]
  | cons branch path =>
      rw [if_neg (List.cons_ne_nil _ _)]
      unfold View.stepAt at h
      split at h
      · rw [← toView_inj h]
      · rename_i view hat
        obtain ⟨next, hnext, hat⟩ := View.at?_cons_eq_some_iff.mp hat
        cases branch with
        | item index =>
            obtain ⟨entry, -, rfl⟩ := Option.map_eq_some_iff.mp hnext
            obtain ⟨rfl, rfl⟩ := View.at?_item hat
            obtain ⟨entry', hentry'⟩ := View.step_item entry step
            have hreplaced : tab.toView.replaceAt [.item index] (.item entry') = tab'.toView := by
              rw [← hentry']
              exact h
            rw [← (View.tab.inj hreplaced).2.1]
        | child index =>
            have hpages : tab.pages.modify index (·.replaceAt path (view.step step).value.2) =
                tab'.pages :=
              (View.tab.inj h).2.1
            have hsame : List.Forall₂ (fun page page' : View K => page'.id = page.id) tab.pages
                (tab.pages.modify index (·.replaceAt path (view.step step).value.2)) := by
              apply forall₂_modify
              · exact fun _ => rfl
              · intro page hpage
                obtain rfl : page = next := Option.some.inj (hpage.symm.trans hnext)
                exact View.id_replaceAt_step hat step
            rw [← hpages]
            exact map_eq_of_forall₂ hsame fun _ _ h => h

end Tab

end WidgetToolkit
