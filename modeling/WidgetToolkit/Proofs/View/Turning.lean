import WidgetToolkit.Proofs.Tab.Measures
import WidgetToolkit.Proofs.Tab.Turning
import WidgetToolkit.Proofs.View.Reachable
import WidgetToolkit.Proofs.View.Regular

/-! # Tabs stay paired

Whatever is done to a tree, every tab in it has as many items as pages, and one of them is selected if
there are any. -/

namespace WidgetToolkit

variable {K : Type} [Coord K]

theorem ViewCore.step_id (core : ViewCore K) (step : CoreStep K) :
    (core.step step).2.id = core.id := by
  cases step with
  | setFont | setColor | setState | setEnabled | allocate | setVisible | setFocused | invalidate
  | invalidateRect => simp [ViewCore.step, setEnabled]
  | setBackground => simp [ViewCore.step, setBackground]
  | setScale | setFocusable | setParent | contains | takeDamage => rfl

namespace Tab

variable {tab : Tab K}

/-! ## What turns no tab -/

theorem turns_still {strip : TabStrip K} (h : tab.strip.Still strip) :
    tab.Turns tab.strip.selected { tab with strip := strip } :=
  ⟨h.selected_eq, h.items.length_eq.symm, h.look.id_eq, tab.turns_refl.pages⟩

theorem turns_setFont (tab : Tab K) (font : Font) :
    (tab.setFont font).Meets (tab.Turns tab.strip.selected) Notice.Quiet := by
  have hfont : tab.Turns tab.strip.selected { tab with strip := tab.strip.setFont font } :=
    ⟨rfl, by simp [TabStrip.setFont], by simp [TabStrip.setFont], tab.turns_refl.pages⟩
  exact (turns_layout _).mono fun tab' h => hfont.trans h

theorem turns_setColor (tab : Tab K) (color : Color) :
    tab.Turns tab.strip.selected (tab.setColor color) :=
  ⟨rfl, by simp [setColor, TabStrip.setColor], by simp [setColor, TabStrip.setColor],
    tab.turns_refl.pages⟩

theorem turns_moveBy {move : View K → Told (Notice K) (View K)}
    (hmove : ∀ page : View K, (move page).Meets page.Follows Notice.Quiet) (tab : Tab K)
    (p : Point K) : (tab.moveBy move p).Meets (tab.Turns tab.strip.selected) Notice.Quiet := by
  have htracked := turns_still (tab.strip.still_track p)
  simp only [moveBy, forwardMoveBy]
  split
  · exact Told.meets_pure htracked
  · refine (Told.meets_modifyNth (fun page _ => .refl page) (fun page _ => hmove page) _).bind
      fun pages hpages => Told.meets_pure ?_
    exact ⟨htracked.selected_eq, htracked.items_length, htracked.id_eq, hpages⟩

end Tab

namespace View

theorem follows_moveWithin (levels : Nat) (event : PointerEvent K) (view : View K) :
    (moveWithin levels event view).Meets view.Follows Notice.Quiet := by
  induction levels generalizing view with
  | zero => exact Told.meets_pure (.refl view)
  | succ levels ih =>
      cases view with
      | probe core widget consumes =>
          have hquiet : Notice.Quiet (.reached core.id .move event) := rfl
          exact (Told.meets_tell hquiet).bind fun _ _ => Told.meets_pure (.refl _)
      | tab strip pages changed =>
          refine (Tab.turns_moveBy ih ⟨strip, pages, changed⟩ event.position).bind fun tab' h => ?_
          exact Told.meets_pure (h.follows fun h => h.fits)
      | panel | plain | group | item => exact Told.meets_pure (.refl _)

/-! ## Clicks -/

omit [Coord K] in
/-- A tab that observers are told of is one in the tree, as it is afterwards. -/
def Voices (view view' : View K) (told : Tab K) : Prop :=
  ∃ path below, view.at? path = some below ∧ below.id = told.strip.core.id ∧
    view'.at? path = some told.toView

omit [Coord K] in
theorem Voices.cons {view view' child child' : View K} {branch : Branch} {told : Tab K}
    (h : child.Voices child' told) (hchild : view.branch? branch = some child)
    (hchild' : view'.branch? branch = some child') : view.Voices view' told := by
  obtain ⟨path, below, hat, hid, hat'⟩ := h
  refine ⟨branch :: path, below, ?_, hid, ?_⟩
  · rw [at?_cons_of_branch? hchild, hat]
  · rw [at?_cons_of_branch? hchild', hat']

/-- A view after a click, and the tabs whose observers were told. -/
structure Answers (view : View K) (told : Told (Notice K) (Bool × View K)) : Prop where
  follows : view.Follows told.value.2
  voices : ∀ tab ∈ told.announced, view.Voices told.value.2 tab

omit [Coord K] in
theorem answers_pure (view : View K) (taken : Bool) : view.Answers (pure (taken, view)) :=
  ⟨.refl view, fun _ hm => absurd hm List.not_mem_nil⟩

end View

namespace Tab

variable {tab : Tab K} {click : View K → Told (Notice K) (Bool × View K)}
  {event : PointerEvent K}

/-- An item is looked up among those of the tab. -/
theorem turns_selectItem (tab : Tab K) (id : ViewId) :
    ∃ selected, (tab.Paired → Fits tab.pages.length selected) ∧
      (tab.selectItem id).Meets (fun result => tab.Turns selected result.2) Notice.Quiet := by
  cases hindex : tab.strip.indexOf? id with
  | none =>
      refine ⟨tab.strip.selected, fun h => h.fits, ?_⟩
      simp only [selectItem, hindex]
      exact Told.meets_pure tab.turns_refl
  | some index =>
      have hlt := (List.findIdx?_eq_some_iff_getElem.mp hindex).1
      refine ⟨some index, fun h => ?_, (selectItem_of_indexOf? hindex).mono fun _ h => h.1⟩
      exact h.length_eq ▸ hlt

theorem answers_clickBy (hclick : ∀ page : View K, page.Answers (click page)) (tab : Tab K)
    (event : PointerEvent K) :
    tab.toView.Follows (tab.clickBy click event).value.2.toView ∧
      ∀ told ∈ (tab.clickBy click event).announced,
        tab.toView.Voices (tab.clickBy click event).value.2.toView told := by
  cases haddressed : tab.addressed? event with
  | some index =>
      obtain ⟨entry, -, hvalue, hannounced⟩ := clickBy_of_addressed? click haddressed
      obtain ⟨selected, hfits, hselected⟩ := tab.turns_selectItem entry.core.id
      rw [hvalue, hannounced, hselected.announced_eq, List.nil_append]
      refine ⟨hselected.value.follows hfits, fun told hm => ?_⟩
      split at hm
      · obtain rfl := List.mem_singleton.mp hm
        exact ⟨[], tab.toView, rfl, hselected.value.id_eq.symm, rfl⟩
      · cases hm
  | none =>
      rcases clickBy_of_addressed?_none click haddressed with
        ⟨hvalue, hannounced⟩ | ⟨index, page, hpage, hvalue, hannounced⟩
      · rw [hvalue, hannounced]
        exact ⟨.refl _, fun _ hm => absurd hm List.not_mem_nil⟩
      · rw [hvalue, hannounced]
        have hturns : tab.Turns tab.strip.selected
            { tab with pages := tab.pages.set index (click page).value.2 } :=
          ⟨rfl, rfl, rfl, forall₂_set View.Follows.refl hpage (hclick page).follows⟩
        refine ⟨hturns.follows fun h => h.fits, fun told hm => ?_⟩
        have hchild : tab.toView.branch? (.child index) = some page := hpage
        refine ((hclick page).voices told hm).cons hchild ?_
        exact List.getElem?_set_self (List.getElem?_eq_some_iff.mp hpage).1

end Tab

namespace View

theorem answers_clickWithin (levels : Nat) (event : PointerEvent K) (view : View K) :
    view.Answers (clickWithin levels event view) := by
  induction levels generalizing view with
  | zero => exact view.answers_pure false
  | succ levels ih =>
      cases view with
      | tab strip pages changed =>
          have h := Tab.answers_clickBy ih ⟨strip, pages, changed⟩ event
          refine ⟨h.1, fun told hm => h.2 told ?_⟩
          simpa [clickWithin] using hm
      | panel core clicked =>
          simp only [clickWithin]
          split
          · exact answers_pure _ true
          · split
            · exact ⟨.refl _, fun _ hm => absurd hm List.not_mem_nil⟩
            · exact answers_pure _ false
      | probe => exact ⟨.refl _, fun _ hm => absurd hm List.not_mem_nil⟩
      | plain | group | item => exact answers_pure _ _

/-! ## Any step -/

theorem follows_core (view : View K) (change : CoreStep K) :
    view.Follows (view.step (.core change)).value.2 := by
  have hsame : (view.mapCore fun _ => (view.core.step change).2) =
      view.mapCore fun core => (core.step change).2 := by cases view <;> rfl
  change view.Follows (view.mapCore fun _ => (view.core.step change).2)
  rw [hsame]
  exact view.follows_mapCore fun core => core.step_id change

theorem follows_setFont (view : View K) (font : Font) :
    view.Follows (view.setFont font).value := by
  cases view with
  | tab strip pages changed =>
      exact (Tab.turns_setFont ⟨strip, pages, changed⟩ font).value.follows fun h => h.fits
  | item entry =>
      refine ⟨fun _ => everyTab_item _, ?_⟩
      simp [setFont, id, core, TabItem.setFont, TabItem.remeasure]
  | panel | plain | probe | group => exact follows_mapCore _ fun core => core.setFont_id font

theorem follows_setColor (view : View K) (color : Color) : view.Follows (view.setColor color) := by
  cases view with
  | tab strip pages changed =>
      exact (Tab.turns_setColor ⟨strip, pages, changed⟩ color).follows fun h => h.fits
  | panel | plain | probe | group | item =>
      exact follows_mapCore _ fun core => core.setColor_id color

theorem follows_enter (event : PointerEvent K) (view : View K) :
    view.Follows (view.enter event).value := by
  cases view with
  | item entry => exact ⟨fun _ => everyTab_item _, (entry.still_setHovered true).look.id_eq⟩
  | panel | plain | probe | group | tab => exact .refl _

theorem follows_leave (event : PointerEvent K) (view : View K) :
    view.Follows (view.leave event).value := by
  cases view with
  | item entry => exact ⟨fun _ => everyTab_item _, (entry.still_setHovered false).look.id_eq⟩
  | tab strip pages changed =>
      let tab : Tab K := ⟨strip, pages, changed⟩
      exact (tab.turns_still strip.still_untrack).follows fun h => h.fits
  | panel | plain | probe | group => exact .refl _

end View

/-- A step that may change which pages there are, or which one is selected. -/
def ViewStep.turns : ViewStep K → Bool
  | .addPage _ _ | .removePage _ | .selectPage _ | .click _ => true
  | _ => false

/-- Any other step turns no tab, and observers are not told. -/
theorem Tab.quiet_step (tab : Tab K) {step : ViewStep K} (h : step.turns = false) :
    (tab.toView.step step).Meets
      (fun result => ∃ tab' : Tab K, result.2 = tab'.toView ∧ tab.Turns tab.strip.selected tab')
      Notice.Quiet := by
  cases step with
  | addPage | removePage | selectPage | click => cases h
  | core change =>
      have hturns := tab.turns_withCore (tab.strip.core.step_id change)
      exact Told.meets_pure ⟨_, rfl, hturns⟩
  | place placement =>
      have hplace : ∀ levels placement, View.Keeps (fun _ => True) View.Follows Notice.Quiet
          (View.placeWithin levels placement : View K → _) := View.follows_placeWithin
      exact ((tab.turns_placeBy (hplace _) placement).bind fun tab' h =>
        Told.meets_pure ⟨tab', rfl, h⟩).bind fun _ h => Told.meets_pure h
  | setFont font =>
      exact ((tab.turns_setFont font).bind fun tab' h =>
        Told.meets_pure ⟨tab', rfl, h⟩).bind fun _ h => Told.meets_pure h
  | setColor color => exact Told.meets_pure ⟨_, rfl, tab.turns_setColor color⟩
  | setVisible visible =>
      have hturns := tab.turns_withCore (tab.strip.core.setVisible_id visible)
      exact Told.meets_pure ⟨_, rfl, hturns⟩
  | enter event | draw region => exact Told.meets_pure ⟨tab, rfl, tab.turns_refl⟩
  | leave event =>
      have hturns := turns_still tab.strip.still_untrack
      exact Told.meets_pure ⟨_, rfl, hturns⟩
  | move event =>
      have hmove := View.follows_moveWithin (View.depths tab.pages) event
      exact ((tab.turns_moveBy hmove event.position).bind fun tab' h =>
        Told.meets_pure ⟨tab', rfl, h⟩).bind fun _ h => Told.meets_pure h
  | askHeight | askMinimumSize =>
      have hturns := turns_still tab.strip.still_rememberHeight
      exact Told.meets_pure ⟨_, rfl, hturns⟩

omit [Coord K] in
/-- All tabs in a page that is given back are paired. -/
def ViewAnswer.Paired : ViewAnswer K → Prop
  | .removed (some page) => page.Paired
  | _ => True

namespace View

theorem Paired.addPage {tab : Tab K} (h : tab.toView.Paired) (title : String) {page : View K}
    (hpage : page.Paired) : (tab.addPage title page).value.toView.Paired := by
  obtain ⟨htab, hpages⟩ := everyTab_tab.mp h
  obtain ⟨page', hfollows, hturns, -⟩ := Tab.addPage_turns htab title page
  refine hturns.paired_toView ?_ ?_ ?_
  · simp [TabStrip.pushItem, htab.length_eq]
  · cases hselected : tab.strip.selected with
    | none => simp [Fits]
    | some index =>
        have hlt := htab.lt hselected
        simp only [Option.getD_some, Fits, List.length_append, List.length_singleton]
        omega
  · exact List.forall_mem_append.mpr ⟨hpages, List.forall_mem_singleton.mpr (hfollows.paired hpage)⟩

theorem Paired.removePage {tab : Tab K} (h : tab.toView.Paired) (index : Nat) :
    (ViewAnswer.removed (tab.removePage index).value.1).Paired ∧
      (tab.removePage index).value.2.toView.Paired := by
  obtain ⟨htab, hpages⟩ := everyTab_tab.mp h
  cases hpage : tab.pages[index]? with
  | none =>
      simp only [Tab.removePage, hpage]
      exact ⟨trivial, h⟩
  | some page =>
      have hi := (List.getElem?_eq_some_iff.mp hpage).1
      obtain ⟨hanswer, hturns, -⟩ := Tab.removePage_turns htab hpage
      constructor
      · rw [hanswer]
        have hparent := page.follows_mapCore fun core => core.setParent_id none
        exact hparent.paired (hpages page (List.mem_of_getElem? hpage))
      · refine hturns.paired_toView ?_ (htab.fits_successor hi) ?_
        · simp only [List.length_eraseIdx, htab.length_eq]
        · exact fun page hm => hpages page (List.mem_of_mem_eraseIdx hm)

theorem Paired.selectPage {tab : Tab K} (h : tab.toView.Paired) (index : Nat) :
    (tab.selectPage index).value.toView.Paired := by
  rw [Tab.selectPage_value, Tab.selectItemAt]
  split
  · rename_i entry _
    obtain ⟨selected, hfits, hselected⟩ := tab.turns_selectItem entry.core.id
    exact (hselected.value.follows hfits).paired h
  · exact h

theorem Paired.tabStep {tab : Tab K} (h : tab.toView.Paired) (step : ViewStep K)
    (hadded : ∀ page, step.added? = some page → page.Paired) :
    (tab.step step).value.1.Paired ∧ (tab.step step).value.2.toView.Paired := by
  cases step with
  | addPage title page => exact ⟨trivial, h.addPage title (hadded page rfl)⟩
  | removePage index => exact h.removePage index
  | selectPage index => exact ⟨trivial, h.selectPage index⟩
  | askHeight | askMinimumSize =>
      have hturns := tab.turns_still tab.strip.still_rememberHeight
      exact ⟨trivial, (hturns.follows fun h => h.fits).paired h⟩
  | _ => exact ⟨trivial, h⟩

theorem Paired.step {view : View K} (h : view.Paired) (step : ViewStep K)
    (hadded : ∀ page, step.added? = some page → page.Paired) :
    (view.step step).value.1.Paired ∧ (view.step step).value.2.Paired := by
  cases step with
  | core change => exact ⟨trivial, (view.follows_core change).paired h⟩
  | place placement => exact ⟨trivial, (view.follows_place placement).value.paired h⟩
  | setFont font => exact ⟨trivial, (view.follows_setFont font).paired h⟩
  | setColor color => exact ⟨trivial, (view.follows_setColor color).paired h⟩
  | setVisible visible =>
      exact ⟨trivial, (view.follows_mapCore fun core => core.setVisible_id visible).paired h⟩
  | enter event => exact ⟨trivial, (view.follows_enter event).paired h⟩
  | leave event => exact ⟨trivial, (view.follows_leave event).paired h⟩
  | move event => exact ⟨trivial, (view.follows_moveWithin view.depth event).value.paired h⟩
  | click event => exact ⟨trivial, (view.answers_clickWithin view.depth event).follows.paired h⟩
  | draw region => exact ⟨trivial, h⟩
  | addPage | removePage | selectPage | askHeight | askMinimumSize =>
      cases htab : view.tab? with
      | none =>
          simp only [View.step, htab]
          exact ⟨trivial, h⟩
      | some tab =>
          obtain rfl := eq_toView_of_tab? htab
          exact h.tabStep _ hadded

/-- An item stays an item, whatever is done to it. -/
theorem step_item (entry : TabItem K) (step : ViewStep K) :
    ∃ entry', ((View.item entry).step step).value.2 = .item entry' := by
  cases step with
  | place placement => cases placement <;> exact ⟨_, rfl⟩
  | _ => exact ⟨_, rfl⟩

omit [Coord K] in
theorem paired_replaceAt {root view new : View K} {path : List Branch} (h : root.Paired)
    (hat : root.at? path = some view) (hnew : new.Paired)
    (hitem : ∀ entry, view = .item entry → ∃ entry', new = .item entry') :
    (root.replaceAt path new).Paired := by
  refine EveryTab.replaceAt ?_ (fun _ _ _ _ => trivial) h hat hnew (fun _ => trivial) hitem
  rintro ⟨strip, pages, changed⟩ ⟨strip', pages', changed'⟩ branch child new htab hchild - heq
  cases branch with
  | child index =>
      have hlength : (pages.modify index (·.replaceAt [] new)).length = pages.length :=
        List.length_modify _ _ _
      cases heq
      exact ⟨htab.length_eq.trans hlength.symm, hlength.symm ▸ htab.fits⟩
  | item index =>
      cases new with
      | item entry =>
          cases heq
          exact ⟨by simpa [TabStrip.modifyItem] using htab.length_eq, htab.fits⟩
      | _ =>
          cases heq
          exact htab

theorem Paired.stepAt {root : View K} (h : root.Paired) (path : List Branch) {step : ViewStep K}
    (hadded : ∀ page, step.added? = some page → page.Paired) :
    (∀ answer, (root.stepAt path step).value.1 = some answer → answer.Paired) ∧
      (root.stepAt path step).value.2.Paired := by
  unfold View.stepAt
  split
  · exact ⟨by simp, h⟩
  · rename_i view hat
    obtain ⟨hanswer, hview⟩ := Paired.step (EveryTab.at? h hat) step hadded
    refine ⟨fun answer heq => Option.some.inj heq ▸ hanswer, ?_⟩
    exact paired_replaceAt h hat hview fun entry heq => heq ▸ step_item entry step

theorem Reachable.paired {allowed : View K → List Branch → ViewStep K → Prop} {root : View K}
    (h : root.Reachable allowed) : root.Paired := by
  induction h with
  | panel | plain | probe => exact everyTab_leaf rfl
  | item entry => exact everyTab_item entry
  | group core widget _ ih => exact everyTab_group.mpr ih
  | tab id metrics settings => exact everyTab_tab.mpr ⟨⟨rfl, rfl⟩, by simp [Tab.new]⟩
  | step _ _ _ ih ihadded => exact (Paired.stepAt ih _ ihadded).2
  | removed _ hpage ih => exact (Paired.stepAt ih _ (by simp [ViewStep.added?])).1 _ hpage

end View

end WidgetToolkit
