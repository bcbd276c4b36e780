import WidgetToolkit.Proofs.View.Turning

/-! # What holds of the strips of all tabs

A tab does only a few things to its strip. A property that each of them keeps holds of every strip
in every tree that is reached, whatever else is done to the tree. -/

namespace WidgetToolkit

variable {K : Type} [Coord K]

/-- A property of strips that everything keeps that a tab does to its strip, and every change of an
item from outside that is told by a relation. -/
structure TabStrip.Kept (touched : TabItem K → TabItem K → Prop)
    (good : TabStrip K → Prop) : Prop where
  withCore {strip : TabStrip K} {core : ViewCore K} (hid : core.id = strip.core.id)
    (h : good strip) : good { strip with core := core }
  withSelected {strip : TabStrip K} (selected : Option Nat) (h : good strip) :
    good { strip with selected := selected }
  rememberHeight {strip : TabStrip K} (h : good strip) : good strip.rememberHeight
  layout {strip : TabStrip K} (h : good strip) : good strip.layout
  setFont {strip : TabStrip K} (font : Font) (h : good strip) : good (strip.setFont font)
  setColor {strip : TabStrip K} (color : Color) (h : good strip) : good (strip.setColor color)
  setScale {strip : TabStrip K} (scale : K) (h : good strip) : good (strip.setScale scale)
  setSelected {strip : TabStrip K} (index : Nat) (selected : Bool) (h : good strip) :
    good (strip.modifyItem index (·.setSelected selected))
  pushItem {strip : TabStrip K} (title : String) (h : good strip) : good (strip.pushItem title)
  eraseItem {strip : TabStrip K} {index : Nat} {entry : TabItem K}
    (hentry : strip.items[index]? = some entry) (h : good strip) :
    good (strip.eraseItem index entry.core.id)
  track {strip : TabStrip K} (p : Point K) (h : good strip) : good (strip.track p)
  untrack {strip : TabStrip K} (h : good strip) : good strip.untrack
  touch {strip : TabStrip K} {index : Nat} {entry entry' : TabItem K}
    (hentry : strip.items[index]? = some entry) (htouched : touched entry entry') (h : good strip) :
    good (strip.modifyItem index fun _ => entry')

/-- A property that every strip has from the beginning. -/
structure TabStrip.Lasting (touched : TabItem K → TabItem K → Prop)
    (good : TabStrip K → Prop) : Prop extends Kept touched good where
  new (id : ViewId) (metrics : TextMetrics K) (settings : Settings K) :
    good (.new id metrics settings)

namespace View

/-- Every tab in the tree has a strip with a property. -/
def Strips (good : TabStrip K → Prop) (root : View K) : Prop :=
  root.EveryTab fun tab => good tab.strip

/-- An item stays an item, and changes as a relation tells. -/
def Touched (touched : TabItem K → TabItem K → Prop) (view view' : View K) : Prop :=
  ∀ entry, view = .item entry → ∃ entry', view' = .item entry' ∧ touched entry entry'

variable {good : TabStrip K → Prop}

omit [Coord K] in
theorem strips_toView {tab : Tab K} :
    tab.toView.Strips good ↔ good tab.strip ∧ ∀ page ∈ tab.pages, page.Strips good :=
  everyTab_tab

end View

/-- The strips in a page that is given back have the property. -/
def ViewAnswer.Strips (good : TabStrip K → Prop) : ViewAnswer K → Prop
  | .removed (some page) => page.Strips good
  | _ => True

variable {touched : TabItem K → TabItem K → Prop} {good : TabStrip K → Prop}

namespace TabStrip.Kept

variable (hgood : Kept touched good)

include hgood

/-! ## Placement and looks -/

theorem mapCore {view : View K} {change : ViewCore K → ViewCore K}
    (hid : ∀ core, (change core).id = core.id) (h : view.Strips good) :
    (view.mapCore change).Strips good :=
  View.EveryTab.mapCore h change fun _ htab => hgood.withCore (hid _) htab

theorem layoutBy {place : Placement K → View K → Told (Notice K) (View K)}
    (hplace : ∀ placement page, page.Strips good → (place placement page).value.Strips good)
    {tab : Tab K} (h : tab.toView.Strips good) : (tab.layoutBy place).value.toView.Strips good := by
  obtain ⟨hstrip, hpages⟩ := View.strips_toView.mp h
  refine View.strips_toView.mpr ⟨?_, ?_⟩
  · rw [Tab.layoutBy_strip]
    exact hgood.layout hstrip
  · exact Tab.forall_mem_layoutBy_pages hpages fun page hm =>
      hplace _ _ (hplace _ page (hpages page hm))

theorem placeBy {place : Placement K → View K → Told (Notice K) (View K)}
    (hplace : ∀ placement page, page.Strips good → (place placement page).value.Strips good)
    {tab : Tab K} (h : tab.toView.Strips good) (placement : Placement K) :
    (tab.placeBy place placement).value.toView.Strips good := by
  obtain ⟨hstrip, hpages⟩ := View.strips_toView.mp h
  cases placement with
  | allocate rect =>
      refine hgood.layoutBy hplace (View.strips_toView.mpr ⟨?_, hpages⟩)
      exact hgood.withCore (ViewCore.allocate_id _ _) hstrip
  | layout => exact hgood.layoutBy hplace h
  | rescale scale =>
      simp only [Tab.placeBy, Told.bind_value, Told.each_value]
      refine hgood.layoutBy hplace (View.strips_toView.mpr ⟨hgood.setScale scale hstrip, ?_⟩)
      exact List.forall_mem_map.mpr fun page hm => hplace _ page (hpages page hm)

theorem placeWithin (levels : Nat) (placement : Placement K) {view : View K}
    (h : view.Strips good) : (View.placeWithin levels placement view).value.Strips good := by
  induction levels generalizing placement view with
  | zero => exact h
  | succ levels ih =>
      cases htab : view.tab? with
      | none => exact (View.settled_placeWithin htab (levels + 1) placement).value.everyTab h
      | some tab =>
          obtain rfl := View.eq_toView_of_tab? htab
          exact hgood.placeBy (fun placement page hpage => ih placement hpage) h placement

theorem place (placement : Placement K) {view : View K} (h : view.Strips good) :
    (view.place placement).value.Strips good :=
  hgood.placeWithin view.depth placement h

theorem tabLayout {tab : Tab K} (h : tab.toView.Strips good) :
    tab.layout.value.toView.Strips good :=
  hgood.layoutBy (fun placement _ hpage => hgood.place placement hpage) h

theorem viewFont {view : View K} (h : view.Strips good) (font : Font) :
    (view.setFont font).value.Strips good := by
  cases view with
  | tab strip pages changed =>
      obtain ⟨hstrip, hpages⟩ := (@View.strips_toView _ _ ⟨strip, pages, changed⟩).mp h
      exact hgood.tabLayout (View.strips_toView.mpr ⟨hgood.setFont font hstrip, hpages⟩)
  | item entry => exact View.everyTab_item _
  | panel | plain | probe | group => exact hgood.mapCore (·.setFont_id font) h

theorem viewColor {view : View K} (h : view.Strips good) (color : Color) :
    (view.setColor color).Strips good := by
  cases view with
  | tab strip pages changed =>
      obtain ⟨hstrip, hpages⟩ := (@View.strips_toView _ _ ⟨strip, pages, changed⟩).mp h
      have hcolored : (Tab.setColor ⟨strip, pages, changed⟩ color).toView.Strips good :=
        View.strips_toView.mpr ⟨hgood.setColor color hstrip, hpages⟩
      exact hcolored
  | panel | plain | probe | group | item => exact hgood.mapCore (·.setColor_id color) h

/-! ## Pages -/

theorem showAt {tab : Tab K} (h : tab.toView.Strips good) (index : Nat) (shown : Bool) :
    (tab.showAt index shown).toView.Strips good := by
  obtain ⟨hstrip, hpages⟩ := View.strips_toView.mp h
  refine View.strips_toView.mpr ⟨hgood.setSelected index shown hstrip, ?_⟩
  exact forall_mem_modify hpages fun page hpage =>
    hgood.mapCore (·.setVisible_id shown) (hpages page (List.mem_of_getElem? hpage))

theorem selection {tab : Tab K} (h : tab.toView.Strips good) (selected : Option Nat) :
    (Tab.toView { tab with strip := { tab.strip with selected := selected } }).Strips good := by
  obtain ⟨hstrip, hpages⟩ := View.strips_toView.mp h
  exact View.strips_toView.mpr ⟨hgood.withSelected selected hstrip, hpages⟩

theorem moveSelection {tab : Tab K} (h : tab.toView.Strips good) (index : Nat) :
    (tab.moveSelection index).toView.Strips good := by
  simp only [Tab.moveSelection]
  split
  · split
    · exact hgood.selection (hgood.showAt h index true) _
    · exact hgood.selection (hgood.showAt (hgood.showAt h _ false) index true) _
  · exact hgood.selection (hgood.showAt h index true) _

theorem selectItem {tab : Tab K} (h : tab.toView.Strips good) (id : ViewId) :
    (tab.selectItem id).value.2.toView.Strips good := by
  unfold Tab.selectItem
  split
  · exact h
  · split
    · exact h
    · exact hgood.tabLayout (hgood.moveSelection h _)

theorem selectItemAt {tab : Tab K} (h : tab.toView.Strips good) (index : Nat) :
    (tab.selectItemAt index).value.2.toView.Strips good := by
  unfold Tab.selectItemAt
  split
  · exact hgood.selectItem h _
  · exact h

theorem selectPage {tab : Tab K} (h : tab.toView.Strips good) (index : Nat) :
    (tab.selectPage index).value.toView.Strips good := by
  rw [Tab.selectPage_value]
  exact hgood.selectItemAt h index

theorem addItem {tab : Tab K} (h : tab.toView.Strips good) (title : String) :
    (tab.addItem title).value.2.toView.Strips good := by
  obtain ⟨hstrip, hpages⟩ := View.strips_toView.mp h
  have hlonger : (Tab.toView { tab with strip := tab.strip.pushItem title }).Strips good :=
    View.strips_toView.mpr ⟨hgood.pushItem title hstrip, hpages⟩
  simp only [Tab.addItem]
  split
  · rw [Told.bind_value]
    split
    · exact hgood.selectItemAt hlonger 0
    · exact hgood.tabLayout (hgood.selectItemAt hlonger 0)
  · exact hgood.tabLayout hlonger

theorem attach (tab : Tab K) {page : View K} (h : page.Strips good) :
    (tab.attach page).value.Strips good := by
  have hparent : (page.mapCore (·.setParent (some tab.strip.core.id))).Strips good :=
    hgood.mapCore (·.setParent_id _) h
  have hlast : ∀ view : View K, view.Strips good →
      (if tab.pages.isEmpty then view else view.setVisible false).Strips good := by
    intro view hview
    split
    · exact hview
    · exact hgood.mapCore (·.setVisible_id false) hview
  simp only [Tab.attach]
  split
  · exact hlast _ (hgood.place _ hparent)
  · exact hlast _ hparent

theorem addPage {tab : Tab K} (h : tab.toView.Strips good) (title : String) {page : View K}
    (hpage : page.Strips good) : (tab.addPage title page).value.toView.Strips good := by
  obtain ⟨hstrip, hpages⟩ := View.strips_toView.mp h
  let paged : Tab K := { tab with pages := tab.pages ++ [(tab.attach page).value] }
  have hpaged : paged.toView.Strips good := View.strips_toView.mpr ⟨hstrip,
    List.forall_mem_append.mpr ⟨hpages, List.forall_mem_singleton.mpr (hgood.attach tab hpage)⟩⟩
  rw [Tab.addPage_value]
  exact hgood.addItem hpaged title

theorem passSelection {tab : Tab K} (h : tab.toView.Strips good) (index : Nat) :
    (tab.passSelection index).2.toView.Strips good := by
  obtain ⟨hstrip, hpages⟩ := View.strips_toView.mp h
  simp only [Tab.passSelection]
  split
  · exact h
  · split
    · split
      · exact hgood.selection h none
      · refine View.strips_toView.mpr ⟨hgood.withSelected _ (hgood.setSelected _ true hstrip), ?_⟩
        exact forall_mem_modify hpages fun page hpage =>
          hgood.mapCore (·.setVisible_id true) (hpages page (List.mem_of_getElem? hpage))
    · split
      · exact hgood.selection h _
      · exact h

/-- The item may have been selected on the way, and still has its identity. -/
theorem eraseItem_passSelection {tab : Tab K} {index : Nat} {entry : TabItem K}
    (hentry : tab.strip.items[index]? = some entry) (h : good (tab.passSelection index).2.strip) :
    good ((tab.passSelection index).2.strip.eraseItem index entry.core.id) := by
  have hids :=
    Tab.map_items_passSelection (·.core.id) (fun _ _ => ViewCore.setState_id _ _) tab index
  have hid := congrArg (·[index]?) hids
  simp only [List.getElem?_map, hentry, Option.map_some] at hid
  obtain ⟨entry', hentry', hid'⟩ := Option.map_eq_some_iff.mp hid
  rw [← hid']
  exact hgood.eraseItem hentry' h

theorem removeItemAt {tab : Tab K} (h : tab.toView.Strips good) (index : Nat) :
    (tab.removeItemAt index).value.2.toView.Strips good := by
  unfold Tab.removeItemAt
  split
  · exact h
  · rename_i entry hentry
    obtain ⟨hstrip, hpages⟩ := View.strips_toView.mp (hgood.passSelection h index)
    have herased := hgood.eraseItem_passSelection hentry hstrip
    exact hgood.tabLayout (View.strips_toView.mpr ⟨herased, hpages⟩)

theorem removePage {tab : Tab K} (h : tab.toView.Strips good) (index : Nat) :
    (ViewAnswer.removed (tab.removePage index).value.1).Strips good ∧
      (tab.removePage index).value.2.toView.Strips good := by
  obtain ⟨hstrip, hpages⟩ := View.strips_toView.mp h
  unfold Tab.removePage
  split
  · exact ⟨trivial, h⟩
  · rename_i page hpage
    have hfewer : (Tab.toView { tab with pages := tab.pages.eraseIdx index }).Strips good :=
      View.strips_toView.mpr ⟨hstrip, fun page hm => hpages page (List.mem_of_mem_eraseIdx hm)⟩
    have hremoved := hgood.removeItemAt hfewer index
    have hdetached : (page.mapCore (·.setParent none)).Strips good :=
      hgood.mapCore (·.setParent_id none) (hpages page (List.mem_of_getElem? hpage))
    simp only [Told.bind_value]
    split <;> exact ⟨hdetached, hremoved⟩

/-! ## The pointer -/

theorem moveBy {move : View K → Told (Notice K) (View K)}
    (hmove : ∀ page : View K, page.Strips good → (move page).value.Strips good) {tab : Tab K}
    (h : tab.toView.Strips good) (p : Point K) : (tab.moveBy move p).value.toView.Strips good := by
  obtain ⟨hstrip, hpages⟩ := View.strips_toView.mp h
  have htracked := hgood.track p hstrip
  simp only [Tab.moveBy, Tab.forwardMoveBy]
  split
  · exact View.strips_toView.mpr ⟨htracked, hpages⟩
  · rw [Told.bind_value, Told.modifyNth_value]
    refine View.strips_toView.mpr ⟨htracked, ?_⟩
    exact forall_mem_modify hpages fun page hpage =>
      hmove page (hpages page (List.mem_of_getElem? hpage))

theorem moveWithin (levels : Nat) (event : PointerEvent K) {view : View K} (h : view.Strips good) :
    (View.moveWithin levels event view).value.Strips good := by
  induction levels generalizing view with
  | zero => exact h
  | succ levels ih =>
      cases view with
      | tab strip pages changed =>
          let tab : Tab K := ⟨strip, pages, changed⟩
          have htab : tab.toView.Strips good := h
          exact hgood.moveBy (fun _ hpage => ih hpage) htab event.position
      | panel | plain | probe | group | item => exact h

theorem clickBy {click : View K → Told (Notice K) (Bool × View K)}
    (hclick : ∀ page : View K, page.Strips good → (click page).value.2.Strips good) {tab : Tab K}
    (h : tab.toView.Strips good) (event : PointerEvent K) :
    (tab.clickBy click event).value.2.toView.Strips good := by
  obtain ⟨hstrip, hpages⟩ := View.strips_toView.mp h
  cases haddressed : tab.addressed? event with
  | some index =>
      obtain ⟨entry, -, hvalue, -⟩ := Tab.clickBy_of_addressed? click haddressed
      rw [hvalue]
      exact hgood.selectItem h _
  | none =>
      rcases Tab.clickBy_of_addressed?_none click haddressed with
        ⟨hvalue, -⟩ | ⟨index, page, hpage, hvalue, -⟩
      · rw [hvalue]
        exact h
      · rw [hvalue]
        refine View.strips_toView.mpr ⟨hstrip, fun page' hm => ?_⟩
        rcases List.mem_or_eq_of_mem_set hm with hm | rfl
        · exact hpages page' hm
        · exact hclick page (hpages page (List.mem_of_getElem? hpage))

theorem clickWithin (levels : Nat) (event : PointerEvent K) {view : View K} (h : view.Strips good) :
    (View.clickWithin levels event view).value.2.Strips good := by
  induction levels generalizing view with
  | zero => exact h
  | succ levels ih =>
      cases view with
      | tab strip pages changed =>
          let tab : Tab K := ⟨strip, pages, changed⟩
          have htab : tab.toView.Strips good := h
          exact hgood.clickBy (fun _ hpage => ih hpage) htab event
      | panel core clicked =>
          simp only [View.clickWithin]
          split
          · exact h
          · split <;> exact h
      | plain | probe | group | item => exact h

theorem leave (event : PointerEvent K) {view : View K} (h : view.Strips good) :
    (view.leave event).value.Strips good := by
  cases view with
  | tab strip pages changed =>
      obtain ⟨hstrip, hpages⟩ := (@View.strips_toView _ _ ⟨strip, pages, changed⟩).mp h
      have hleft : (Tab.toView ⟨strip.untrack, pages, changed⟩).Strips good :=
        View.strips_toView.mpr ⟨hgood.untrack hstrip, hpages⟩
      exact hleft
  | item entry => exact View.everyTab_item _
  | panel | plain | probe | group => exact h

/-! ## Any step -/

theorem tabStep {tab : Tab K} (h : tab.toView.Strips good) (step : ViewStep K)
    (hadded : ∀ page, step.added? = some page → page.Strips good) :
    (tab.step step).value.1.Strips good ∧ (tab.step step).value.2.toView.Strips good := by
  obtain ⟨hstrip, hpages⟩ := View.strips_toView.mp h
  cases step with
  | addPage title page => exact ⟨trivial, hgood.addPage h title (hadded page rfl)⟩
  | removePage index => exact hgood.removePage h index
  | selectPage index => exact ⟨trivial, hgood.selectPage h index⟩
  | askHeight | askMinimumSize =>
      exact ⟨trivial, View.strips_toView.mpr ⟨hgood.rememberHeight hstrip, hpages⟩⟩
  | _ => exact ⟨trivial, h⟩

theorem step {view : View K} (h : view.Strips good) (step : ViewStep K)
    (hadded : ∀ page, step.added? = some page → page.Strips good) :
    (view.step step).value.1.Strips good ∧ (view.step step).value.2.Strips good := by
  cases step with
  | core change =>
      have heq : (view.mapCore fun _ => (view.core.step change).2) =
          view.mapCore fun core => (core.step change).2 := by cases view <;> rfl
      refine ⟨trivial, ?_⟩
      change (view.mapCore fun _ => (view.core.step change).2).Strips good
      rw [heq]
      exact hgood.mapCore (fun core => core.step_id change) h
  | place placement => exact ⟨trivial, hgood.place placement h⟩
  | setFont font => exact ⟨trivial, hgood.viewFont h font⟩
  | setColor color => exact ⟨trivial, hgood.viewColor h color⟩
  | setVisible visible => exact ⟨trivial, hgood.mapCore (·.setVisible_id visible) h⟩
  | enter event =>
      refine ⟨trivial, ?_⟩
      cases view with
      | item => exact View.everyTab_item _
      | panel | plain | probe | group | tab => exact h
  | leave event => exact ⟨trivial, hgood.leave event h⟩
  | move event => exact ⟨trivial, hgood.moveWithin view.depth event h⟩
  | click event => exact ⟨trivial, hgood.clickWithin view.depth event h⟩
  | draw region => exact ⟨trivial, h⟩
  | addPage | removePage | selectPage | askHeight | askMinimumSize =>
      cases htab : view.tab? with
      | none =>
          simp only [View.step, htab]
          exact ⟨trivial, h⟩
      | some tab =>
          obtain rfl := View.eq_toView_of_tab? htab
          exact hgood.tabStep h _ hadded

theorem replaceAt {root view new : View K} {path : List Branch} (h : root.Strips good)
    (hat : root.at? path = some view) (hnew : new.Strips good)
    (htouches : view.Touched touched new) :
    (root.replaceAt path new).Strips good := by
  refine View.EveryTab.replaceAt ?_ ?_ h hat hnew (fun _ => htouches) fun entry heq =>
    (htouches entry heq).imp fun _ h => h.1
  · rintro ⟨strip, pages, changed⟩ ⟨strip', pages', changed'⟩ branch child new htab hchild htouches
      heq
    cases branch with
    | child index =>
        cases heq
        exact htab
    | item index =>
        obtain ⟨entry, hentry, rfl⟩ := Option.map_eq_some_iff.mp hchild
        obtain ⟨entry', rfl, htouched⟩ := htouches entry rfl
        cases heq
        exact hgood.touch hentry htouched htab
  · rintro view view' hcontainer - entry rfl
    cases hcontainer

end TabStrip.Kept

/-- An item that takes a step at an address changes as a relation tells. -/
def View.Touches (touched : TabItem K → TabItem K → Prop) (root : View K) (path : List Branch)
    (step : ViewStep K) : Prop :=
  ∀ entry entry', root.at? path = some (.item entry) →
    ((View.item entry).step step).value.2 = .item entry' → touched entry entry'

namespace TabStrip.Kept

variable (hgood : Kept touched good) {root : View K} {path : List Branch} {step : ViewStep K}

include hgood

/-! ## A step at an address -/

theorem answer (h : root.Strips good)
    (hadded : ∀ page, step.added? = some page → page.Strips good) :
    ∀ answer, (root.stepAt path step).value.1 = some answer → answer.Strips good := by
  intro answer heq
  unfold View.stepAt at heq
  split at heq
  · cases heq
  · rename_i view hat
    exact Option.some.inj heq ▸ (hgood.step (View.EveryTab.at? h hat) step hadded).1

theorem stepAt (h : root.Strips good) (htouches : root.Touches touched path step)
    (hadded : ∀ page, step.added? = some page → page.Strips good) :
    (root.stepAt path step).value.2.Strips good := by
  unfold View.stepAt
  split
  · exact h
  · rename_i view hat
    refine hgood.replaceAt h hat (hgood.step (View.EveryTab.at? h hat) step hadded).2 ?_
    rintro entry rfl
    obtain ⟨entry', hentry'⟩ := View.step_item entry step
    exact ⟨entry', hentry', htouches entry entry' hat hentry'⟩

end TabStrip.Kept

/-- In every tree that is reached, every strip has the properties that last. -/
theorem View.Reachable.strips (hgood : TabStrip.Lasting touched good) {root : View K}
    (h : root.Reachable (Touches touched)) : root.Strips good := by
  induction h with
  | panel | plain | probe => exact everyTab_leaf rfl
  | item entry => exact everyTab_item entry
  | group core widget _ ih => exact everyTab_group.mpr ih
  | tab id metrics settings =>
      exact strips_toView.mpr ⟨hgood.new id metrics settings, by simp [Tab.new]⟩
  | step _ htouches _ ih ihadded => exact hgood.stepAt ih htouches ihadded
  | removed _ hpage ih => exact hgood.answer ih (by simp [ViewStep.added?]) _ hpage

end WidgetToolkit
