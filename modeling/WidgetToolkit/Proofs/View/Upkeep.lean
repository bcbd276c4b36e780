import WidgetToolkit.Proofs.Tab.Turning
import WidgetToolkit.Proofs.View.Reachable
import WidgetToolkit.Proofs.View.Tidy

/-! # Tabs are kept tidy

Whatever a tab changes in its measures, its items or its pages, it lays out afterwards. What it does
not lay out again has neither moved nor become larger. -/

namespace WidgetToolkit

variable {K : Type} [Coord K] {same : K → K → Prop}

/-! ## What stays where it is -/

/-- The view is at the same place with the same scale factor. An item is still the same item. -/
structure View.Stands (view view' : View K) : Prop where
  rect_eq : view'.core.rect = view.core.rect
  scale_eq : view'.core.scale = view.core.scale
  item : ∀ entry, view = .item entry → ∃ entry', view' = .item entry' ∧ entry.Still entry'

/-- The strip is at the same place and has the same measures. -/
structure TabStrip.Stands (strip strip' : TabStrip K) : Prop extends strip.SameStyle strip' where
  rect_eq : strip'.core.rect = strip.core.rect

namespace View

omit [Coord K] in
theorem Stands.refl (view : View K) : view.Stands view :=
  ⟨rfl, rfl, fun entry heq => ⟨entry, heq, .refl entry⟩⟩

omit [Coord K] in
/-- What is no item may change in all other respects. -/
theorem stands_of_isContainer {view view' : View K} (hcontainer : view.isContainer)
    (hcore : view'.core = view.core) : view.Stands view' := by
  refine ⟨by rw [hcore], by rw [hcore], ?_⟩
  rintro entry rfl
  cases hcontainer

omit [Coord K] in
theorem stands_mapCore (view : View K) {change : ViewCore K → ViewCore K}
    (hstays : ∀ core : ViewCore K, core.Stays (change core))
    (hparent : ∀ entry, view = .item entry → (change entry.core).parent = entry.core.parent) :
    view.Stands (view.mapCore change) := by
  refine ⟨?_, ?_, ?_⟩
  · rw [core_mapCore, (hstays _).rect_eq]
  · rw [core_mapCore, (hstays _).scale_eq]
  · rintro entry rfl
    have hlook := (hstays entry.core).toSameLook
    exact ⟨_, rfl, ⟨⟨hlook, hparent entry rfl, rfl, rfl, rfl, rfl⟩, (hstays _).rect_eq, rfl⟩⟩

end View

namespace TabStrip

omit [Coord K] in
theorem stands_of_eq {strip strip' : TabStrip K} (hcore : strip'.core = strip.core)
    (hmetrics : strip'.metrics = strip.metrics) (hsettings : strip'.settings = strip.settings) :
    strip.Stands strip' :=
  ⟨⟨hcore ▸ .refl strip.core, hmetrics, hsettings⟩, congrArg (·.rect) hcore⟩

omit [Coord K] in
theorem Stands.trans {a b c : TabStrip K} (hab : a.Stands b) (hbc : b.Stands c) : a.Stands c :=
  ⟨⟨hab.look.trans hbc.look, hbc.metrics_eq.trans hab.metrics_eq,
    hbc.settings_eq.trans hab.settings_eq⟩, hbc.rect_eq.trans hab.rect_eq⟩

theorem stands_layout (strip : TabStrip K) : strip.Stands strip.layout :=
  have hstays := strip.core.stays_invalidate
  ⟨⟨hstays.toSameLook, rfl, rfl⟩, hstays.rect_eq⟩

end TabStrip

namespace Tab

variable {tab : Tab K}

omit [Coord K] in
theorem rel_selectedPage? {rel : View K → View K → Prop} {tab' : Tab K}
    (hselected : tab'.strip.selected = tab.strip.selected)
    (hpages : List.Forall₂ rel tab.pages tab'.pages) :
    Option.Rel rel tab.selectedPage? tab'.selectedPage? := by
  rw [selectedPage?, selectedPage?, hselected]
  cases tab.strip.selected with
  | none => exact .none
  | some index => exact rel_getElem?_of_forall₂ hpages index

/-- A tab stays tidy if its items and its pages stay where they are. -/
theorem Tidy.still (h : tab.Tidy same) {tab' : Tab K} (hstrip : tab.strip.Still tab'.strip)
    (hpages : List.Forall₂ View.Stands tab.pages tab'.pages) : tab'.Tidy same := by
  refine ⟨h.uniform.still hstrip, ?_, hstrip.arranged h.arranged, ?_⟩
  · intro page' hm
    obtain ⟨page, hpage, hstands⟩ := exists_left_of_forall₂ hpages hm
    rw [hstands.scale_eq, hstrip.look.scale_eq]
    exact h.scales page hpage
  · intro page' hpage'
    have hselected := rel_selectedPage? hstrip.selected_eq hpages
    rw [hpage'] at hselected
    obtain ⟨page, hpage, hstands⟩ := exists_left_of_optionRel hselected
    rw [hstands.rect_eq, hstrip.sameFrame.pageRect_eq]
    exact h.placed page hpage

end Tab

theorem View.Tidy.mapCore {view : View K} (h : view.Tidy same) {change : ViewCore K → ViewCore K}
    (hstays : ∀ core : ViewCore K, core.Stays (change core)) : (view.mapCore change).Tidy same :=
  EveryTab.mapCore h change fun tab htab =>
    htab.still (tab.strip.still_withCore (hstays tab.strip.core))
      (List.forall₂_same.mpr fun page _ => .refl page)

/-- A tidy view stays tidy, and stays where it is. -/
def View.Tended (same : K → K → Prop) (view view' : View K) : Prop :=
  view.Tidy same → view'.Tidy same ∧ view.Stands view'

theorem View.Tended.refl (view : View K) : view.Tended same view := fun h => ⟨h, .refl view⟩

namespace Tab

variable {tab : Tab K}

/-- A tab comes tidy out of an operation that does not move it. -/
structure Tended (same : K → K → Prop) (tab tab' : Tab K) : Prop where
  tidy : tab'.toView.Tidy same
  stands : tab.strip.Stands tab'.strip

theorem Tended.after {tab' tab'' : Tab K} (h : tab'.Tended same tab'')
    (hstands : tab.strip.Stands tab'.strip) : tab.Tended same tab'' :=
  ⟨h.tidy, hstands.trans h.stands⟩

theorem tended_refl (h : tab.toView.Tidy same) : tab.Tended same tab :=
  ⟨h, TabStrip.stands_of_eq rfl rfl rfl⟩

/-- Items and pages that stay where they are keep the tab tidy. -/
theorem tended_still (h : tab.toView.Tidy same) {tab' : Tab K}
    (hstrip : tab.strip.Still tab'.strip)
    (hpages : List.Forall₂ (View.Tended same) tab.pages tab'.pages) : tab.Tended same tab' := by
  obtain ⟨htab, hbelow⟩ := View.tidy_toView.mp h
  have hpages : List.Forall₂ (fun page page' => page'.Tidy same ∧ page.Stands page')
      tab.pages tab'.pages :=
    ((List.forall₂_and_left tab.pages tab'.pages).mpr ⟨hbelow, hpages⟩).imp fun _ _ h => h.2 h.1
  refine ⟨View.tidy_toView.mpr ⟨htab.still hstrip (hpages.imp fun _ _ h => h.2), ?_⟩, ?_⟩
  · exact forall_of_forall₂ hpages fun _ _ h => h.1
  · exact ⟨hstrip.toSameStyle, hstrip.rect_eq⟩

theorem tended_withStrip (h : tab.toView.Tidy same) {strip : TabStrip K}
    (hstrip : tab.strip.Still strip) : tab.Tended same { tab with strip := strip } :=
  tended_still h hstrip (List.forall₂_same.mpr fun page _ => .refl page)

theorem Tended.toView {tab' : Tab K} (h : tab.Tended same tab') :
    tab.toView.Tended same tab'.toView := fun _ =>
  ⟨h.tidy, h.stands.rect_eq, h.stands.look.scale_eq, fun _ heq => by cases heq⟩

/-! ## Layout -/

variable (hsame : Coord.IsCongruence same)

include hsame

theorem Dressed.layout (h : tab.Dressed same (View.Tidy same)) :
    tab.Tended same tab.layout.value := by
  have hlaid := h.layoutBy hsame
    (fun placement _ hpage => View.tidy_place hsame placement hpage)
    (fun placement page _ => View.placed_place hsame placement page)
  refine ⟨View.tidy_toView.mpr hlaid, ?_⟩
  rw [Tab.layout, layoutBy_strip]
  exact tab.strip.stands_layout

/-! ## The selection -/

omit hsame

/-- Showing or hiding changes no measure. -/
theorem Dressed.showAt (h : tab.Dressed same (View.Tidy same)) (index : Nat) (shown : Bool) :
    (tab.showAt index shown).Dressed same (View.Tidy same) := by
  refine ⟨h.uniform.modifyItem index fun item => item.alike_setSelected shown, ?_, ?_⟩
  · refine forall_mem_modify h.scales fun page hpage => ?_
    rw [View.setVisible, View.core_mapCore, (page.core.stays_setVisible shown).scale_eq]
    exact h.scales page (List.mem_of_getElem? hpage)
  · refine forall_mem_modify h.pages fun page hpage => ?_
    have htidy : page.Tidy same := h.pages page (List.mem_of_getElem? hpage)
    exact htidy.mapCore fun core => core.stays_setVisible shown

theorem Dressed.withSelected {good : View K → Prop} (h : tab.Dressed same good)
    (selected : Option Nat) :
    Dressed same good { tab with strip := { tab.strip with selected := selected } } :=
  ⟨h.uniform.withSelected selected, h.scales, h.pages⟩

theorem Dressed.moveSelection (h : tab.Dressed same (View.Tidy same)) (index : Nat) :
    (tab.moveSelection index).Dressed same (View.Tidy same) := by
  simp only [Tab.moveSelection]
  split
  · split
    · exact (h.showAt index true).withSelected _
    · exact ((h.showAt _ false).showAt index true).withSelected _
  · exact (h.showAt index true).withSelected _

theorem stands_moveSelection (tab : Tab K) (index : Nat) :
    tab.strip.Stands (tab.moveSelection index).strip := by
  simp only [Tab.moveSelection]
  split
  · split <;> exact TabStrip.stands_of_eq rfl rfl rfl
  · exact TabStrip.stands_of_eq rfl rfl rfl

/-- Either nothing has changed, or the tab has been laid out. -/
theorem Dressed.selectItem (hsame : Coord.IsCongruence same)
    (h : tab.Dressed same (View.Tidy same)) (id : ViewId) :
    (tab.selectItem id).value = (false, tab) ∨
      (tab.selectItem id).value.1 = true ∧ tab.Tended same (tab.selectItem id).value.2 := by
  unfold Tab.selectItem
  split
  · exact .inl rfl
  · rename_i index _
    split
    · exact .inl rfl
    · have hlaid := (h.moveSelection index).layout hsame
      exact .inr ⟨rfl, hlaid.after (tab.stands_moveSelection index)⟩

theorem Dressed.selectItemAt (hsame : Coord.IsCongruence same)
    (h : tab.Dressed same (View.Tidy same)) (index : Nat) :
    (tab.selectItemAt index).value = (false, tab) ∨
      (tab.selectItemAt index).value.1 = true ∧ tab.Tended same (tab.selectItemAt index).value.2 := by
  unfold Tab.selectItemAt
  split
  · exact h.selectItem hsame _
  · exact .inl rfl

/-! ## Adding -/

theorem tidy_attach (hsame : Coord.IsCongruence same) (tab : Tab K) {page : View K}
    (hpage : page.Tidy same) :
    (tab.attach page).value.Tidy same ∧
      Coord.Agree (tab.attach page).value.core.scale tab.strip.core.scale := by
  have hattached : (page.mapCore (·.setParent (some tab.strip.core.id))).Tidy same :=
    hpage.mapCore fun core => core.stays_setParent _
  have hlast : ∀ page' : View K, page'.Tidy same →
      Coord.Agree page'.core.scale tab.strip.core.scale →
      (if tab.pages.isEmpty then page' else page'.setVisible false).Tidy same ∧
        Coord.Agree (if tab.pages.isEmpty then page' else page'.setVisible false).core.scale
          tab.strip.core.scale := by
    intro page' htidy hscale
    split
    · exact ⟨htidy, hscale⟩
    · refine ⟨htidy.mapCore fun core => core.stays_setVisible false, ?_⟩
      rwa [View.setVisible, View.core_mapCore, (page'.core.stays_setVisible false).scale_eq]
  simp only [attach]
  split
  · exact hlast _ (View.tidy_place hsame _ hattached)
      (.inl (View.placed_place hsame (.rescale tab.strip.core.scale) _))
  · rename_i heq
    refine hlast _ hattached (.inr ?_)
    simpa [bne] using heq

theorem Dressed.addItem (hsame : Coord.IsCongruence same)
    (h : tab.Dressed same (View.Tidy same)) (title : String) :
    tab.Tended same (tab.addItem title).value.2 := by
  let longer : Tab K := { tab with strip := tab.strip.pushItem title }
  have hlonger : longer.Dressed same (View.Tidy same) :=
    ⟨h.uniform.pushItem title, h.scales, h.pages⟩
  have hpushed : tab.strip.Stands longer.strip := TabStrip.stands_of_eq rfl rfl rfl
  have hlaid := hlonger.layout hsame
  have hselected := hlonger.selectItemAt hsame 0
  have hlast : ∀ result : Bool × Tab K,
      result = (false, longer) ∨ result.1 = true ∧ longer.Tended same result.2 →
      tab.Tended same (if result.1 then (pure (true, result.2) : Told (Notice K) (Bool × Tab K))
        else do return (false, ← result.2.layout)).value.2 := by
    rintro ⟨changed, tab'⟩ (heq | ⟨heq, htended⟩)
    · obtain ⟨rfl, rfl⟩ := Prod.mk.inj heq
      exact hlaid.after hpushed
    · obtain rfl : changed = true := heq
      exact htended.after hpushed
  simp only [Tab.addItem]
  split
  · exact hlast _ hselected
  · exact hlast _ (.inl rfl)

theorem tended_addPage (hsame : Coord.IsCongruence same) (h : tab.toView.Tidy same) (title : String)
    {page : View K} (hpage : page.Tidy same) :
    tab.Tended same (tab.addPage title page).value := by
  obtain ⟨htidy, hscale⟩ := tidy_attach hsame tab hpage
  let paged : Tab K := { tab with pages := tab.pages ++ [(tab.attach page).value] }
  have hpaged : paged.Dressed same (View.Tidy same) := by
    refine ⟨h.dressed.uniform, ?_, ?_⟩
    · exact List.forall_mem_append.mpr ⟨h.dressed.scales, List.forall_mem_singleton.mpr hscale⟩
    · exact List.forall_mem_append.mpr ⟨h.dressed.pages, List.forall_mem_singleton.mpr htidy⟩
  rw [addPage_value]
  exact (hpaged.addItem hsame title).after (TabStrip.stands_of_eq rfl rfl rfl)

theorem tended_selectPage (hsame : Coord.IsCongruence same) (h : tab.toView.Tidy same)
    (index : Nat) : tab.Tended same (tab.selectPage index).value := by
  rw [selectPage_value]
  rcases h.dressed.selectItemAt hsame index with heq | ⟨-, htended⟩
  · rw [heq]
    exact tended_refl h
  · exact htended

/-! ## Removing -/

theorem Dressed.passSelection (h : tab.Dressed same (View.Tidy same)) (index : Nat) :
    (tab.passSelection index).2.Dressed same (View.Tidy same) := by
  simp only [Tab.passSelection]
  split
  · exact h
  · split
    · split
      · exact h.withSelected none
      · let successor := (index + 1) % tab.strip.items.length
        let place := if index < successor then successor - 1 else successor
        have hshown := h.showAt place true
        refine ⟨?_, hshown.scales, hshown.pages⟩
        exact (h.uniform.modifyItem successor fun item => item.alike_setSelected true).withSelected _
    · split
      · exact h.withSelected _
      · exact h

theorem stands_passSelection (tab : Tab K) (index : Nat) :
    tab.strip.Stands (tab.passSelection index).2.strip := by
  simp only [Tab.passSelection]
  split
  · exact TabStrip.stands_of_eq rfl rfl rfl
  · split
    · split <;> exact TabStrip.stands_of_eq rfl rfl rfl
    · split <;> exact TabStrip.stands_of_eq rfl rfl rfl

theorem tended_removePage (hsame : Coord.IsCongruence same) (h : tab.toView.Tidy same)
    (hlength : tab.strip.items.length = tab.pages.length) (index : Nat) :
    tab.Tended same (tab.removePage index).value.2 ∧
      ∀ page, (tab.removePage index).value.1 = some page → page.Tidy same := by
  cases hpage : tab.pages[index]? with
  | none =>
      simp only [removePage, hpage]
      exact ⟨tended_refl h, fun _ heq => by cases heq⟩
  | some page =>
      have hi := (List.getElem?_eq_some_iff.mp hpage).1
      have hitem := List.getElem?_eq_getElem (hlength ▸ hi)
      rw [removePage_value hpage hitem]
      have hfewer : Dressed same (View.Tidy same) { tab with pages := tab.pages.eraseIdx index } :=
        ⟨h.dressed.uniform, fun page hm => h.dressed.scales page (List.mem_of_mem_eraseIdx hm),
          fun page hm => h.dressed.pages page (List.mem_of_mem_eraseIdx hm)⟩
      have hpassed := hfewer.passSelection index
      set passed := (passSelection { tab with pages := tab.pages.eraseIdx index } index).2
      have herased : Dressed same (View.Tidy same)
          { passed with strip := passed.strip.eraseItem index tab.strip.items[index].core.id } :=
        ⟨hpassed.uniform.eraseItem index _, fun page => hpassed.scales page, hpassed.pages⟩
      refine ⟨(herased.layout hsame).after ?_, ?_⟩
      · refine (stands_passSelection { tab with pages := tab.pages.eraseIdx index } index).trans ?_
        exact TabStrip.stands_of_eq rfl rfl rfl
      · rintro _ ⟨⟩
        have htidy := h.dressed.pages page (List.mem_of_getElem? hpage)
        exact View.Tidy.mapCore htidy fun core => core.stays_setParent none

/-! ## The pointer -/

theorem tended_moveBy {move : View K → Told (Notice K) (View K)}
    (hmove : ∀ page : View K, page.Tended same (move page).value) (h : tab.toView.Tidy same)
    (p : Point K) : tab.Tended same (tab.moveBy move p).value := by
  have htracked := tab.strip.still_track p
  simp only [moveBy, forwardMoveBy]
  split
  · exact tended_withStrip h htracked
  · rename_i index _
    refine tended_still h htracked ?_
    rw [Told.bind_value, Told.modifyNth_value]
    exact forall₂_modify View.Tended.refl fun page _ => hmove page

theorem tended_clickBy {click : View K → Told (Notice K) (Bool × View K)}
    (hclick : ∀ page : View K, page.Tended same (click page).value.2)
    (hsame : Coord.IsCongruence same) (h : tab.toView.Tidy same) (event : PointerEvent K) :
    tab.Tended same (tab.clickBy click event).value.2 := by
  cases haddressed : tab.addressed? event with
  | some index =>
      obtain ⟨entry, -, hvalue, -⟩ := clickBy_of_addressed? click haddressed
      rw [hvalue]
      rcases h.dressed.selectItem hsame entry.core.id with heq | ⟨-, htended⟩
      · rw [heq]
        exact tended_refl h
      · exact htended
  | none =>
      rcases clickBy_of_addressed?_none click haddressed with
        ⟨hvalue, -⟩ | ⟨index, page, hpage, hvalue, -⟩
      · rw [hvalue]
        exact tended_refl h
      · rw [hvalue]
        exact tended_still h (.refl tab.strip) (forall₂_set View.Tended.refl hpage (hclick page))

end Tab

end WidgetToolkit
