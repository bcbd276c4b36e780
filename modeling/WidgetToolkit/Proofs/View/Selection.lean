import WidgetToolkit.Proofs.Tab.Selection
import WidgetToolkit.Proofs.View.Placement
import WidgetToolkit.Proofs.View.Tree

/-! # The selections of all tabs in a tree

What is done to a tab is done to its pages in turn, which may be tabs. So every operation is first
taken level by level, for tabs whose pages keep their own tabs in order. -/

namespace WidgetToolkit

variable {K : Type}

/-- Every tab in the tree has its selection in order. -/
def View.Coherent (root : View K) : Prop := root.EveryTab Tab.Selection

/-- The view is visible as before. -/
def View.SameVisible (view view' : View K) : Prop := view'.core.visible = view.core.visible

/-- What an observer of a tab is shown is a tab with its selection in order. -/
def Notice.Coherent : Notice K → Prop
  | .selectedPageChanged tab => tab.Selection
  | _ => True

theorem View.SameVisible.refl (view : View K) : view.SameVisible view := rfl

theorem View.SameVisible.trans (a b c : View K) (hab : a.SameVisible b) (hbc : b.SameVisible c) :
    a.SameVisible c :=
  Eq.trans hbc hab

theorem View.coherent_mapCore {view : View K} (h : view.Coherent)
    (change : ViewCore K → ViewCore K) : (view.mapCore change).Coherent :=
  h.mapCore change fun _ htab => htab.congr rfl rfl rfl

namespace Tab

/-- The tab and all tabs below it have their selections in order. -/
structure Coherent (tab : Tab K) : Prop where
  selection : tab.Selection
  pages : ∀ page ∈ tab.pages, page.Coherent

theorem coherent_toView {tab : Tab K} : tab.toView.Coherent ↔ tab.Coherent :=
  View.everyTab_tab.trans ⟨fun h => ⟨h.1, h.2⟩, fun h => ⟨h.1, h.2⟩⟩

theorem Coherent.congr {tab tab' : Tab K} {strip : TabStrip K} (h : tab.Coherent)
    (hb : Became View.Coherent View.SameVisible strip tab tab')
    (hitems : strip.items.map (·.selected) = tab.strip.items.map (·.selected))
    (hselected : strip.selected = tab.strip.selected) : tab'.Coherent := by
  refine ⟨h.selection.congr ?_ ?_ ?_, hb.good⟩
  · rw [hb.strip_eq, hitems]
  · exact map_eq_of_forall₂ hb.rel fun _ _ h => h
  · rw [hb.strip_eq, hselected]

end Tab

/-- A tab comes out of an operation with all selections in order, and as visible as it was. -/
structure Tab.Upheld (tab tab' : Tab K) : Prop where
  coherent : tab'.Coherent
  visible_eq : tab'.strip.core.visible = tab.strip.core.visible

theorem Tab.Upheld.trans {a b c : Tab K} (hab : a.Upheld b) (hbc : b.Upheld c) : a.Upheld c :=
  ⟨hbc.coherent, hbc.visible_eq.trans hab.visible_eq⟩

theorem Tab.Coherent.upheld {tab : Tab K} (h : tab.Coherent) : tab.Upheld tab := ⟨h, rfl⟩

/-- An operation that keeps all selections in order and the view as visible as it is. -/
def View.Steady (operation : View K → Told (Notice K) (View K)) : Prop :=
  View.Keeps View.Coherent View.SameVisible Notice.Coherent operation

/-- The same of an operation that tells whether the view has taken a click. -/
def View.SteadyClick (click : View K → Told (Notice K) (Bool × View K)) : Prop :=
  ∀ view, view.Coherent →
    (click view).Meets (fun result => result.2.Coherent ∧ view.SameVisible result.2) Notice.Coherent

variable [Coord K]

theorem View.coherent_setVisible {view : View K} (h : view.Coherent) (visible : Bool) :
    (view.setVisible visible).Coherent :=
  View.coherent_mapCore h (·.setVisible visible)

namespace Tab.Coherent

omit [Coord K] in
theorem withStrip {tab : Tab K} (h : tab.Coherent) {strip : TabStrip K}
    (hitems : strip.items.map (·.selected) = tab.strip.items.map (·.selected))
    (hselected : strip.selected = tab.strip.selected)
    (hvisible : strip.core.visible = tab.strip.core.visible) :
    tab.Upheld { tab with strip := strip } :=
  ⟨⟨h.selection.congr hitems rfl hselected, h.pages⟩, hvisible⟩

omit [Coord K] in
theorem withPages {tab : Tab K} (h : tab.Coherent) {pages : List (View K)}
    (hpages : List.Forall₂ (fun page page' => (page.Coherent → page'.Coherent) ∧
      page.SameVisible page') tab.pages pages) : tab.Upheld { tab with pages := pages } := by
  refine ⟨⟨h.selection.congr rfl ?_ rfl, ?_⟩, rfl⟩
  · exact map_eq_of_forall₂ hpages fun _ _ h => h.2
  · exact forall_of_forall₂_imp (hpages.imp fun _ _ h => h.1) h.pages

end Tab.Coherent

/-! ## Placement -/

section

variable {place : Placement K → View K → Told (Notice K) (View K)}

theorem Tab.Coherent.layoutBy (hplace : ∀ placement, View.Steady (place placement))
    {tab : Tab K} (h : tab.Coherent) :
    (tab.layoutBy place).Meets tab.Upheld Notice.Coherent := by
  refine (Tab.meets_layoutBy View.SameVisible.refl View.SameVisible.trans hplace tab
    h.pages).mono fun tab' hb => ⟨h.congr hb ?_ rfl, ?_⟩
  · exact TabStrip.map_layout_items _ (fun _ _ => rfl) _
  · rw [hb.strip_eq, TabStrip.layout_core_visible]

theorem Tab.Coherent.placeBy (hplace : ∀ placement, View.Steady (place placement))
    {tab : Tab K} (h : tab.Coherent) (placement : Placement K) :
    (tab.placeBy place placement).Meets tab.Upheld Notice.Coherent := by
  refine (Tab.meets_placeBy View.SameVisible.refl View.SameVisible.trans hplace tab
    h.pages placement).mono fun tab' hb => ⟨h.congr hb ?_ ?_, ?_⟩
  · exact TabStrip.map_placed_items _ (fun _ _ => rfl) (fun _ _ => rfl) _ _
  · exact TabStrip.placed_selected _ _
  · rw [hb.strip_eq, TabStrip.placed_core_visible]

end

theorem View.steady_placeWithin (levels : Nat) (placement : Placement K) :
    View.Steady (View.placeWithin levels placement) := by
  induction levels generalizing placement with
  | zero => exact fun view h => Told.meets_pure ⟨h, rfl⟩
  | succ levels ih =>
      intro view h
      cases htab : view.tab? with
      | none =>
          have hsettled := settled_placeWithin htab (levels + 1) placement
          refine ⟨⟨hsettled.value.everyTab h, hsettled.value.visible_eq⟩, fun notice hm => ?_⟩
          rw [hsettled.notices notice hm]
          trivial
      | some tab =>
          obtain rfl := eq_toView_of_tab? htab
          have hcoherent := Tab.coherent_toView.mp h
          refine (hcoherent.placeBy ih placement).bind fun tab' h' =>
            Told.meets_pure ⟨?_, h'.visible_eq⟩
          exact Tab.coherent_toView.mpr h'.coherent

theorem View.steady_place (placement : Placement K) : View.Steady (View.place placement) :=
  fun view h => View.steady_placeWithin view.depth placement view h

namespace Tab.Coherent

theorem layout {tab : Tab K} (h : tab.Coherent) : tab.layout.Meets tab.Upheld Notice.Coherent :=
  h.layoutBy View.steady_place

/-! ## Looks -/

theorem setFont {tab : Tab K} (h : tab.Coherent) (font : Font) :
    (tab.setFont font).Meets tab.Upheld Notice.Coherent := by
  have hfont : tab.Upheld { tab with strip := tab.strip.setFont font } := by
    refine h.withStrip ?_ rfl (ViewCore.setFont_visible _ _)
    simp [TabStrip.setFont, Function.comp_def, TabItem.setFont, TabItem.remeasure]
  exact hfont.coherent.layout.mono fun tab' h' => hfont.trans h'

theorem setColor {tab : Tab K} (h : tab.Coherent) (color : Color) :
    tab.Upheld (tab.setColor color) := by
  refine h.withStrip ?_ rfl (by simp [TabStrip.setColor])
  simp [TabStrip.setColor, Function.comp_def, TabItem.setColor]

end Tab.Coherent

namespace View

theorem steady_setFont (font : Font) : View.Steady (fun view : View K => view.setFont font) := by
  intro view h
  cases view with
  | tab strip pages changed =>
      have hcoherent : Tab.Coherent ⟨strip, pages, changed⟩ := Tab.coherent_toView.mp h
      refine (hcoherent.setFont font).bind fun tab' h' => Told.meets_pure ?_
      exact ⟨Tab.coherent_toView.mpr h'.coherent, h'.visible_eq⟩
  | item entry =>
      refine Told.meets_pure ⟨everyTab_item _, ?_⟩
      simp [SameVisible, core, TabItem.setFont, TabItem.remeasure]
  | panel | plain | probe | group =>
      exact Told.meets_pure ⟨coherent_mapCore h _, by simp [SameVisible]⟩

theorem coherent_setColor {view : View K} (h : view.Coherent) (color : Color) :
    (view.setColor color).Coherent ∧ view.SameVisible (view.setColor color) := by
  cases view with
  | tab strip pages changed =>
      have hcoherent : Tab.Coherent ⟨strip, pages, changed⟩ := Tab.coherent_toView.mp h
      have hcolored := hcoherent.setColor color
      exact ⟨Tab.coherent_toView.mpr hcolored.coherent, hcolored.visible_eq⟩
  | panel | plain | probe | group | item =>
      refine ⟨coherent_mapCore h (·.setColor color), ?_⟩
      simp [setColor, SameVisible]

end View

end WidgetToolkit
