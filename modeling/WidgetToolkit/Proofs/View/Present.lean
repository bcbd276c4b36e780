import WidgetToolkit.Proofs.View.Proper

/-! # A tab is what its present state makes of it

However a tab has come to its font, its scale factor, its titles and its selection: what it has
measured, what it has passed on to its items and pages, and where it has put them are what they would
be in a tab that has just been built. -/

namespace WidgetToolkit

variable {K : Type} [Coord K] {same : K → K → Prop}

/-! ## Measures and looks -/

/-- An item or a page of a tab, or one of a tab that is a page itself, at any depth. -/
inductive Tab.Holds : Tab K → View K → Prop
  | item {tab : Tab K} {item : TabItem K} (hitem : item ∈ tab.strip.items) : Holds tab (.item item)
  | page {tab : Tab K} {page : View K} (hpage : page ∈ tab.pages) : Holds tab page
  | nested {tab inner : Tab K} {view : View K} (hinner : inner.toView ∈ tab.pages)
      (hview : Holds inner view) : Holds tab view

theorem Tab.Holds.scale_eq (hexact : ∀ a b : K, 0 < b → (a == b) = true → a = b) {tab : Tab K}
    {view : View K} (h : tab.Holds view) (htidy : tab.toView.Tidy same)
    (hscale : 0 < tab.strip.core.scale) : view.core.scale = tab.strip.core.scale := by
  have hpages : ∀ (tab : Tab K), tab.toView.Tidy same → 0 < tab.strip.core.scale →
      ∀ page ∈ tab.pages, page.core.scale = tab.strip.core.scale :=
    fun tab htidy hscale page hm => (htidy.dressed.scales page hm).elim id (hexact _ _ hscale)
  induction h with
  | item hitem => exact (htidy.dressed.uniform.dresses _ hitem).scale_eq
  | page hpage => exact hpages _ htidy hscale _ hpage
  | @nested tab inner view hinner _ ih =>
      have hsame : inner.strip.core.scale = tab.strip.core.scale := hpages _ htidy hscale _ hinner
      exact (ih (htidy.dressed.pages _ hinner) (hsame ▸ hscale)).trans hsame

namespace View

/-- The height of the strip is the one that is measured now; the items have the font, the color and
the scale factor of the strip, which is their parent, and the size of a new item with their title; and
a positive scale factor is that of everything below. Positive coordinates that compare equal are to be
the same. -/
theorem reachable_measures (hexact : ∀ a b : K, 0 < b → (a == b) = true → a = b) {root : View K}
    (h : root.Reachable Proper) {path : List Branch} {tab : Tab K}
    (hat : root.at? path = some tab.toView) :
    tab.strip.askHeight.1 = tab.strip.measuredHeight ∧
      (∀ item ∈ tab.strip.items,
        item.core.font = tab.strip.core.font ∧ item.core.color = tab.strip.core.color ∧
        item.core.scale = tab.strip.core.scale ∧ item.core.parent = some tab.strip.core.id ∧
        item.size = (tab.strip.newItem item.title).size) ∧
      (0 < tab.strip.core.scale →
        ∀ view, tab.Holds view → view.core.scale = tab.strip.core.scale) := by
  have htidy : tab.toView.Tidy (fun _ _ => True) :=
    EveryTab.at? (h.tidy Coord.isCongruence_true) hat
  have huniform := htidy.dressed.uniform
  refine ⟨huniform.height_eq, fun item hm => ?_, fun hscale view hview => ?_⟩
  · have hdresses := huniform.dresses item hm
    have hnew := tab.strip.dresses_newItem item.title
    refine ⟨hdresses.font_eq, hdresses.color_eq, hdresses.scale_eq, hdresses.parent_eq, ?_⟩
    rw [hdresses.size_eq, hnew.size_eq]
    exact TabItem.measured_congr (hdresses.metrics_eq.trans hnew.metrics_eq.symm)
      (hdresses.settings_eq.trans hnew.settings_eq.symm) rfl
      (hdresses.font_eq.trans hnew.font_eq.symm) (hdresses.scale_eq.trans hnew.scale_eq.symm)
  · exact hview.scale_eq hexact htidy hscale

/-- A tab that is ready, with another scale factor than that of the tab that it comes into. -/
theorem reachable_measures_ready_built :
    let metrics : TextMetrics Rat := ⟨fun _ _ => ⟨10, 10⟩⟩
    let page : View Rat := .plain (.new (.view 2)) ⟨"crate", "Page"⟩
    let inner := (Tab.new (.view 1) metrics .standard).toView.run [.addPage "in" page]
    let root := (Tab.new (.view 0) metrics .standard).toView.run
      [.place (.rescale 2), .addPage "out" inner]
    ∃ tab : Tab Rat, root.at? [] = some tab.toView ∧ tab.strip.core.scale = 2 ∧
      ∃ view, tab.Holds view ∧ view.id = .view 2 ∧ view.core.scale = 2 := by
  intro metrics page inner root
  have hinner : inner.Reachable Proper :=
    (Reachable.tab _ _ _).run (by simp) (by simp [ViewStep.added?, page, Reachable.plain])
  have hroot : root.Reachable Proper :=
    (Reachable.tab _ _ _).run (by simp) (by simp [ViewStep.added?, hinner])
  obtain ⟨tab, htab, hscale, hthere⟩ : ∃ tab : Tab Rat,
      root.at? [] = some tab.toView ∧ tab.strip.core.scale = 2 ∧
      ((tab.pages[0]?.bind View.tab?).bind (·.pages[0]?)).map View.id = some (.view 2) :=
    ⟨_, rfl, by decide +kernel, by decide +kernel⟩
  obtain ⟨view, hview, hid⟩ := Option.map_eq_some_iff.mp hthere
  obtain ⟨ready, hready, hview⟩ := Option.bind_eq_some_iff.mp hview
  obtain ⟨added, hadded, hready⟩ := Option.bind_eq_some_iff.mp hready
  obtain rfl := eq_toView_of_tab? hready
  have hholds : tab.Holds view :=
    .nested (List.mem_of_getElem? hadded) (.page (List.mem_of_getElem? hview))
  have hbelow := (reachable_measures (fun _ _ _ h => eq_of_beq h) hroot htab).2.2
  refine ⟨tab, htab, hscale, view, hholds, hid, ?_⟩
  rw [hbelow (by rw [hscale]; decide +kernel) view hholds, hscale]

end View

end WidgetToolkit
