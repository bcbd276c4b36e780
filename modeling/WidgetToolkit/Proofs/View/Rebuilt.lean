import WidgetToolkit.Proofs.View.Present

/-! # A layout does not depend on the history

Where a tab has put its items and its selected page, and the size that it asks for, are the same as in
a tab that is built at one go from the present font and scale factor, at the present place, with the
present titles and the present selection. -/

namespace WidgetToolkit

variable {K : Type} [Coord K] {same : K → K → Prop}

namespace Tab

/-- Titles with their pages come, then one of them is selected. -/
def building (contents : List (String × View K)) (selected : Option Nat) : List (PageEdit K) :=
  contents.map (fun content => .add content.1 content.2) ++ selected.toList.map .select

/-- A new tab that gets a place, then its pages, then its selection. -/
def built (id : ViewId) (metrics : TextMetrics K) (settings : Settings K) (rect : Rect K)
    (contents : List (String × View K)) (selected : Option Nat) : Tab K :=
  let placed := ((Tab.new id metrics settings).placeBy View.place (.allocate rect)).value
  (building contents selected).foldl edit placed

/-! ## Two tabs with the same present -/

/-- The same measures at the same place, the same titles and the same selection. -/
structure Resembles (same : K → K → Prop) (tab tab' : Tab K) : Prop where
  metrics_eq : tab'.strip.metrics = tab.strip.metrics
  settings_eq : tab'.strip.settings = tab.strip.settings
  font_eq : tab'.strip.core.font = tab.strip.core.font
  scale_eq : tab'.strip.core.scale = tab.strip.core.scale
  rect : tab.strip.core.rect.Same same tab'.strip.core.rect
  titles_eq : tab'.strip.items.map (·.title) = tab.strip.items.map (·.title)
  selected_eq : tab'.strip.selected = tab.strip.selected

section

variable {tab tab' : Tab K} (h : tab.Resembles same tab') (htidy : tab.Tidy same)
  (htidy' : tab'.Tidy same)

include h htidy htidy'

theorem Resembles.level : tab.strip.Level same tab'.strip := by
  refine ⟨h.settings_eq, h.scale_eq, ?_, h.rect⟩
  rw [htidy.uniform.height_eq, htidy'.uniform.height_eq]
  simp only [TabStrip.measuredHeight, h.metrics_eq, h.settings_eq, h.font_eq, h.scale_eq]

theorem Resembles.extents (hselection : tab.Selection) (hselection' : tab'.Selection) :
    tab'.strip.items.map TabItem.extent = tab.strip.items.map TabItem.extent := by
  have hlength : tab'.strip.items.length = tab.strip.items.length := by
    simpa using congrArg List.length h.titles_eq
  refine List.ext_getElem (by simpa using hlength) fun index hi' hi => ?_
  rw [List.length_map] at hi hi'
  rw [List.getElem_map, List.getElem_map]
  have htitle : tab'.strip.items[index].title = tab.strip.items[index].title := by
    simpa [List.getElem?_eq_getElem hi, List.getElem?_eq_getElem hi'] using
      congrArg (·[index]?) h.titles_eq
  have hdresses := htidy.uniform.dresses _ (List.getElem_mem hi)
  have hdresses' := htidy'.uniform.dresses _ (List.getElem_mem hi')
  have hsize : tab'.strip.items[index].size = tab.strip.items[index].size := by
    rw [hdresses.size_eq, hdresses'.size_eq]
    exact TabItem.measured_congr
      (hdresses'.metrics_eq.trans (h.metrics_eq.trans hdresses.metrics_eq.symm))
      (hdresses'.settings_eq.trans (h.settings_eq.trans hdresses.settings_eq.symm)) htitle
      (hdresses'.font_eq.trans (h.font_eq.trans hdresses.font_eq.symm))
      (hdresses'.scale_eq.trans (h.scale_eq.trans hdresses.scale_eq.symm))
  have hflag : tab'.strip.items[index].selected = tab.strip.items[index].selected := by
    rw [Bool.eq_iff_iff, hselection.item_selected index _ (List.getElem?_eq_getElem hi),
      hselection'.item_selected index _ (List.getElem?_eq_getElem hi'), h.selected_eq]
  rw [TabItem.extent, TabItem.extent, hsize, hflag]

/-- Items and pages lie where they belong, and that is the same place in both tabs. -/
theorem Resembles.places (hsame : Coord.IsCongruence same) (hselection : tab.Selection)
    (hselection' : tab'.Selection) :
    List.Forall₂ (Rect.Same same) (tab.strip.items.map (·.core.rect))
        (tab'.strip.items.map (·.core.rect)) ∧
      Option.Rel (Rect.Same same) (tab.selectedPage?.map (·.core.rect))
        (tab'.selectedPage?.map (·.core.rect)) := by
  have hlevel := h.level htidy htidy'
  have htrans : ∀ a b c : Rect K, a.Same same b → b.Same same c → a.Same same c :=
    fun _ _ _ h h' => h.trans hsame h'
  constructor
  · have hslots := hlevel.slots hsame (h.extents htidy htidy' hselection hselection')
    have hback : List.Forall₂ (Rect.Same same) tab'.strip.slots
        (tab'.strip.items.map (·.core.rect)) :=
      htidy'.arranged.flip.imp fun _ _ hrect => hrect.symm hsame
    exact forall₂_trans htrans htidy.arranged (forall₂_trans htrans hslots hback)
  · have hpage : ∀ {tab : Tab K}, tab.Selection → ∀ index, tab.strip.selected = some index →
        ∃ page, tab.selectedPage? = some page := by
      intro tab hselection index hselected
      exact ⟨_, by
        rw [selectedPage?, hselected, Option.bind_some]
        exact List.getElem?_eq_getElem (hselection.selected_lt index hselected)⟩
    cases hselected : tab.strip.selected with
    | none =>
        simp only [selectedPage?, h.selected_eq, hselected, Option.bind_none, Option.map_none]
        exact .none
    | some index =>
        obtain ⟨page, hat⟩ := hpage hselection index hselected
        obtain ⟨page', hat'⟩ := hpage hselection' index (h.selected_eq.trans hselected)
        rw [hat, hat']
        refine .some (htrans _ _ _ (htidy.placed page hat) ?_)
        exact (hlevel.pageRect hsame).trans hsame ((htidy'.placed page' hat').symm hsame)

/-- So the sizes that the tabs ask for are the same, too. -/
theorem Resembles.minimumSize (hsame : Coord.IsCongruence same)
    (hrects : List.Forall₂ (Rect.Same same) (tab.strip.items.map (·.core.rect))
      (tab'.strip.items.map (·.core.rect))) :
    tab.strip.minimumSize.Same same tab'.strip.minimumSize ∧
      tab.minimumSize.Same same tab'.minimumSize := by
  have hsize := (h.level htidy htidy').minimumSize hsame hrects
  refine ⟨hsize, ?_⟩
  simp only [Tab.minimumSize, h.scale_eq]
  exact ⟨hsame.div _ hsize.width, hsame.div _ hsize.height⟩

end

/-! ## A tab that is built at one go -/

/-- Adding, removing and selecting pages keeps a tab in order, and leaves it where it is. -/
theorem tended_edits (hsame : Coord.IsCongruence same) {tab : Tab K} (htidy : tab.toView.Tidy same)
    (hcoherent : tab.Coherent) (edits : List (PageEdit K))
    (hadded : ∀ title page, .add title page ∈ edits → page.Tidy same ∧ page.Coherent) :
    tab.Tended same (edits.foldl edit tab) ∧ (edits.foldl edit tab).Coherent := by
  induction edits generalizing tab with
  | nil => exact ⟨tended_refl htidy, hcoherent⟩
  | cons change edits ih =>
      have hchanged : tab.Tended same (tab.edit change) ∧ (tab.edit change).Coherent := by
        cases change with
        | add title page =>
            obtain ⟨hpage, hcoherent'⟩ := hadded title page List.mem_cons_self
            exact ⟨tended_addPage hsame htidy title hpage,
              (hcoherent.addPage title hcoherent').value.coherent⟩
        | remove index =>
            exact ⟨(tended_removePage hsame htidy hcoherent.selection.length_eq index).1,
              (hcoherent.removePage index).value.2.coherent⟩
        | select index =>
            exact ⟨tended_selectPage hsame htidy index, (hcoherent.selectPage index).value.coherent⟩
      have hrest := ih hchanged.1.tidy hchanged.2 fun title page hm =>
        hadded title page (List.mem_cons_of_mem _ hm)
      exact ⟨hrest.1.after hchanged.1.stands, hrest.2⟩

section

variable (contents : List (String × View K)) (selected : Option Nat)

omit [Coord K] in
theorem titles_foldl_add (roll : PageRoll K) :
    ((contents.map fun content => PageEdit.add content.1 content.2).foldl .edit roll).entries.map
        (·.title) = roll.entries.map (·.title) ++ contents.map Prod.fst := by
  induction contents generalizing roll with
  | nil => simp
  | cons content contents ih =>
      rw [List.map_cons, List.foldl_cons, ih, PageRoll.edit, PageRoll.add]
      simp

omit [Coord K] in
theorem titles_building :
    ((building contents selected).foldl PageRoll.edit .empty).entries.map (·.title) =
      contents.map Prod.fst := by
  have htitles := titles_foldl_add contents .empty
  rw [building, List.foldl_append]
  cases selected with
  | none => exact htitles
  | some index => exact (congrArg _ (PageRoll.select_entries _ index)).trans htitles

omit [Coord K] in
theorem currentAt_building (hnone : selected = none → contents = [])
    (hlt : ∀ index, selected = some index → index < contents.length) :
    ((building contents selected).foldl PageRoll.edit .empty).CurrentAt selected := by
  cases selected with
  | none =>
      rw [hnone rfl]
      exact ⟨rfl, rfl⟩
  | some index =>
      rw [building, List.foldl_append]
      apply PageRoll.currentAt_select
      have hlength := congrArg List.length (titles_foldl_add contents .empty)
      simp only [List.length_map, List.length_append] at hlength
      rw [hlength]
      exact Nat.lt_add_left _ (hlt index rfl)

variable (id : ViewId) (metrics : TextMetrics K) (settings : Settings K) (rect : Rect K)

theorem tracks_placed :
    ((Tab.new id metrics settings).placeBy View.place (.allocate rect)).value.Tracks .empty := by
  have hnew : (Tab.new id metrics settings).Tracks .empty := tracks_new id metrics settings
  have hstrip := placeBy_strip View.place (Tab.new id metrics settings) (.allocate rect)
  refine ⟨hnew.toCarries.congr ?_ ?_ ?_ .nil, ?_⟩
  · intro α read hallocate _
    rw [hstrip]
    exact TabStrip.map_layout_items read hallocate _
  · rw [hstrip, TabStrip.placed_core_id]
  · rw [hstrip]
    rfl
  · rw [hstrip]
    exact hnew.current

theorem tracks_built : (built id metrics settings rect contents selected).Tracks
    ((building contents selected).foldl PageRoll.edit .empty) :=
  (tracks_placed id metrics settings rect).edits _

variable (hsame : Coord.IsCongruence same)

include hsame

/-- A tab that has just been built is in order, with the measures that it was given. -/
theorem tended_built (hcontents : ∀ content ∈ contents, content.2.Tidy same ∧ content.2.Coherent) :
    Tended same ((Tab.new id metrics settings).placeBy View.place (.allocate rect)).value
        (built id metrics settings rect contents selected) ∧
      (built id metrics settings rect contents selected).Coherent := by
  have htidy' : (Tab.new id metrics settings).toView.Tidy same := View.tidy_new id metrics settings
  have htidy := htidy'.dressed.placeBy hsame
    (fun placement _ hpage => View.tidy_place hsame placement hpage)
    (fun placement page _ => View.placed_place hsame placement page) (.allocate rect)
  have hnew : (Tab.new id metrics settings).Coherent :=
    ⟨selection_new id metrics settings, fun _ hm => absurd hm List.not_mem_nil⟩
  have hcoherent := (hnew.placeBy View.steady_place (.allocate rect)).value.coherent
  refine tended_edits hsame (View.tidy_toView.mpr htidy) hcoherent _ fun title page hm => ?_
  rcases List.mem_append.mp hm with hm | hm
  · obtain ⟨content, hcontent, heq⟩ := List.mem_map.mp hm
    cases heq
    exact hcontents content hcontent
  · obtain ⟨index, -, heq⟩ := List.mem_map.mp hm
    cases heq

end

/-- A tab resembles the one that is built from its present. -/
theorem resembles_built (hsame : Coord.IsCongruence same) (tab : Tab K) (id : ViewId)
    (hselection : tab.Selection) {contents : List (String × View K)}
    (htitles : contents.map Prod.fst = tab.strip.items.map (·.title))
    (hcontents : ∀ content ∈ contents, content.2.Tidy same ∧ content.2.Coherent) :
    tab.Resembles same (built id tab.strip.metrics
      ⟨tab.strip.core.font, tab.strip.core.scale, tab.strip.settings⟩ tab.strip.core.rect contents
      tab.strip.selected) := by
  let settings : Settings K := ⟨tab.strip.core.font, tab.strip.core.scale, tab.strip.settings⟩
  let new : Tab K := .new id tab.strip.metrics settings
  have hlength : contents.length = tab.pages.length := by
    simpa [hselection.length_eq] using congrArg List.length htitles
  have hstrip : (new.placeBy View.place (.allocate tab.strip.core.rect)).value.strip =
      new.strip.placed (.allocate tab.strip.core.rect) := placeBy_strip View.place new _
  have hlook : new.strip.core.SameLook
      (new.strip.placed (.allocate tab.strip.core.rect)).core :=
    (new.strip.core.sameLook_allocate _).trans (ViewCore.stays_invalidate _).toSameLook
  have hplaced := new.strip.placed_core hsame (.allocate tab.strip.core.rect)
  have hstands := (tended_built contents tab.strip.selected id tab.strip.metrics settings
    tab.strip.core.rect hsame hcontents).1.stands
  rw [hstrip] at hstands
  have htracks := tracks_built contents tab.strip.selected id tab.strip.metrics settings
    tab.strip.core.rect
  have hcurrent := currentAt_building contents tab.strip.selected
    (fun hnone => List.length_eq_zero_iff.mp (by
      rw [hlength, hselection.selected_eq_none.mp hnone, List.length_nil]))
    (fun index hindex => hlength ▸ hselection.selected_lt index hindex)
  constructor
  · exact hstands.metrics_eq
  · exact hstands.settings_eq
  · exact hstands.look.font_eq.trans hlook.font_eq
  · exact hstands.look.scale_eq.trans hlook.scale_eq
  · rw [hstands.rect_eq]
    exact hplaced.1.symm hsame
  · rw [htracks.titles, titles_building, htitles]
  · rw [← htracks.current.index?_eq htracks.numbered, hcurrent.index?_eq htracks.numbered]

end Tab

namespace View

/-- The items and the selected page lie where they would lie in a tab that is built from the present
font, scale factor, place, titles and selection, with any pages, and the smallest sizes are those of
that tab. Coordinates that compare equal count as the same. -/
theorem reachable_layout (hsame : Coord.IsCongruence same) {root : View K}
    (h : root.Reachable Proper) {path : List Branch} {tab : Tab K}
    (hat : root.at? path = some tab.toView) (id : ViewId) {pages : List (View K)}
    (hlength : pages.length = tab.pages.length) (hpages : ∀ page ∈ pages, page.Reachable Proper) :
    let settings : Settings K := ⟨tab.strip.core.font, tab.strip.core.scale, tab.strip.settings⟩
    let fresh := Tab.built id tab.strip.metrics settings tab.strip.core.rect
      ((tab.strip.items.map (·.title)).zip pages) tab.strip.selected
    List.Forall₂ (Rect.Same same) (tab.strip.items.map (·.core.rect))
        (fresh.strip.items.map (·.core.rect)) ∧
      Option.Rel (Rect.Same same) (tab.selectedPage?.map (·.core.rect))
        (fresh.selectedPage?.map (·.core.rect)) ∧
      tab.strip.minimumSize.Same same fresh.strip.minimumSize ∧
      tab.minimumSize.Same same fresh.minimumSize := by
  intro settings fresh
  have htidy : tab.Tidy same := (tidy_toView.mp (EveryTab.at? (h.tidy hsame) hat)).1
  have hselection : tab.Selection := h.respects.coherent path tab hat
  have htitles : ((tab.strip.items.map (·.title)).zip pages).map Prod.fst =
      tab.strip.items.map (·.title) := by
    apply List.map_fst_zip
    exact Nat.le_of_eq (by rw [List.length_map, hselection.length_eq, hlength])
  have hcontents : ∀ content ∈ (tab.strip.items.map (·.title)).zip pages,
      content.2.Tidy same ∧ content.2.Coherent := by
    intro content hm
    have hpage := hpages content.2 (List.of_mem_zip hm).2
    exact ⟨hpage.tidy hsame, hpage.respects.coherent⟩
  have hresembles := tab.resembles_built hsame id hselection htitles hcontents
  obtain ⟨hfresh, hcoherent⟩ := Tab.tended_built _ tab.strip.selected id tab.strip.metrics settings
    tab.strip.core.rect hsame hcontents
  have htidy' := (tidy_toView.mp hfresh.tidy).1
  obtain ⟨hitems, hpage⟩ := hresembles.places htidy htidy' hsame hselection hcoherent.selection
  exact ⟨hitems, hpage, hresembles.minimumSize htidy htidy' hsame hitems⟩

/-- Titles that came before the scale factor was changed and the second page was selected. -/
theorem reachable_layout_rescaled :
    let metrics : TextMetrics Rat := ⟨fun text _ => ⟨text.length, 10⟩⟩
    let page (number : Nat) : View Rat := .plain (.new (.view number)) ⟨"crate", "Page"⟩
    let root := (Tab.new (.view 0) metrics .standard).toView.run
      [.addPage "one" (page 1), .place (.allocate ⟨5, 5, 105, 105⟩), .addPage "second" (page 2),
        .selectPage 1, .place (.rescale 2)]
    ∃ tab : Tab Rat, root.at? [] = some tab.toView ∧ tab.pages.length = 2 ∧
      List.Forall₂ (Rect.Same Eq) (tab.strip.items.map (·.core.rect))
        ((Tab.built (.view 3) tab.strip.metrics ⟨tab.strip.core.font, 2, tab.strip.settings⟩
          ⟨5, 5, 105, 105⟩ [("one", page 4), ("second", page 5)] (some 1)).strip.items.map
            (·.core.rect)) := by
  intro metrics page root
  have hpage : ∀ number, (page number).Reachable Proper := fun _ => .plain _ _
  have hroot : root.Reachable Proper :=
    (Reachable.tab _ _ _).run (by simp) (by simp [ViewStep.added?, hpage])
  have hpresent : root.tab?.map (fun tab =>
      ((tab.pages.length, tab.strip.core.scale, tab.strip.core.rect),
        (tab.strip.items.map (·.title), tab.strip.selected))) =
      some ((2, 2, ⟨5, 5, 105, 105⟩), (["one", "second"], some 1)) := by decide +kernel
  obtain ⟨tab, htab, hpresent⟩ := Option.map_eq_some_iff.mp hpresent
  simp only [Prod.mk.injEq] at hpresent
  obtain ⟨⟨hlength, hscale, hrect⟩, htitles, hselected⟩ := hpresent
  have hat : root.at? [] = some tab.toView := congrArg some (eq_toView_of_tab? htab)
  have hcount : [page 4, page 5].length = tab.pages.length := hlength.symm
  have hlayout := reachable_layout Coord.isCongruence_eq hroot hat (.view 3) hcount (by simp [hpage])
  rw [hscale, hrect, htitles, hselected] at hlayout
  have hcontents : ["one", "second"].zip [page 4, page 5] = [("one", page 4), ("second", page 5)] :=
    rfl
  rw [hcontents] at hlayout
  exact ⟨tab, hat, hlength, hlayout.1⟩

end View

end WidgetToolkit
