import WidgetToolkit.Proofs.Focus.Mirror
import WidgetToolkit.Proofs.View.Highlight
import WidgetToolkit.Proofs.View.Own
import WidgetToolkit.Proofs.View.Visiting

/-! # Which views a tab has

A visitor of a tab is shown all items and all pages, while a tab that is asked for an identity looks at
its items and at the selected page. The two agree on what can be seen: as long as pages are shown and
hidden by their tabs only, the selected page is the one that is visible. -/

namespace WidgetToolkit

variable {K : Type}

theorem ViewId.ne_item (id : ViewId) (number : Nat) : id ≠ .item id number := by
  induction id generalizing number with
  | view => simp
  | item tab own ih =>
      intro h
      exact ih own (ViewId.item.inj h).1

namespace Tab

variable {tab : Tab K}

/-! ## All children -/

/-- The items with their pages. -/
def pairs (tab : Tab K) : List (TabItem K × View K) := tab.strip.items.zip tab.pages

theorem map_fst_pairs (hlength : tab.strip.items.length = tab.pages.length) :
    tab.pairs.map Prod.fst = tab.strip.items :=
  List.map_fst_zip hlength.le

theorem map_snd_pairs (hlength : tab.strip.items.length = tab.pages.length) :
    tab.pairs.map Prod.snd = tab.pages :=
  List.map_snd_zip hlength.ge

/-- Every item, and after it its page. -/
def interleaved (tab : Tab K) (reverse : Bool) : List (View K) :=
  (if reverse then tab.pairs.reverse else tab.pairs).flatMap fun pair => [.item pair.1, pair.2]

theorem sequence_eq_interleaved (hlength : tab.strip.items.length = tab.pages.length)
    (reverse : Bool) : tab.sequence reverse = tab.interleaved reverse := by
  have hblocks : tab.toView.blocks =
      tab.pairs.map fun pair : TabItem K × View K => [View.item pair.1, pair.2] := rfl
  rw [View.sequence_eq_blocks hlength.le, interleaved, hblocks]
  cases reverse with
  | false => exact (List.flatMap_def ..).symm
  | true =>
      rw [if_pos rfl, if_pos rfl, ← List.map_reverse]
      exact (List.flatMap_def ..).symm

/-- In either order, the children are the items and the pages. -/
theorem interleaved_perm (hlength : tab.strip.items.length = tab.pages.length) (reverse : Bool) :
    (tab.interleaved reverse).Perm (tab.strip.items.map .item ++ tab.pages) := by
  have hordered : (if reverse then tab.pairs.reverse else tab.pairs).Perm tab.pairs := by
    cases reverse
    · exact .refl _
    · exact List.reverse_perm _
  have hitems : (tab.pairs.flatMap fun pair => [View.item pair.1]) =
      tab.strip.items.map .item := by
    rw [← List.map_eq_flatMap, ← map_fst_pairs hlength, List.map_map]
    rfl
  have hpages : (tab.pairs.flatMap fun pair => [pair.2]) = tab.pages := by
    rw [← List.map_eq_flatMap]
    exact map_snd_pairs hlength
  have hsplit := List.flatMap_append_perm tab.pairs (fun pair => [View.item pair.1])
    fun pair => [pair.2]
  rw [hitems, hpages] at hsplit
  exact (hordered.flatMap_right _).trans hsplit.symm

/-- A tab has the items and the pages that can be seen. -/
theorem Selection.hasChild_iff (h : tab.Selection) (id : ViewId) :
    tab.hasChild id = true ↔ ∃ pair ∈ tab.pairs,
      pair.1.core.id = id ∨ pair.2.core.visible = true ∧ pair.2.id = id := by
  simp only [hasChild, Bool.or_eq_true, Option.any_eq_true, List.any_eq_true, beq_iff_eq]
  constructor
  · rintro (⟨page, hselected, rfl⟩ | ⟨item, hitem, rfl⟩)
    · obtain ⟨index, hindex, hpage⟩ := Option.bind_eq_some_iff.mp hselected
      have hvisible := (h.page_visible index page hpage).mpr hindex
      rw [← map_snd_pairs h.length_eq] at hpage
      obtain ⟨pair, hpair, rfl⟩ := List.mem_map.mp (List.mem_of_getElem? hpage)
      exact ⟨pair, hpair, .inr ⟨hvisible, rfl⟩⟩
    · rw [← map_fst_pairs h.length_eq] at hitem
      obtain ⟨pair, hpair, rfl⟩ := List.mem_map.mp hitem
      exact ⟨pair, hpair, .inl rfl⟩
  · rintro ⟨⟨item, page⟩, hpair, rfl | ⟨hvisible, rfl⟩⟩
    · exact .inr ⟨item, (List.of_mem_zip hpair).1, rfl⟩
    · obtain ⟨index, hpair⟩ := List.mem_iff_getElem?.mp hpair
      have hpage := (List.getElem?_zip_eq_some.mp hpair).2
      have hselected := (h.page_visible index page hpage).mp hvisible
      exact .inl ⟨page, by simp [selectedPage?, hselected, hpage], rfl⟩

theorem hasChild_eq_false {id : ViewId} (hitem : id ∉ tab.strip.items.map (·.core.id))
    (hpage : id ∉ tab.pages.map View.id) : tab.hasChild id = false := by
  rw [hasChild, Bool.or_eq_false_iff, Option.any_eq_false, List.any_eq_false]
  constructor
  · intro page hselected
    exact beq_false_of_ne fun hid =>
      hpage (hid ▸ List.mem_map_of_mem (mem_of_selectedPage? hselected))
  · intro item hm heq
    exact hitem (eq_of_beq heq ▸ List.mem_map_of_mem hm)

/-! ## Identities -/

/-- The pages of a tab have different identities, that are neither the one of the tab nor one that it
gives to an item. -/
structure ToldApart (tab : Tab K) : Prop where
  nodup : (tab.pages.map View.id).Nodup
  own : tab.strip.core.id ∉ tab.pages.map View.id
  item : ∀ number, .item tab.strip.core.id number ∉ tab.pages.map View.id

/-- All children have different identities. -/
theorem ToldApart.nodup_interleaved (h : tab.ToldApart) (hnumbered : tab.strip.Numbered)
    (hlength : tab.strip.items.length = tab.pages.length) (reverse : Bool) :
    ((tab.interleaved reverse).map View.id).Nodup := by
  have hids := (interleaved_perm hlength reverse).map View.id
  rw [List.map_append, List.map_map] at hids
  refine hids.nodup_iff.mpr (List.nodup_append.mpr ⟨hnumbered.nodup, h.nodup, ?_⟩)
  rintro itemId hitem _ hpage rfl
  obtain ⟨number, -, rfl⟩ := hnumbered.made itemId hitem
  exact h.item number hpage

/-- A tab is not one of its children. -/
theorem ToldApart.hasChild_own (h : tab.ToldApart) (hnumbered : tab.strip.Numbered) :
    tab.hasChild tab.strip.core.id = false := by
  refine hasChild_eq_false (fun hm => ?_) h.own
  obtain ⟨number, -, hnumber⟩ := hnumbered.made _ hm
  exact tab.strip.core.id.ne_item number hnumber

end Tab

/-! ## What is gone -/

namespace TabStrip

variable {strip : TabStrip K} {id : ViewId}

/-- The strip will not give an identity to an item. -/
def Spent (id : ViewId) (strip : TabStrip K) : Prop :=
  ∀ number, strip.made ≤ number → id ≠ .item strip.core.id number

/-- No item has an identity, and none will get it. -/
structure Lacks (id : ViewId) (strip : TabStrip K) : Prop where
  spent : strip.Spent id
  absent : id ∉ strip.items.map (·.core.id)

theorem Spent.congr {strip' : TabStrip K} (h : strip.Spent id)
    (hid : strip'.core.id = strip.core.id) (hmade : strip'.made = strip.made) :
    strip'.Spent id := by
  rw [Spent, hid, hmade]
  exact h

theorem Numbered.spent (h : strip.Numbered) (hm : id ∈ strip.items.map (·.core.id)) :
    strip.Spent id := by
  intro number hnumber hid
  obtain ⟨made, hlt, hmade⟩ := h.made id hm
  have hsame := (ViewId.item.inj (hmade.symm.trans hid)).2
  omega

variable [Coord K]

theorem Spent.pushItem (h : strip.Spent id) (title : String) : (strip.pushItem title).Spent id :=
  fun number hnumber => h number (Nat.le_of_succ_le hnumber)

theorem Lacks.pushItem (h : strip.Lacks id) (title : String) :
    (strip.pushItem title).Lacks id := by
  refine ⟨h.spent.pushItem title, fun hm => ?_⟩
  simp only [TabStrip.pushItem, List.map_append, List.map_singleton, Tab.newItem_core_id,
    List.mem_append, List.mem_singleton] at hm
  exact hm.elim h.absent (h.spent strip.made le_rfl)

theorem kept_spent (id : ViewId) :
    TabStrip.Kept (fun entry entry' => entry'.core.id = entry.core.id)
      (TabStrip.Spent (K := K) id) :=
  kept_of_ids (fun h _ => h.congr) (fun title h => h.pushItem title) fun _ _ h => h

theorem kept_lacks (id : ViewId) :
    TabStrip.Kept (fun entry entry' => entry'.core.id = entry.core.id)
      (TabStrip.Lacks (K := K) id) := by
  apply kept_of_ids
  · exact fun h hids hid hmade => ⟨h.spent.congr hid hmade, hids ▸ h.absent⟩
  · exact fun title h => h.pushItem title
  · intro strip index _ h
    have hsublist := (List.eraseIdx_sublist strip.items index).map (·.core.id)
    exact ⟨h.spent, fun hm => h.absent (hsublist.subset hm)⟩

end TabStrip

/-- A step adds a page with an identity to the tab itself. -/
def ViewStep.Brings (id : ViewId) (path : List Branch) (step : ViewStep K) : Prop :=
  path = [] ∧ ∃ page, step.added? = some page ∧ page.id = id

namespace Tab

variable {tab : Tab K} {id : ViewId}

/-- Neither an item nor a page has an identity, and no item will get it. -/
structure Lacks (id : ViewId) (tab : Tab K) : Prop where
  strip : tab.strip.Lacks id
  page : id ∉ tab.pages.map View.id

theorem Lacks.hasChild (h : tab.Lacks id) : tab.hasChild id = false :=
  hasChild_eq_false h.strip.absent h.page

/-- Only a page that is added can be one that was not there. -/
theorem mem_pageIdsAfter {step : ViewStep K} (hm : id ∈ tab.pageIdsAfter step) :
    id ∈ tab.pages.map View.id ∨ ∃ page, step.added? = some page ∧ page.id = id := by
  cases step with
  | addPage title page =>
      rcases List.mem_append.mp hm with hm | hm
      · exact .inl hm
      · exact .inr ⟨page, rfl, (List.mem_singleton.mp hm).symm⟩
  | removePage index => exact .inl (List.mem_of_mem_eraseIdx hm)
  | _ => exact .inl hm

variable [Coord K] {allowed : View K → List Branch → ViewStep K → Prop} {tab' : Tab K}
  {path : List Branch} {step : ViewStep K}

theorem Lacks.of_goes (h : tab.Lacks id) (hpaired : tab.Paired)
    (hgoes : tab.Goes allowed path step tab') (hbrings : ¬step.Brings id path) : tab'.Lacks id := by
  constructor
  · exact (TabStrip.kept_lacks id).own_stepAt (fun _ _ _ => View.step_item_id) h.strip hgoes.result
  · rw [pageIds_stepAt hpaired hgoes.result]
    split
    · rename_i hown
      exact fun hm => (mem_pageIdsAfter hm).elim h.page fun hadded => hbrings ⟨hown, hadded⟩
    · exact h.page

/-- What a tab lacks it gets only as a page that is added to it. -/
theorem Lacks.of_goes_trans (h : tab.Lacks id) (hpaired : tab.toView.Paired)
    (hgoes : Relation.ReflTransGen (fun before after : Tab K =>
      ∃ path step, before.Goes allowed path step after ∧ ¬step.Brings id path) tab tab') :
    tab'.toView.Paired ∧ tab'.Lacks id := by
  induction hgoes with
  | refl => exact ⟨hpaired, h⟩
  | tail _ hstep ih =>
      obtain ⟨hbefore, hlacks⟩ := ih
      obtain ⟨path, step, hgoes, hbrings⟩ := hstep
      have hafter := (hbefore.stepAt path fun page hadded => (hgoes.added page hadded).paired).2
      exact ⟨hgoes.result ▸ hafter, hlacks.of_goes (hbefore [] _ rfl) hgoes hbrings⟩

/-- A tab lacks the item and the page that it has removed. -/
theorem ToldApart.lacks_removePage (h : tab.ToldApart) (hnumbered : tab.strip.Numbered)
    (hpaired : tab.Paired) {index : Nat} {item : TabItem K} {page : View K}
    (hitem : tab.strip.items[index]? = some item) (hpage : tab.pages[index]? = some page) :
    (tab.removePage index).value.2.Lacks item.core.id ∧
      (tab.removePage index).value.2.Lacks page.id := by
  have hitemId : item.core.id ∈ tab.strip.items.map (·.core.id) :=
    List.mem_map_of_mem (List.mem_of_getElem? hitem)
  have hpageId : page.id ∈ tab.pages.map View.id :=
    List.mem_map_of_mem (List.mem_of_getElem? hpage)
  obtain ⟨-, hturns, -⟩ := removePage_turns hpaired hpage
  have hpages : (tab.removePage index).value.2.pages.map View.id =
      (tab.pages.eraseIdx index).map View.id := hturns.ids_eq
  constructor
  · obtain ⟨made, -, hmade⟩ := hnumbered.made _ hitemId
    refine ⟨⟨?_, ?_⟩, ?_⟩
    · exact (TabStrip.kept_spent _).own_removePage (hnumbered.spent hitemId) index
    · intro hm
      obtain ⟨other, hother, hid⟩ := List.mem_map.mp hm
      exact (View.removePage_forgets hnumbered hpaired hitem).2 other hother hid
    · rw [hpages, hmade]
      exact fun hm => h.item made (((List.eraseIdx_sublist ..).map _).subset hm)
  · -- the tab will not give the identity of a page to an item, and has not done so
    have hlacks : tab.strip.Lacks page.id := by
      refine ⟨fun number _ hid => h.item number (hid ▸ hpageId), fun hm => ?_⟩
      obtain ⟨number, -, hid⟩ := hnumbered.made _ hm
      exact h.item number (hid ▸ hpageId)
    refine ⟨(TabStrip.kept_lacks _).own_removePage hlacks index, ?_⟩
    rw [hpages, eraseIdx_eq_filter_of_nodup h.nodup hpage]
    simp

end Tab

namespace View

variable [Coord K]

/-- In every tab that is reached, every visitor is shown the items and the pages in turn, up to the
first one after which it has seen enough. The tab has the items and those pages among them that can be
seen. If the pages are told apart, it shows no view twice, it does not have itself, and what it has
removed it has no more, until that is added again. -/
theorem reachable_membership {root : View K} (h : root.Reachable Respects) {path : List Branch}
    {tab : Tab K} (hat : root.at? path = some tab.toView) :
    tab.strip.items.length = tab.pages.length ∧
      (∀ reverse, tab.toView.Exhibits reverse (tab.interleaved reverse)) ∧
      (∀ id, tab.hasChild id = true ↔ ∃ pair ∈ tab.pairs,
        pair.1.core.id = id ∨ pair.2.core.visible = true ∧ pair.2.id = id) ∧
      (tab.ToldApart →
        (∀ reverse, ((tab.interleaved reverse).map View.id).Nodup) ∧
        tab.hasChild tab.strip.core.id = false ∧
        ∀ (index : Nat) item page, tab.strip.items[index]? = some item →
          tab.pages[index]? = some page → ∀ gone ∈ [item.core.id, page.id], ∀ tab' : Tab K,
          Relation.ReflTransGen (fun before after => ∃ path step,
              before.Goes (fun _ _ _ => True) path step after ∧ ¬step.Brings gone path)
            (tab.removePage index).value.2 tab' →
          tab'.hasChild gone = false) := by
  have hselection : tab.Selection := h.coherent path tab hat
  have hnumbered : tab.strip.Numbered := h.numbered path tab hat
  have hpaired : tab.toView.Paired := EveryTab.at? h.paired hat
  refine ⟨hselection.length_eq, fun reverse => ?_, hselection.hasChild_iff, fun htold =>
    ⟨htold.nodup_interleaved hnumbered hselection.length_eq, htold.hasChild_own hnumbered,
      fun index item page hitem hpage gone hgone tab' hgoes => ?_⟩⟩
  · rw [← Tab.sequence_eq_interleaved hselection.length_eq]
    exact tab.toView.exhibits_children reverse
  · obtain ⟨hlacksItem, hlacksPage⟩ :=
      htold.lacks_removePage hnumbered (hpaired [] _ rfl) hitem hpage
    have hlacks : (tab.removePage index).value.2.Lacks gone := by
      rcases List.mem_pair.mp hgone with rfl | rfl
      · exact hlacksItem
      · exact hlacksPage
    exact (hlacks.of_goes_trans (hpaired.removePage index).2 hgoes).2.hasChild

/-- The first of two pages is removed, and a third one is added. -/
theorem reachable_membership_removed :
    let page (number : Nat) : View Rat := .plain (.new (.view number)) ⟨"crate", "Page"⟩
    let two := (Tab.new (.view 0) ⟨fun _ _ => ⟨8, 10⟩⟩ .standard).toView.run
      [.addPage "one" (page 1), .addPage "two" (page 2)]
    two.Reachable Respects ∧ ∃ tab tab' : Tab Rat, two = tab.toView ∧ tab.ToldApart ∧
      two.run [.removePage 0, .addPage "three" (page 3)] = tab'.toView ∧
      tab.toView.Exhibits true (tab.interleaved true) ∧
      (tab.interleaved true).map View.id =
        [.item (.view 0) 1, .view 2, .item (.view 0) 0, .view 1] ∧
      tab.hasChild (.view 1) = true ∧ tab'.hasChild (.view 1) = false := by
  intro page two
  have htwo : two.Reachable Respects :=
    (Reachable.tab _ _ _).run_of_allowed (by simp [Respects, ViewStep.showsOrHides])
      (by simp [ViewStep.added?, Reachable.plain, page])
  have hfacts : two.tab?.map (fun tab => (tab.strip.core.id, tab.pages.map View.id,
      (tab.interleaved true).map View.id, tab.hasChild (.view 1))) =
      some (.view 0, [.view 1, .view 2],
        [.item (.view 0) 1, .view 2, .item (.view 0) 0, .view 1], true) := by decide +kernel
  obtain ⟨tab, htab, hfacts⟩ := Option.map_eq_some_iff.mp hfacts
  have hview : two = tab.toView := eq_toView_of_tab? htab
  simp only [Prod.mk.injEq] at hfacts
  obtain ⟨hid, hpages, hshown, hbefore⟩ := hfacts
  have htold : tab.ToldApart := by
    constructor <;> simp [hid, hpages]
  obtain ⟨hlength, hexhibits, -, hapart⟩ :=
    reachable_membership htwo (show two.at? [] = some tab.toView from congrArg some hview)
  obtain ⟨-, -, hremoved⟩ := hapart htold
  obtain ⟨first, hfirst, hfirstId⟩ : ∃ first, tab.pages[0]? = some first ∧ first.id = .view 1 := by
    have hfirst := congrArg (·[0]?) hpages
    rw [List.getElem?_map] at hfirst
    exact Option.map_eq_some_iff.mp hfirst
  obtain ⟨item, hitem⟩ : ∃ item, tab.strip.items[0]? = some item := by
    have hlt := (List.getElem?_eq_some_iff.mp hfirst).1
    exact ⟨_, List.getElem?_eq_getElem (hlength ▸ hlt)⟩
  let tab' : Tab Rat := ((tab.removePage 0).value.2.addPage "three" (page 3)).value
  have hgoes : (tab.removePage 0).value.2.Goes (fun _ _ _ => True) [] (.addPage "three" (page 3))
      tab' := by
    refine ⟨trivial, ?_, rfl⟩
    rintro _ ⟨⟩
    exact .plain _ _
  have hbrings : ¬(ViewStep.addPage "three" (page 3)).Brings first.id [] := by
    rw [hfirstId]
    simp [ViewStep.Brings, ViewStep.added?, page, View.id, View.core, ViewCore.new]
  have hafter := hremoved 0 item first hitem hfirst first.id (by simp) tab'
    (.single ⟨_, _, hgoes, hbrings⟩)
  refine ⟨htwo, tab, tab', hview, htold, ?_, hexhibits true, hshown, hbefore, hfirstId ▸ hafter⟩
  rw [hview]
  rfl

end View

end WidgetToolkit
