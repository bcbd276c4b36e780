import WidgetToolkit.Proofs.View.Proper
import WidgetToolkit.Proofs.View.Turning

/-! # When observers of a tab are told

They are told once if another page is selected, and also, if the settings say so, when the selected
page is asked for again. What they are shown is the tab as it is when everything is done. -/

namespace WidgetToolkit

variable {K : Type} [Coord K]

namespace Tab

/-- Whether a step asks for the page that is selected already. -/
def readdresses (tab : Tab K) : ViewStep K → Bool
  | .selectPage index => tab.strip.selected == some index
  | .click event => (tab.addressed? event).any fun index => tab.strip.selected == some index
  | _ => false

/-- What observers are told of when a tab has become another. -/
structure Reports (tab : Tab K) (again : Bool) (tab' : Tab K) (announced : List (Tab K)) : Prop where
  own : (announced.filter fun told => told.strip.core.id = tab.strip.core.id) =
    if tab'.currentId? ≠ tab.currentId? ∨ again = true then [tab'] else []
  voices : ∀ told ∈ announced, tab.toView.Voices tab'.toView told

variable {tab tab' : Tab K}

omit [Coord K] in
theorem reports_if {again : Bool} {changed : Prop} [Decidable changed]
    (hid : tab'.strip.core.id = tab.strip.core.id)
    (hchanged : changed ↔ tab'.currentId? ≠ tab.currentId? ∨ again = true) :
    tab.Reports again tab' (if changed then [tab'] else []) := by
  constructor
  · rw [← if_congr hchanged rfl rfl]
    split <;> simp [hid]
  · intro told hm
    split at hm
    · obtain rfl := List.mem_singleton.mp hm
      exact ⟨[], tab.toView, rfl, hid.symm, rfl⟩
    · cases hm

omit [Coord K] in
theorem Turns.reports (h : tab.Turns tab.strip.selected tab') : tab.Reports false tab' [] := by
  have hnone : tab.Reports false tab' (if False then [tab'] else []) :=
    reports_if h.id_eq (by simp [h.currentId?_same])
  exact hnone

/-! ## Identities -/

section

variable (hregular : tab.toView.Regular)

include hregular

omit [Coord K] in
theorem nodup_ids : (tab.pages.map View.id).Nodup := by
  refine List.nodup_iff_getElem?_ne_getElem?.mpr fun i j hij hj heq => ?_
  rw [List.length_map] at hj
  have hchild := List.getElem?_eq_getElem (Nat.lt_trans hij hj)
  have hchild' := List.getElem?_eq_getElem hj
  rw [List.getElem?_map, List.getElem?_map, hchild, hchild'] at heq
  have hbranch : Branch.child i = .child j :=
    hregular.branch_eq hchild hchild' (Option.some.inj heq)
  exact Nat.ne_of_lt hij (Branch.child.inj hbranch)

omit [Coord K] in
theorem indexOf?_of_regular {index : Nat} {entry : TabItem K}
    (hentry : tab.strip.items[index]? = some entry) :
    tab.strip.indexOf? entry.core.id = some index := by
  have hbranch : ∀ {index : Nat} {entry : TabItem K}, tab.strip.items[index]? = some entry →
      tab.toView.branch? (.item index) = some (.item entry) := fun hentry => by
    simp [toView, View.branch?, hentry]
  obtain ⟨hi, rfl⟩ := List.getElem?_eq_some_iff.mp hentry
  refine List.findIdx?_eq_some_iff_getElem.mpr ⟨hi, by simp, fun j hj hid => ?_⟩
  have hother := List.getElem?_eq_getElem (Nat.lt_trans hj hi)
  have hsame := hregular.branch_eq (hbranch hother) (hbranch hentry) (eq_of_beq hid)
  exact Nat.ne_of_lt hj (Branch.item.inj hsame)

omit [Coord K] in
/-- What is told of a page is not told of the tab. -/
theorem reports_page {index : Nat} {page : View K} (hpage : tab.pages[index]? = some page)
    {told : Told (Notice K) (Bool × View K)} (hanswers : page.Answers told) :
    tab.Reports false { tab with pages := tab.pages.set index told.value.2 } told.announced := by
  have hchild : tab.toView.branch? (.child index) = some page := hpage
  have hturns : tab.Turns tab.strip.selected
      { tab with pages := tab.pages.set index told.value.2 } :=
    ⟨rfl, rfl, rfl, forall₂_set View.Follows.refl hpage hanswers.follows⟩
  constructor
  · rw [hturns.currentId?_same, if_neg (by simp), List.filter_eq_nil_iff]
    intro other hm
    obtain ⟨path, below, hat, hid, -⟩ := hanswers.voices other hm
    rw [← View.at?_cons_of_branch? hchild] at hat
    have hne : below.id ≠ tab.strip.core.id := hregular.id_ne hat
    rw [hid] at hne
    simpa using hne
  · intro other hm
    refine (hanswers.voices other hm).cons hchild ?_
    exact List.getElem?_set_self (List.getElem?_eq_some_iff.mp hpage).1

/-! ## Steps -/

variable (hpaired : tab.Paired)

include hpaired

/-- An item is selected, which may be the selected one. -/
theorem reports_selectItem {index : Nat} {entry : TabItem K}
    (hentry : tab.strip.items[index]? = some entry) :
    let told := tab.selectItem entry.core.id
    tab.Reports (tab.strip.settings.notifyOnReselect && tab.strip.selected == some index)
      told.value.2 (told.announced ++ if told.value.1 then [told.value.2] else []) := by
  intro told
  have hi : index < tab.pages.length :=
    hpaired.length_eq ▸ (List.getElem?_eq_some_iff.mp hentry).1
  have hselected := selectItem_of_indexOf? (indexOf?_of_regular hregular hentry)
  obtain ⟨hturns, htold⟩ := hselected.value
  have hchanged := hturns.currentId?_ne_iff hpaired hi (nodup_ids hregular)
  rw [hselected.announced_eq, List.nil_append]
  refine reports_if hturns.id_eq (htold.trans ?_)
  rw [hchanged, Bool.and_eq_true, beq_iff_eq]
  by_cases hsame : tab.strip.selected = some index <;> simp [hsame]

theorem reports_selectPage (index : Nat) :
    tab.Reports (tab.strip.settings.notifyOnReselect && tab.readdresses (.selectPage index))
      (tab.selectPage index).value (tab.selectPage index).announced := by
  cases hentry : tab.strip.items[index]? with
  | none =>
      have hselected : tab.strip.selected ≠ some index := by
        intro hselected
        have hlt := hpaired.length_eq ▸ hpaired.lt hselected
        exact absurd (List.getElem?_eq_none_iff.mp hentry) (Nat.not_le_of_lt hlt)
      have hnothing : tab.selectPage index = pure tab := by simp [selectPage, selectItemAt, hentry]
      simp only [hnothing, readdresses, beq_eq_false_iff_ne.mpr hselected, Bool.and_false]
      exact tab.turns_refl.reports
  | some entry =>
      have hvalue : (tab.selectPage index).value = (tab.selectItem entry.core.id).value.2 := by
        rw [selectPage_value, selectItemAt, hentry]
      rw [tab.selectPage_announced hentry, hvalue]
      exact reports_selectItem hregular hpaired hentry

theorem reports_clickBy {click : View K → Told (Notice K) (Bool × View K)}
    (hclick : ∀ page : View K, page.Answers (click page)) (event : PointerEvent K) :
    tab.Reports (tab.strip.settings.notifyOnReselect && tab.readdresses (.click event))
      (tab.clickBy click event).value.2 (tab.clickBy click event).announced := by
  cases haddressed : tab.addressed? event with
  | some index =>
      obtain ⟨entry, hentry, hvalue, hannounced⟩ := clickBy_of_addressed? click haddressed
      rw [hvalue, hannounced, readdresses, haddressed, Option.any_some]
      exact reports_selectItem hregular hpaired hentry
  | none =>
      rw [readdresses, haddressed, Option.any_none, Bool.and_false]
      rcases clickBy_of_addressed?_none click haddressed with
        ⟨hvalue, hannounced⟩ | ⟨index, page, hpage, hvalue, hannounced⟩
      · rw [hvalue, hannounced]
        exact tab.turns_refl.reports
      · rw [hvalue, hannounced]
        exact reports_page hregular hpage (hclick page)

theorem reports_removePage (index : Nat) :
    tab.Reports false (tab.removePage index).value.2 (tab.removePage index).announced := by
  cases hpage : tab.pages[index]? with
  | none =>
      simp only [removePage, hpage]
      exact tab.turns_refl.reports
  | some page =>
      obtain ⟨-, hturns, hannounced⟩ := removePage_turns hpaired hpage
      have hi := (List.getElem?_eq_some_iff.mp hpage).1
      have hchanged := hpaired.currentId?_successor hi (nodup_ids hregular) rfl hturns
      rw [hannounced]
      exact reports_if hturns.id_eq (by simp [hchanged])

omit hregular in
theorem reports_addPage (title : String) (page : View K) :
    tab.Reports false (tab.addPage title page).value (tab.addPage title page).announced := by
  obtain ⟨page', -, hturns, hannounced⟩ := addPage_turns hpaired title page
  have hchanged := hpaired.currentId?_added rfl hturns
  rw [hannounced]
  exact reports_if hturns.id_eq (by simp [hchanged])

theorem reports_step (step : ViewStep K) :
    ∃ tab', (tab.toView.step step).value.2 = tab'.toView ∧
      tab.Reports (tab.strip.settings.notifyOnReselect && tab.readdresses step) tab'
        (tab.toView.step step).announced := by
  by_cases hquiet : step.turns = false
  · have hnever : tab.readdresses step = false := by
      cases step <;> first | rfl | cases hquiet
    have hmeets := tab.quiet_step hquiet
    obtain ⟨tab', hvalue, hturns⟩ := hmeets.value
    rw [hmeets.announced_eq, hnever, Bool.and_false]
    exact ⟨tab', hvalue, hturns.reports⟩
  · cases step with
    | addPage title page =>
        refine ⟨_, rfl, ?_⟩
        simpa [View.step, Tab.step, toView, View.tab?, readdresses] using
          reports_addPage hpaired title page
    | removePage index =>
        refine ⟨_, rfl, ?_⟩
        simpa [View.step, Tab.step, toView, View.tab?, readdresses] using
          reports_removePage hregular hpaired index
    | selectPage index =>
        refine ⟨_, rfl, ?_⟩
        simpa [View.step, Tab.step, toView, View.tab?] using
          reports_selectPage hregular hpaired index
    | click event =>
        have hclick := reports_clickBy hregular hpaired
          (View.answers_clickWithin (View.depths tab.pages) event) event
        refine ⟨_, rfl, ?_⟩
        simpa [View.step, View.click, View.clickWithin, toView, View.depth] using hclick
    | _ => exact absurd rfl hquiet

end

end Tab

namespace View

/-- Observers of a tab are told once in a step if another page is selected afterwards, or if the
selected one was asked for again and the settings say that this counts, and not at all otherwise. Any
tab that observers are told of is one in the tree afterwards. Nothing is told when a page before the
selected one goes. -/
theorem reachable_announces {allowed : View K → List Branch → ViewStep K → Prop} {root : View K}
    (h : root.Reachable allowed) {path : List Branch} {tab : Tab K}
    (hat : root.at? path = some tab.toView) (hregular : tab.toView.Regular) (step : ViewStep K) :
    let told := tab.toView.step step
    ∃ tab' : Tab K, told.value.2 = tab'.toView ∧
      (told.announced.filter fun other => other.strip.core.id = tab.strip.core.id) =
        (if tab'.selectedPage?.map View.id ≠ tab.selectedPage?.map View.id ∨
            (tab.strip.settings.notifyOnReselect && tab.readdresses step) = true
          then [tab'] else []) ∧
      (∀ other ∈ told.announced, ∃ inner, tab'.toView.at? inner = some other.toView) ∧
      ∀ index selected, step = .removePage index → tab.strip.selected = some selected →
        index < selected →
          told.announced = [] ∧ tab'.strip.selected = some (selected - 1) := by
  intro told
  have hpaired : tab.Paired := h.paired path tab hat
  obtain ⟨tab', hvalue, hreports⟩ := Tab.reports_step hregular hpaired step
  refine ⟨tab', hvalue, hreports.own, fun other hm => ?_, ?_⟩
  · obtain ⟨inner, -, -, -, hinner⟩ := hreports.voices other hm
    exact ⟨inner, hinner⟩
  · rintro index selected rfl hselected hbefore
    have hi := Nat.lt_trans hbefore (hpaired.lt hselected)
    obtain ⟨-, hturns, hannounced⟩ :=
      Tab.removePage_turns hpaired (List.getElem?_eq_getElem hi)
    have hother : selected ≠ index := Nat.ne_of_gt hbefore
    have htold : told.announced = (tab.removePage index).announced := by
      simp [told, View.step, Tab.step, Tab.toView, View.tab?]
    obtain rfl : (tab.removePage index).value.2 = tab' :=
      Option.some.inj (congrArg View.tab? hvalue)
    refine ⟨?_, ?_⟩
    · rw [htold, hannounced, if_neg (by simp [hselected, hother])]
    · refine hturns.selected_eq.trans ?_
      simp [Tab.successor, hselected, hother, hbefore]

/-- The first page of two is selected again. -/
theorem reachable_announces_selected_again :
    let metrics : TextMetrics Rat := ⟨fun _ _ => ⟨10, 10⟩⟩
    let page (number : Nat) : View Rat := .plain (.new (.view number)) ⟨"crate", "Page"⟩
    let root := (Tab.new (.view 0) metrics .standard).toView.run
      [.addPage "one" (page 1), .addPage "two" (page 2)]
    ∃ tab tab' : Tab Rat, root.at? [] = some tab.toView ∧
      (tab.toView.step (.selectPage 0)).value.2 = tab'.toView ∧
      ((tab.toView.step (.selectPage 0)).announced.filter fun other =>
        other.strip.core.id = tab.strip.core.id) = [tab'] := by
  intro metrics page root
  have hpage : ∀ number, (page number).Reachable Proper := fun _ => .plain _ _
  have hroot : root.Reachable Proper :=
    (Reachable.tab _ _ _).run (by simp) (by simp [ViewStep.added?, hpage])
  have hregular : root.Regular := by decide +kernel
  have hpresent : root.tab?.map (fun tab =>
      (tab.strip.settings.notifyOnReselect, tab.readdresses (.selectPage 0))) =
      some (true, true) := by decide +kernel
  obtain ⟨tab, htab, hpresent⟩ := Option.map_eq_some_iff.mp hpresent
  obtain ⟨hnotify, hagain⟩ := Prod.mk.inj hpresent
  have hview := eq_toView_of_tab? htab
  have hat : root.at? [] = some tab.toView := congrArg some hview
  obtain ⟨tab', hvalue, hown, -⟩ :=
    reachable_announces hroot hat (hview ▸ hregular) (.selectPage 0)
  rw [if_pos (.inr (by rw [hnotify, hagain]; rfl))] at hown
  exact ⟨tab, tab', hat, hvalue, hown⟩

end View

end WidgetToolkit
