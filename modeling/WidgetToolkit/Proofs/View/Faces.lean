import WidgetToolkit.Proofs.Tab.Faces
import WidgetToolkit.Proofs.View.Hover

/-! # What shows of a step

Every step of a tab is one change of the faces of its items, or none. -/

namespace WidgetToolkit

theorem Fits.lt {count index : Nat} {selected : Option Nat} (h : Fits count selected)
    (hselected : selected = some index) : index < count := by
  rwa [hselected] at h

namespace Tab

variable {K : Type}

theorem toView_inj {tab tab' : Tab K} (h : tab.toView = tab'.toView) : tab = tab' := by
  obtain ⟨hstrip, hpages, hchanged⟩ := View.tab.inj h
  cases tab
  cases tab'
  simp_all

/-- What it comes to that the item at an index is asked for. -/
def asked (tab : Tab K) (index : Nat) : FaceChange :=
  match tab.strip.idAt? index with
  | none => .keep
  | some id =>
    if tab.strip.selected = some index ∧ tab.strip.settings.notifyOnReselect = false then .keep
    else .select id

theorem asked_cases (tab : Tab K) (index : Nat) :
    tab.asked index = .keep ∨ ∃ id, tab.asked index = .select id := by
  unfold asked
  split
  · exact .inl rfl
  · split
    · exact .inl rfl
    · exact .inr ⟨_, rfl⟩

/-- The item after another one, or the first after the last, if there are others. -/
def next? (tab : Tab K) (index : Nat) : Option ViewId :=
  if tab.strip.items.length = 1 then none
  else tab.strip.idAt? ((index + 1) % tab.strip.items.length)

/-- What it comes to that the item at an index goes. -/
def removed (tab : Tab K) (index : Nat) : FaceChange :=
  match tab.strip.idAt? index with
  | none => .keep
  | some id => .remove id (tab.next? index)

variable [Coord K]

/-- What a step of a tab does to the faces of its items. -/
def faceChange (tab : Tab K) : ViewStep K → FaceChange
  | .selectPage index => tab.asked index
  | .click event => (tab.addressed? event).elim .keep tab.asked
  | .addPage _ _ => .add (.item tab.strip.core.id tab.strip.made)
  | .removePage index => tab.removed index
  | .move event => .point (tab.strip.under? event.position)
  | .leave _ => .point none
  | _ => .keep

variable {tab : Tab K}

/-- Items are added and removed with their pages only. -/
theorem faceChange_cases (tab : Tab K) (step : ViewStep K) :
    (∃ title page, step = .addPage title page) ∨ (∃ index, step = .removePage index) ∨
      tab.faceChange step = .keep ∨ (∃ id, tab.faceChange step = .select id) ∨
        ∃ target, tab.faceChange step = .point target := by
  cases step with
  | addPage title page => exact .inl ⟨title, page, rfl⟩
  | removePage index => exact .inr (.inl ⟨index, rfl⟩)
  | move | leave => exact .inr (.inr (.inr (.inr ⟨_, rfl⟩)))
  | selectPage index => exact .inr (.inr ((tab.asked_cases index).imp_right .inl))
  | click event =>
      refine .inr (.inr ?_)
      simp only [faceChange]
      cases tab.addressed? event with
      | none => exact .inl rfl
      | some index => exact (tab.asked_cases index).imp_right .inl
  | _ => exact .inr (.inr (.inl rfl))

/-! ## Selecting -/

theorem map_face_showAt (h : tab.strip.Numbered) {index : Nat} {entry : TabItem K}
    (hentry : tab.strip.items[index]? = some entry) (shown : Bool) :
    (tab.showAt index shown).strip.faces.all =
      tab.strip.faces.all.map fun face =>
        if face.id = entry.core.id then face.setSelected shown else face :=
  TabStrip.map_face_modify h hentry (·.setSelected shown) fun item => item.face_setSelected shown

theorem numbered_showAt (h : tab.strip.Numbered) (index : Nat) (shown : Bool) :
    (tab.showAt index shown).strip.Numbered :=
  TabStrip.lasting_numbered.setSelected index shown h

/-- The tab with the selected item let go of, if that is not the item at an index. -/
def released (tab : Tab K) (index : Nat) : Tab K :=
  match tab.strip.selected with
  | some previous => if previous = index then tab else tab.showAt previous false
  | none => tab

theorem items_moveSelection (tab : Tab K) (index : Nat) :
    (tab.moveSelection index).strip.items =
      ((tab.released index).showAt index true).strip.items :=
  rfl

theorem numbered_released (h : tab.strip.Numbered) (index : Nat) :
    (tab.released index).strip.Numbered := by
  unfold released
  split
  · split
    · exact h
    · exact numbered_showAt h _ false
  · exact h

theorem getElem?_released {index : Nat} {entry : TabItem K}
    (hentry : tab.strip.items[index]? = some entry) :
    (tab.released index).strip.items[index]? = some entry := by
  unfold released
  split
  · split
    · exact hentry
    · rename_i hother
      simp [showAt, TabStrip.modifyItem, hother, hentry]
  · exact hentry

theorem map_face_released (h : tab.strip.Numbered)
    (hlt : ∀ index, tab.strip.selected = some index → index < tab.strip.items.length)
    {index : Nat} {entry : TabItem K} (hentry : tab.strip.items[index]? = some entry) :
    (tab.released index).strip.faces.all =
      tab.strip.faces.all.map fun face =>
        if face.id ≠ entry.core.id ∧ tab.strip.faces.current = some face.id then
          face.setSelected false
        else face := by
  cases hselected : tab.strip.selected with
  | none =>
      have hcurrent : tab.strip.faces.current = none := by
        simp [TabStrip.faces, TabStrip.selectedId?, hselected]
      simp [released, hselected, hcurrent]
  | some previous =>
      obtain ⟨old, hold⟩ : ∃ old, tab.strip.items[previous]? = some old :=
        ⟨_, List.getElem?_eq_getElem (hlt previous hselected)⟩
      have hcurrent := (TabStrip.current_eq_some_iff h hold).mpr hselected
      by_cases hsame : previous = index
      · -- The selected item is the one at the index, and no other item is selected.
        obtain rfl : old = entry := by
          rw [hsame, hentry] at hold
          exact (Option.some.inj hold).symm
        simp [released, hselected, hsame, hcurrent, eq_comm]
      · have hne : old.core.id ≠ entry.core.id := fun hid =>
          hsame (eq_of_key_eq h.nodup hentry hold hid)
        simp only [released, hselected, if_neg hsame, map_face_showAt h hold]
        refine List.map_congr_left fun face _ => if_congr ?_ rfl rfl
        rw [hcurrent, Option.some.injEq, eq_comm]
        exact ⟨fun hid => ⟨hid ▸ hne, hid⟩, And.right⟩

theorem all_moveSelection (h : tab.strip.Numbered)
    (hlt : ∀ index, tab.strip.selected = some index → index < tab.strip.items.length)
    {index : Nat} {entry : TabItem K} (hentry : tab.strip.items[index]? = some entry) :
    (tab.moveSelection index).strip.faces.all =
      tab.strip.faces.all.map (tab.strip.faces.redress (.select entry.core.id)) := by
  have hshown := map_face_showAt (numbered_released h index) (getElem?_released hentry) true
  change (tab.moveSelection index).strip.items.map TabItem.face = _
  rw [items_moveSelection]
  refine hshown.trans ?_
  rw [map_face_released h hlt hentry, List.map_map]
  refine List.map_congr_left fun face _ => ?_
  simp only [Function.comp_apply, Faces.redress]
  by_cases hid : face.id = entry.core.id
  · simp [hid]
  · split <;> simp_all [Face.setSelected]

theorem faces_moveSelection (h : tab.strip.Numbered)
    (hlt : ∀ index, tab.strip.selected = some index → index < tab.strip.items.length)
    {index : Nat} {entry : TabItem K} (hentry : tab.strip.items[index]? = some entry) :
    (tab.moveSelection index).strip.faces = tab.strip.faces.change (.select entry.core.id) := by
  have hall := all_moveSelection h hlt hentry
  refine Faces.ext hall ?_ ?_
  · change (tab.moveSelection index).strip.selectedId? = some entry.core.id
    have hselected : (tab.moveSelection index).strip.selected = some index := rfl
    rw [TabStrip.selectedId?_eq, hall, hselected, Option.bind_some, List.map_map]
    simp [TabStrip.faces, hentry, TabItem.face]
  · simp only [moveSelection]
    split
    · split <;> rfl
    · rfl

theorem faces_tabLayout (tab : Tab K) : tab.layout.value.strip.faces = tab.strip.faces := by
  have hstrip : tab.layout.value.strip = tab.strip.layout := layoutBy_strip View.place tab
  rw [hstrip, TabStrip.faces_layout]

section

variable (h : tab.strip.Numbered) (hfits : Fits tab.strip.items.length tab.strip.selected)

include h hfits

theorem faces_selectItem {index : Nat} {entry : TabItem K}
    (hentry : tab.strip.items[index]? = some entry) :
    (tab.selectItem entry.core.id).value.2.strip.faces =
      tab.strip.faces.change (tab.asked index) := by
  simp only [selectItem, h.indexOf? hentry, asked, TabStrip.idAt?, hentry, Option.map_some]
  split
  · rfl
  · rw [← faces_moveSelection h (fun _ => hfits.lt) hentry]
    exact faces_tabLayout _

theorem faces_selectPage (index : Nat) :
    (tab.selectPage index).value.strip.faces = tab.strip.faces.change (tab.asked index) := by
  rw [selectPage_value, selectItemAt]
  cases hentry : tab.strip.items[index]? with
  | none =>
      simp only [asked, TabStrip.idAt?, hentry, Option.map_none]
      rfl
  | some entry => exact faces_selectItem h hfits hentry

theorem faces_clickBy (click : View K → Told (Notice K) (Bool × View K))
    (event : PointerEvent K) :
    (tab.clickBy click event).value.2.strip.faces =
      tab.strip.faces.change ((tab.addressed? event).elim .keep tab.asked) := by
  cases haddressed : tab.addressed? event with
  | some index =>
      obtain ⟨entry, hentry, hvalue, -⟩ := clickBy_of_addressed? click haddressed
      rw [hvalue]
      exact faces_selectItem h hfits hentry
  | none =>
      rcases clickBy_of_addressed?_none click haddressed with ⟨hvalue, -⟩ | ⟨_, _, -, hvalue, -⟩
      · rw [hvalue]
        rfl
      · rw [hvalue]
        rfl

/-! ## Adding -/

theorem faces_addPage (title : String) (page : View K) :
    (tab.addPage title page).value.strip.faces =
      tab.strip.faces.change (.add (.item tab.strip.core.id tab.strip.made)) := by
  let paged : Tab K := { tab with pages := tab.pages ++ [(tab.attach page).value] }
  rw [addPage_value]
  by_cases hnil : tab.strip.items = []
  · have hselected : tab.strip.selected = none := by
      cases hselected : tab.strip.selected with
      | none => rfl
      | some index => simpa [hnil] using hfits.lt hselected
    let longer : Tab K := { paged with strip := tab.strip.pushItem title }
    have hnew : longer.strip.items[0]? = some (tab.strip.newItem title) := by
      simp [longer, TabStrip.pushItem, hnil]
    have hmoved : (longer.moveSelection 0).strip.faces =
        longer.strip.faces.change (.select (tab.strip.newItem title).core.id) :=
      faces_moveSelection (h.pushItem title) (by simp [longer, TabStrip.pushItem, hselected]) hnew
    rw [addItem_of_nil (show paged.strip.items = [] from hnil) hselected]
    refine (faces_tabLayout _).trans (hmoved.trans ?_)
    have hid : (tab.strip.newItem title).core.id = .item tab.strip.core.id tab.strip.made :=
      newItem_core_id tab.strip title
    have hlonger : longer.strip.faces.all =
        [⟨.item tab.strip.core.id tab.strip.made, false, .normal⟩] := by
      simp [longer, TabStrip.faces, TabStrip.pushItem, hnil, TabStrip.face_newItem]
    have hempty : tab.strip.faces.all = [] := by simp [TabStrip.faces, hnil]
    refine Faces.ext ?_ ?_ rfl
    · simp [Faces.change, hlonger, hempty, hid, Faces.redress]
    · simp [Faces.change, hempty, hid]
  · rw [addItem_of_ne_nil (show paged.strip.items ≠ [] from hnil)]
    refine (faces_tabLayout _).trans ?_
    exact TabStrip.faces_pushItem hnil (fun _ => hfits.lt) title

end

/-! ## Removing -/

/-- The item that the selection passes on to, if any, is selected. -/
theorem map_face_passSelection (h : tab.strip.Numbered) {index : Nat} {entry : TabItem K}
    (hentry : tab.strip.items[index]? = some entry) :
    (tab.passSelection index).2.strip.faces.all =
      tab.strip.faces.all.map fun face =>
        if tab.strip.faces.current = some entry.core.id ∧ tab.next? index = some face.id then
          face.setSelected true
        else face := by
  have hcurrent := TabStrip.current_eq_some_iff h hentry
  by_cases hselected : tab.strip.selected = some index
  · by_cases hone : tab.strip.items.length = 1
    · have hpassed : (tab.passSelection index).2.strip.items = tab.strip.items := by
        simp only [passSelection, hselected, hone, if_true]
      simp [TabStrip.faces, hpassed, next?, hone]
    · obtain ⟨hi, -⟩ := List.getElem?_eq_some_iff.mp hentry
      have hsuccessor := List.getElem?_eq_getElem (Nat.mod_lt (index + 1) (Nat.zero_lt_of_lt hi))
      have hpassed : (tab.passSelection index).2.strip.items =
          tab.strip.items.modify ((index + 1) % tab.strip.items.length) (·.setSelected true) := by
        simp only [passSelection, hselected, hone, if_true, if_false]
        rfl
      change (tab.passSelection index).2.strip.items.map TabItem.face = _
      rw [hpassed, TabStrip.map_face_modify h hsuccessor (·.setSelected true)
        fun item => item.face_setSelected true]
      simp only [hcurrent.mpr hselected, next?, hone, if_false, TabStrip.idAt?, hsuccessor,
        Option.map_some, true_and, Option.some.injEq, eq_comm]
  · have hpassed : (tab.passSelection index).2.strip.items = tab.strip.items := by
      simp only [passSelection]
      split
      · rfl
      · rename_i selected heq
        have hother : selected ≠ index := fun hsame => hselected (hsame ▸ heq)
        rw [if_neg hother]
        split <;> rfl
    simp only [mt hcurrent.mp hselected, false_and, if_false, List.map_id']
    simp only [TabStrip.faces, hpassed]

/-- The selection stays on its item, or passes on from the item that goes. -/
theorem bind_passSelection_selected (h : tab.strip.Numbered) {index : Nat} {entry : TabItem K}
    (hentry : tab.strip.items[index]? = some entry) :
    ((tab.passSelection index).2.strip.selected.bind fun place =>
        ((tab.strip.faces.all.map Face.id).eraseIdx index)[place]?) =
      if tab.strip.faces.current = some entry.core.id then tab.next? index
      else tab.strip.faces.current := by
  have hcurrent := TabStrip.current_eq_some_iff h hentry
  obtain ⟨hi, -⟩ := List.getElem?_eq_some_iff.mp hentry
  rw [passSelection_selected tab hi]
  by_cases hselected : tab.strip.selected = some index
  · rw [hselected, Option.bind_some, if_pos rfl, if_pos (hcurrent.mpr hselected), next?]
    by_cases hone : tab.strip.items.length = 1
    · rw [if_pos hone, if_pos hone, Option.bind_none]
    · rw [if_neg hone, if_neg hone, Option.bind_some, successor_eq hi, TabStrip.idAt?_eq]
      by_cases hnext : index + 1 < tab.strip.items.length
      · rw [if_pos hnext, if_pos hnext, List.getElem?_eraseIdx_of_ge (Nat.le_refl index)]
      · rw [if_neg hnext, if_neg hnext, List.getElem?_eraseIdx_of_lt (by omega)]
  · rw [if_neg (mt hcurrent.mp hselected)]
    change _ = tab.strip.selectedId?
    rw [TabStrip.selectedId?_eq]
    cases heq : tab.strip.selected with
    | none => rfl
    | some selected =>
        have hother : selected ≠ index := fun hsame => hselected (hsame ▸ heq)
        rw [Option.bind_some, Option.bind_some, if_neg hother, Option.bind_some]
        by_cases hbefore : index < selected
        · rw [if_pos hbefore, List.getElem?_eraseIdx_of_ge (by omega),
            Nat.sub_add_cancel (Nat.zero_lt_of_lt hbefore)]
        · rw [if_neg hbefore, List.getElem?_eraseIdx_of_lt (by omega)]

theorem faces_eraseItem (h : tab.strip.Numbered) {index : Nat} {entry : TabItem K}
    (hentry : tab.strip.items[index]? = some entry) :
    ((tab.passSelection index).2.strip.eraseItem index entry.core.id).faces =
      tab.strip.faces.change (.remove entry.core.id (tab.next? index)) := by
  have hpassed := map_face_passSelection h hentry
  have hids : ((tab.passSelection index).2.strip.faces.all.map Face.id) =
      tab.strip.faces.all.map Face.id := by
    rw [TabStrip.ids_faces, TabStrip.ids_faces]
    exact map_items_passSelection (·.core.id) (fun _ _ => ViewCore.setState_id _ _) tab index
  have hall : ((tab.passSelection index).2.strip.eraseItem index entry.core.id).faces.all =
      (tab.passSelection index).2.strip.faces.all.eraseIdx index :=
    (List.eraseIdx_map ..).symm
  have hface := TabStrip.faces_getElem? hentry
  have hhovered : (tab.passSelection index).2.strip.hovered = tab.strip.hovered := by
    simp only [passSelection]
    split
    · rfl
    · split
      · split <;> rfl
      · split <;> rfl
  refine Faces.ext ?_ ?_ ?_
  · rw [hall, hpassed, List.eraseIdx_map, eraseIdx_eq_filter_of_nodup h.nodup_faces hface]
    rfl
  · change TabStrip.selectedId? _ = _
    rw [TabStrip.selectedId?_eq, hall, ← List.eraseIdx_map, hids]
    exact bind_passSelection_selected h hentry
  · change (if (tab.passSelection index).2.strip.hovered = some entry.core.id then none
      else (tab.passSelection index).2.strip.hovered) = _
    rw [hhovered]
    rfl

theorem faces_removePage (h : tab.strip.Numbered) (hpaired : tab.Paired) (index : Nat) :
    (tab.removePage index).value.2.strip.faces = tab.strip.faces.change (tab.removed index) := by
  cases hentry : tab.strip.items[index]? with
  | none =>
      have hpage : tab.pages[index]? = none := by
        rw [List.getElem?_eq_none_iff, ← hpaired.length_eq]
        exact List.getElem?_eq_none_iff.mp hentry
      simp only [removePage, hpage, removed, TabStrip.idAt?, hentry, Option.map_none]
      rfl
  | some entry =>
      let fewer : Tab K := { tab with pages := tab.pages.eraseIdx index }
      obtain ⟨hi, -⟩ := List.getElem?_eq_some_iff.mp hentry
      have hpage := List.getElem?_eq_getElem (hpaired.length_eq ▸ hi)
      have hfewer : fewer.strip.Numbered := h
      have herased := faces_eraseItem hfewer hentry
      rw [removePage_value hpage hentry]
      refine (faces_tabLayout _).trans (herased.trans ?_)
      simp only [removed, TabStrip.idAt?, hentry, Option.map_some]
      rfl

/-! ## Any step -/

/-- A step of a tab shows in the faces of its items as it is told. -/
theorem faces_step (h : tab.strip.Numbered) (hpaired : tab.Paired) (step : ViewStep K) :
    ∃ tab' : Tab K, (tab.toView.step step).value.2 = tab'.toView ∧
      tab'.strip.faces = tab.strip.faces.change (tab.faceChange step) := by
  have hfits : Fits tab.strip.items.length tab.strip.selected := hpaired.length_eq ▸ hpaired.fits
  cases step with
  | core change =>
      let core := (tab.strip.core.step change).2
      exact ⟨{ tab with strip := { tab.strip with core := core } }, rfl, rfl⟩
  | setVisible visible =>
      let core := tab.strip.core.setVisible visible
      exact ⟨{ tab with strip := { tab.strip with core := core } }, rfl, rfl⟩
  | enter | draw => exact ⟨tab, rfl, rfl⟩
  | askHeight | askMinimumSize =>
      exact ⟨{ tab with strip := tab.strip.rememberHeight }, rfl, rfl⟩
  | place placement =>
      refine ⟨_, rfl, ?_⟩
      exact (congrArg TabStrip.faces (placeBy_strip _ tab placement)).trans
        (tab.strip.faces_placed placement)
  | setFont font =>
      refine ⟨_, rfl, ?_⟩
      exact (faces_tabLayout _).trans (tab.strip.faces_setFont font)
  | setColor color => exact ⟨_, rfl, tab.strip.faces_setColor color⟩
  | leave event =>
      exact ⟨{ tab with strip := tab.strip.untrack }, rfl, TabStrip.faces_untrack h⟩
  | move event =>
      have hmoved := View.moveWithin_tab (View.depths tab.pages) event tab
      exact ⟨_, hmoved, TabStrip.faces_track h event.position⟩
  | click event =>
      refine ⟨_, rfl, ?_⟩
      exact faces_clickBy h hfits _ event
  | addPage title page =>
      refine ⟨_, rfl, ?_⟩
      exact faces_addPage h hfits title page
  | removePage index =>
      refine ⟨_, rfl, ?_⟩
      exact faces_removePage h hpaired index
  | selectPage index =>
      refine ⟨_, rfl, ?_⟩
      exact faces_selectPage h hfits index

/-! ## A step at an address -/

/-- A step somewhere in the tree of a tab is one of its own, or one of an item, or it leaves the
strip alone. -/
theorem stepAt_cases {tab' : Tab K} {path : List Branch} {step : ViewStep K}
    (h : (tab.toView.stepAt path step).value.2 = tab'.toView) :
    (path = [] ∧ (tab.toView.step step).value.2 = tab'.toView) ∨
      (∃ index entry entry', path = [.item index] ∧ tab.strip.items[index]? = some entry ∧
        ((View.item entry).step step).value.2 = .item entry' ∧
        tab'.strip = tab.strip.modifyItem index fun _ => entry') ∨
      (path ≠ [] ∧ tab'.strip = tab.strip) := by
  have hstrip : ∀ {strip pages changed}, View.tab strip pages changed = tab'.toView →
      tab'.strip = strip := fun heq => (View.tab.inj heq).1.symm
  unfold View.stepAt at h
  cases path with
  | nil => exact .inl ⟨rfl, h⟩
  | cons branch path =>
      split at h
      · exact .inr (.inr ⟨by simp, hstrip h⟩)
      · rename_i view hat
        cases branch with
        | child index => exact .inr (.inr ⟨by simp, hstrip h⟩)
        | item index =>
            obtain ⟨next, hnext, hat⟩ := View.at?_cons_eq_some_iff.mp hat
            obtain ⟨entry, hentry, rfl⟩ := Option.map_eq_some_iff.mp hnext
            obtain ⟨rfl, rfl⟩ := View.at?_item hat
            obtain ⟨entry', hentry'⟩ := View.step_item entry step
            have hreplaced : tab.toView.replaceAt [.item index] (.item entry') = tab'.toView := by
              rw [← hentry']
              exact h
            exact .inr (.inl ⟨index, entry, entry', rfl, hentry, hentry', hstrip hreplaced⟩)

/-- A step somewhere in the tree of a tab. -/
structure Goes (allowed : View K → List Branch → ViewStep K → Prop) (tab : Tab K)
    (path : List Branch) (step : ViewStep K) (tab' : Tab K) : Prop where
  permitted : allowed tab.toView path step
  added : ∀ page, step.added? = some page → page.Reachable allowed
  result : (tab.toView.stepAt path step).value.2 = tab'.toView

variable {allowed : View K → List Branch → ViewStep K → Prop} {tab' : Tab K} {path : List Branch}
  {step : ViewStep K}

theorem Goes.reachable (hgoes : tab.Goes allowed path step tab')
    (h : tab.toView.Reachable allowed) : tab'.toView.Reachable allowed :=
  hgoes.result ▸ .step h hgoes.permitted hgoes.added

end Tab

end WidgetToolkit
