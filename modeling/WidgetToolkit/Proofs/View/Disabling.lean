import WidgetToolkit.Proofs.View.Highlight
import WidgetToolkit.Proofs.View.Pressing

/-! # Disabled items

An item is disabled by its state, and the selection sets the state of the items that it leaves and
comes to, whatever it was. So a disabled item stays disabled until it is enabled or until its being
selected changes, and as long as it is disabled, no press does anything to it. -/

namespace WidgetToolkit

/-! ## Faces -/

namespace Faces

/-- A disabled face that stays is disabled still, unless its being selected changes or it is selected
again. -/
theorem redress_disabled_iff {faces : Faces} {change : FaceChange} {face : Face}
    (hm : face ∈ faces.all) (hdisabled : face.state = .disabled)
    (hstays : ∀ next, change ≠ .remove face.id next) :
    (faces.redress change face).state = .disabled ↔
      ((faces.change change).current = some face.id ↔ faces.current = some face.id) ∧
        ¬(faces.current = some face.id ∧ change = .select face.id) := by
  cases change with
  | keep => simp [redress, Faces.change, hdisabled]
  | select id =>
      by_cases hid : face.id = id
      · simp [redress, Faces.change, hid, Face.setSelected]
      · by_cases hcurrent : faces.current = some face.id
        · simp [redress, Faces.change, hid, Ne.symm hid, hcurrent, Face.setSelected]
        · simp [redress, Faces.change, hid, Ne.symm hid, hcurrent, hdisabled]
  | add id =>
      have hsome : faces.all.isEmpty = false := by simpa using List.ne_nil_of_mem hm
      simp [redress, Faces.change, hsome, hdisabled]
  | remove id next =>
      have hother : face.id ≠ id := by
        rintro rfl
        exact hstays next rfl
      by_cases hcurrent : faces.current = some id
      · by_cases hnext : next = some face.id
        · simp [redress, Faces.change, hcurrent, hnext, Ne.symm hother, Face.setSelected]
        · simp [redress, Faces.change, hcurrent, hnext, Ne.symm hother, hdisabled]
      · simp [redress, Faces.change, hcurrent, hdisabled]
  | point target =>
      have hkept : ∀ hovered, face.setHovered hovered = face := fun hovered => by
        simp [Face.setHovered, hdisabled]
      simp [redress, Faces.change, hkept, hdisabled]

end Faces

/-! ## Items -/

variable {K : Type}

/-- A step that enables an item, if the item takes it itself. -/
def ViewStep.enables : ViewStep K → Bool
  | .core (.setEnabled enabled) => enabled
  | .core (.setState state) => state != .disabled
  | _ => false

variable [Coord K]

theorem TabItem.setHovered_of_disabled {item : TabItem K} (h : item.core.isDisabled = true)
    (hovered : Bool) : item.setHovered hovered = item := by
  rw [setHovered, if_pos (by simp [h])]

theorem TabItem.disabled_step {entry entry' : TabItem K} {step : ViewStep K}
    (hdisabled : entry.core.isDisabled = true) (h : step.enables = false)
    (hstep : ((View.item entry).step step).value.2 = .item entry') :
    entry'.core.isDisabled = true := by
  cases hsets : step.setsState with
  | false =>
      have hstate := congrArg Face.state (face_step hsets hstep)
      exact (congrArg (· == ControlState.disabled) hstate).trans hdisabled
  | true =>
      cases step with
      | enter | leave =>
          cases hstep
          simpa [setHovered_of_disabled hdisabled] using hdisabled
      | core change =>
          cases change with
          | setState | setEnabled =>
              cases hstep
              simp_all [ViewStep.enables, View.core, ViewCore.isDisabled, ViewCore.setEnabled]
          | _ => cases hsets
      | _ => cases hsets

namespace Tab

/-- A step changes whether an item is selected, or selects it again. -/
def Redresses (tab : Tab K) (step : ViewStep K) (tab' : Tab K) (id : ViewId) : Prop :=
  ¬(tab'.strip.selectedId? = some id ↔ tab.strip.selectedId? = some id) ∨
    tab.strip.selectedId? = some id ∧ tab.faceChange step = .select id

variable {tab : Tab K}

theorem index_of_faceChange_remove {step : ViewStep K} {id : ViewId} {next : Option ViewId}
    (h : tab.faceChange step = .remove id next) :
    ∃ index, step = .removePage index ∧ tab.strip.idAt? index = some id := by
  rcases tab.faceChange_cases step with
    ⟨title, page, rfl⟩ | ⟨index, rfl⟩ | hother | ⟨_, hother⟩ | ⟨_, hother⟩
  · cases h
  · refine ⟨index, rfl, ?_⟩
    simp only [faceChange, removed] at h
    split at h
    · cases h
    · rename_i hid
      rw [hid, (FaceChange.remove.inj h).1]
  all_goals cases hother.symm.trans h

/-- A press or a release over a disabled item does nothing. -/
theorem click_of_disabled {index : Nat} {entry : TabItem K}
    (hentry : tab.strip.items[index]? = some entry) (hdisabled : entry.core.isDisabled = true)
    {event : PointerEvent K} (hunder : tab.strip.itemAt? event.position = some index) :
    tab.toView.click event = pure (true, tab.toView) := by
  obtain ⟨entry', hfirst⟩ := TabStrip.firstAt_of_itemAt? hunder
  obtain rfl : entry' = entry := Option.some.inj (hfirst.present.symm.trans hentry)
  have hclick : tab.clickBy (View.click event) event = pure (true, tab) := by
    cases htab : tab.strip.core.isDisabled with
    | true => exact clickBy_of_disabled htab
    | false =>
        rw [clickBy_of_firstAt htab hfirst, itemAnswer, TabItem.activates, hdisabled]
        rfl
  rw [View.click_toView, hclick]
  rfl

/-- A disabled item that a tab does not remove is disabled still, unless the tab changes whether it is
selected, or selects it again. -/
theorem disabled_step_iff (hnumbered : tab.strip.Numbered) (hpaired : tab.Paired) {index : Nat}
    {entry : TabItem K} (hentry : tab.strip.items[index]? = some entry)
    (hdisabled : entry.core.isDisabled = true) {step : ViewStep K}
    (hstays : step ≠ .removePage index) :
    ∃ tab' : Tab K, (tab.toView.step step).value.2 = tab'.toView ∧
      ∃ entry' ∈ tab'.strip.items, entry'.core.id = entry.core.id ∧
        (entry'.core.isDisabled = true ↔ ¬tab.Redresses step tab' entry.core.id) := by
  obtain ⟨tab', hstep, hfaces⟩ := faces_step hnumbered hpaired step
  have hm : entry.face ∈ tab.strip.faces.all := List.mem_map_of_mem (List.mem_of_getElem? hentry)
  have hkept : ∀ next, tab.faceChange step ≠ .remove entry.face.id next := by
    intro next hremoved
    obtain ⟨index', hremove, hid⟩ := index_of_faceChange_remove hremoved
    obtain ⟨other, hother, hid⟩ := Option.map_eq_some_iff.mp hid
    exact hstays (eq_of_key_eq hnumbered.nodup hentry hother hid ▸ hremove)
  have hface := Faces.mem_change.mpr (.inl ⟨entry.face, hm, hkept, rfl⟩)
  rw [← hfaces] at hface
  obtain ⟨entry', hm', hface'⟩ := List.mem_map.mp hface
  refine ⟨tab', hstep, entry', hm', ?_, ?_⟩
  · exact (congrArg Face.id hface').trans (Faces.redress_id ..)
  · have hlaw := Faces.redress_disabled_iff hm (eq_of_beq hdisabled) hkept
    rw [← hface', ← hfaces] at hlaw
    rw [Redresses, not_or, not_not]
    exact beq_iff_eq.trans hlaw

/-- A step somewhere in the tree of a tab does not remove an item or enable it, and does not change
whether it is selected or select it again. -/
structure Spares (tab : Tab K) (path : List Branch) (step : ViewStep K) (tab' : Tab K)
    (id : ViewId) : Prop where
  stays : path = [] → ∀ index, tab.strip.idAt? index = some id → step ≠ .removePage index
  selection : path = [] → ¬tab.Redresses step tab' id
  disabled : ∀ index, path = [.item index] → tab.strip.idAt? index = some id →
    step.enables = false

variable {allowed : View K → List Branch → ViewStep K → Prop} {tab' : Tab K}

theorem disabled_of_goes (hnumbered : tab.strip.Numbered) (hpaired : tab.Paired) {id : ViewId}
    (hdisabled : ∃ entry ∈ tab.strip.items, entry.core.id = id ∧ entry.core.isDisabled = true)
    {path : List Branch} {step : ViewStep K} (hgoes : tab.Goes allowed path step tab')
    (hspares : tab.Spares path step tab' id) :
    ∃ entry ∈ tab'.strip.items, entry.core.id = id ∧ entry.core.isDisabled = true := by
  obtain ⟨entry, hm, rfl, hdisabled⟩ := hdisabled
  obtain ⟨index, hentry⟩ := List.mem_iff_getElem?.mp hm
  have hid : tab.strip.idAt? index = some entry.core.id := by
    rw [TabStrip.idAt?, hentry, Option.map_some]
  rcases stepAt_cases hgoes.result with
    ⟨rfl, hstep⟩ | ⟨index', other, other', rfl, hother, hother', hstrip⟩ | ⟨-, hstrip⟩
  · obtain ⟨tab'', hstep', entry', hm', hid', hkept⟩ :=
      disabled_step_iff hnumbered hpaired hentry hdisabled (hspares.stays rfl index hid)
    obtain rfl := toView_inj (hstep.symm.trans hstep')
    exact ⟨entry', hm', hid', hkept.mpr (hspares.selection rfl)⟩
  · by_cases hsame : index' = index
    · subst hsame
      obtain rfl : other = entry := Option.some.inj (hother.symm.trans hentry)
      have henables := hspares.disabled index' rfl hid
      have hplace : tab'.strip.items[index']? = some other' := by
        simp [hstrip, TabStrip.modifyItem, hentry]
      exact ⟨other', List.mem_of_getElem? hplace, View.step_item_id hother',
        TabItem.disabled_step hdisabled henables hother'⟩
    · have hplace : tab'.strip.items[index]? = some entry := by
        simp [hstrip, TabStrip.modifyItem, hentry, hsame]
      exact ⟨entry, List.mem_of_getElem? hplace, rfl, hdisabled⟩
  · exact ⟨entry, hstrip ▸ hm, rfl, hdisabled⟩

end Tab

namespace View

variable {allowed : View K → List Branch → ViewStep K → Prop}

/-- What spares an item at every step leaves it disabled. -/
theorem disabled_of_goes_trans {tab tab' : Tab K} (h : tab.toView.Reachable allowed) {id : ViewId}
    (hdisabled : ∃ entry ∈ tab.strip.items, entry.core.id = id ∧ entry.core.isDisabled = true)
    (hgoes : Relation.ReflTransGen (fun before after =>
      ∃ path step, before.Goes allowed path step after ∧ before.Spares path step after id)
      tab tab') :
    tab'.toView.Reachable allowed ∧
      ∃ entry ∈ tab'.strip.items, entry.core.id = id ∧ entry.core.isDisabled = true := by
  induction hgoes with
  | refl => exact ⟨h, hdisabled⟩
  | @tail before after _ hstep ih =>
      obtain ⟨hreached, hbefore⟩ := ih
      obtain ⟨path, step, hgoes, hspares⟩ := hstep
      have hnumbered : before.strip.Numbered := hreached.numbered [] before rfl
      have hpaired : before.Paired := hreached.paired [] before rfl
      exact ⟨hgoes.reachable hreached,
        Tab.disabled_of_goes hnumbered hpaired hbefore hgoes hspares⟩

/-- Nothing comes of a press over a disabled item. A step of its tab that does not remove it leaves it
disabled if and only if it does not change whether the item is selected, and does not select it again.
So in a history in which that does not happen and nobody enables the item, it is disabled forever. -/
theorem reachable_disabled {tab : Tab K} (h : tab.toView.Reachable allowed) {index : Nat}
    {entry : TabItem K} (hentry : tab.strip.items[index]? = some entry)
    (hdisabled : entry.core.isDisabled = true) :
    (∀ event, tab.strip.itemAt? event.position = some index →
      tab.toView.click event = pure (true, tab.toView)) ∧
      (∀ step, step ≠ .removePage index →
        ∃ tab' : Tab K, (tab.toView.step step).value.2 = tab'.toView ∧
          ∃ entry' ∈ tab'.strip.items, entry'.core.id = entry.core.id ∧
            (entry'.core.isDisabled = true ↔ ¬tab.Redresses step tab' entry.core.id)) ∧
      ∀ tab', Relation.ReflTransGen (fun before after => ∃ path step,
          before.Goes allowed path step after ∧ before.Spares path step after entry.core.id)
          tab tab' →
        ∃ index' entry', tab'.strip.items[index']? = some entry' ∧
          entry'.core.id = entry.core.id ∧ entry'.core.isDisabled = true ∧
            ∀ event, tab'.strip.itemAt? event.position = some index' →
              tab'.toView.click event = pure (true, tab'.toView) := by
  have hnumbered : tab.strip.Numbered := h.numbered [] tab rfl
  have hpaired : tab.Paired := h.paired [] tab rfl
  refine ⟨fun event => Tab.click_of_disabled hentry hdisabled, fun step hstays =>
    Tab.disabled_step_iff hnumbered hpaired hentry hdisabled hstays, fun tab' hgoes => ?_⟩
  obtain ⟨-, entry', hm', hid', hdisabled'⟩ := disabled_of_goes_trans h
    ⟨entry, List.mem_of_getElem? hentry, rfl, hdisabled⟩ hgoes
  obtain ⟨index', hentry'⟩ := List.mem_iff_getElem?.mp hm'
  exact ⟨index', entry', hentry', hid', hdisabled',
    fun event => Tab.click_of_disabled hentry' hdisabled'⟩

/-- The pointer comes over the second item, which is disabled, and presses it. -/
theorem reachable_disabled_second_item :
    let page (number : Nat) : View Rat := .plain (.new (.view number)) ⟨"crate", "Page"⟩
    let two := (Tab.new (.view 0) ⟨fun _ _ => ⟨8, 10⟩⟩ .standard).toView.run
      [.addPage "one" (page 1), .addPage "two" (page 2)]
    let root := (two.stepAt [.item 1] (.core (.setEnabled false))).value.2
    let later := root.run [.move ⟨.move, none, ⟨16, 8⟩⟩]
    let press : PointerEvent Rat := ⟨.down, some .left, ⟨16, 8⟩⟩
    root.Reachable (fun _ _ _ => True) ∧
      later.tab?.map (·.strip.items.map (·.core.state)) = some [.pressed, .disabled] ∧
      later.click press = pure (true, later) := by
  intro page two root later press
  have htwo : two.Reachable (fun _ _ _ => True) :=
    (Reachable.tab _ _ _).run_of_allowed (by simp)
      (by simp [ViewStep.added?, Reachable.plain, page])
  have hroot : root.Reachable (fun _ _ _ => True) :=
    .step htwo trivial (by simp [ViewStep.added?])
  have hbefore : root.tab?.map (fun tab =>
      (tab.strip.items.map TabItem.face, tab.strip.selectedId?)) =
      some ([⟨.item (.view 0) 0, true, .pressed⟩, ⟨.item (.view 0) 1, false, .disabled⟩],
        some (.item (.view 0) 0)) := by decide +kernel
  have hafter : later.tab?.map (fun tab =>
      (tab.strip.selectedId?, tab.strip.under? press.position)) =
      some (some (.item (.view 0) 0), some (.item (.view 0) 1)) := by decide +kernel
  have hstates : later.tab?.map (·.strip.items.map (·.core.state)) = some [.pressed, .disabled] := by
    decide +kernel
  obtain ⟨tab, htab, hbefore⟩ := Option.map_eq_some_iff.mp hbefore
  obtain ⟨hfaces, hselected⟩ := Prod.mk.inj hbefore
  obtain ⟨tab', htab', hafter⟩ := Option.map_eq_some_iff.mp hafter
  obtain ⟨hselected', hunder⟩ := Prod.mk.inj hafter
  have hview : root = tab.toView := eq_toView_of_tab? htab
  have hview' : later = tab'.toView := eq_toView_of_tab? htab'
  obtain ⟨entry, hentry, hface⟩ : ∃ entry, tab.strip.items[1]? = some entry ∧
      entry.face = ⟨.item (.view 0) 1, false, .disabled⟩ := by
    have hsecond := congrArg (·[1]?) hfaces
    simpa using hsecond
  have hdisabled : entry.core.isDisabled = true := beq_iff_eq.mpr (congrArg Face.state hface)
  have hgoes : tab.Goes (fun _ _ _ => True) [] (.move ⟨.move, none, ⟨16, 8⟩⟩) tab' := by
    refine ⟨trivial, by simp [ViewStep.added?], ?_⟩
    rw [← hview, ← hview']
    rfl
  have hspares : tab.Spares [] (.move ⟨.move, none, ⟨16, 8⟩⟩) tab' entry.core.id := by
    refine ⟨by simp, fun _ => ?_, by simp⟩
    simp [Tab.Redresses, hselected, hselected', Tab.faceChange]
  have htab : tab.toView.Reachable (fun _ _ _ => True) := hview ▸ hroot
  obtain ⟨index', entry', hentry', hid', -, hclick⟩ :=
    (reachable_disabled htab hentry hdisabled).2.2 tab' (.single ⟨_, _, hgoes, hspares⟩)
  -- the item that is pressed is the disabled one
  have hnumbered : tab'.strip.Numbered := (hgoes.reachable htab).numbered [] tab' rfl
  have hid : some entry'.core.id = some (.item (.view 0) 1) :=
    congrArg some (hid'.trans (congrArg Face.id hface))
  have hitemAt : tab'.strip.itemAt? press.position = some index' :=
    (TabStrip.bind_idAt?_eq_some_iff hnumbered hentry').mp (hunder.trans hid.symm)
  rw [hview']
  exact ⟨hroot, hview' ▸ hstates, hclick press hitemAt⟩

/-- An item that is disabled while it is selected is enabled by the selection of another one, and can
be pressed. -/
theorem reachable_disabled_deselected :
    let page (number : Nat) : View Rat := .plain (.new (.view number)) ⟨"crate", "Page"⟩
    let two := (Tab.new (.view 0) ⟨fun _ _ => ⟨8, 10⟩⟩ .standard).toView.run
      [.addPage "one" (page 1), .addPage "two" (page 2)]
    let root := (two.stepAt [.item 0] (.core (.setEnabled false))).value.2
    let press : PointerEvent Rat := ⟨.down, some .left, ⟨2, 8⟩⟩
    root.Reachable (fun _ _ _ => True) ∧
      root.tab?.map (·.strip.items.map TabItem.face) =
        some [⟨.item (.view 0) 0, true, .disabled⟩, ⟨.item (.view 0) 1, false, .normal⟩] ∧
      (root.run [.selectPage 1]).tab?.map (·.strip.items.map TabItem.face) =
        some [⟨.item (.view 0) 0, false, .normal⟩, ⟨.item (.view 0) 1, true, .pressed⟩] ∧
      (root.run [.selectPage 1, .click press]).tab?.map (·.strip.items.map TabItem.face) =
        some [⟨.item (.view 0) 0, true, .pressed⟩, ⟨.item (.view 0) 1, false, .normal⟩] := by
  intro page two root press
  have htwo : two.Reachable (fun _ _ _ => True) :=
    (Reachable.tab _ _ _).run_of_allowed (by simp)
      (by simp [ViewStep.added?, Reachable.plain, page])
  refine ⟨.step htwo trivial (by simp [ViewStep.added?]), ?_, ?_, ?_⟩
  · decide +kernel
  · decide +kernel
  · decide +kernel

end View

end WidgetToolkit
