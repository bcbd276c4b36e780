import WidgetToolkit.Proofs.View.Faces

/-! # What the items of a tab show

As long as nobody but its tab sets the state of an item, the state suits the selection and the
pointer: a selected item is pressed, and of the others at most one shows the pointer, which is the one
that the tab remembers. -/

namespace WidgetToolkit

/-! ## Faces -/

/-- A selected item is pressed, any other one is normal or shows the pointer. -/
structure Face.Suited (face : Face) : Prop where
  pressed : face.selected = true → face.state = .pressed
  resting : face.selected = false → face.state = .normal ∨ face.state = .hovered

namespace Face

theorem suited_setSelected (face : Face) (selected : Bool) :
    (face.setSelected selected).Suited := by
  cases selected <;> constructor <;> simp [setSelected]

theorem Suited.setHovered {face : Face} (h : face.Suited) (hovered : Bool) :
    (face.setHovered hovered).Suited := by
  unfold Face.setHovered
  split
  · exact h
  · rename_i hfree
    have hselected : face.selected = false := by
      simp only [Bool.or_eq_true, not_or, Bool.not_eq_true] at hfree
      exact hfree.1
    refine ⟨fun hpressed => ?_, fun _ => ?_⟩
    · exact absurd (hselected.symm.trans hpressed) Bool.false_ne_true
    · cases hovered
      · exact .inl rfl
      · exact .inr rfl

end Face

/-! ## Strips -/

variable {K : Type}

namespace TabStrip

/-- The items suit the selection, and the one that the strip remembers is there. -/
structure Suited (strip : TabStrip K) : Prop where
  faces : ∀ face ∈ strip.faces.all, face.Suited
  present : ∀ id, strip.hovered = some id → id ∈ strip.faces.all.map Face.id

variable {strip strip' : TabStrip K}

theorem Suited.congr (h : strip.Suited) (hall : strip'.faces.all = strip.faces.all)
    (hhovered : strip'.hovered = strip.hovered) : strip'.Suited :=
  ⟨hall ▸ h.faces, hall ▸ hhovered ▸ h.present⟩

theorem Suited.withHovered (h : strip.Suited) {hovered : Option ViewId}
    (hpresent : ∀ id, hovered = some id → id ∈ strip.faces.all.map Face.id) :
    Suited { strip with hovered := hovered } :=
  ⟨h.faces, hpresent⟩

/-- The item at an index may change, if it is still the same one. -/
theorem Suited.modifyItem (h : strip.Suited) {index : Nat} {change : TabItem K → TabItem K}
    (hid : ∀ item, strip.items[index]? = some item → (change item).face.id = item.face.id)
    (hsuited : ∀ item, strip.items[index]? = some item → item.face.Suited →
      (change item).face.Suited) : (strip.modifyItem index change).Suited := by
  have hsame : List.Forall₂ (fun item item' : TabItem K => item'.face.id = item.face.id)
      strip.items (strip.items.modify index change) := by
    apply forall₂_modify
    · exact fun _ => rfl
    · exact hid
  have hids : (strip.modifyItem index change).faces.all.map Face.id =
      strip.faces.all.map Face.id := by
    rw [ids_faces, ids_faces]
    exact map_eq_of_forall₂ hsame fun _ _ heq => heq
  refine ⟨List.forall_mem_map.mpr ?_, hids.symm ▸ h.present⟩
  have hitems := List.forall_mem_map.mp h.faces
  exact forall_mem_modify hitems fun item hitem =>
    hsuited item hitem (hitems item (List.mem_of_getElem? hitem))

/-- An item that goes is forgotten. -/
theorem Suited.eraseItem (h : strip.Suited) {index : Nat} {entry : TabItem K}
    (hentry : strip.items[index]? = some entry) :
    (strip.eraseItem index entry.core.id).Suited := by
  have hsublist := (List.eraseIdx_sublist strip.items index).map TabItem.face
  refine ⟨fun face hm => h.faces face (hsublist.subset hm), fun id hid => ?_⟩
  have hkept : (if strip.hovered = some entry.core.id then none else strip.hovered) = some id :=
    hid
  split at hkept
  · cases hkept
  · -- another item is remembered, and that one stays
    rename_i hother
    have hpresent := h.present id hkept
    rw [ids_faces] at hpresent ⊢
    obtain ⟨item, hitem, rfl⟩ := List.mem_map.mp hpresent
    obtain ⟨place, hplace⟩ := List.mem_iff_getElem?.mp hitem
    refine List.mem_map_of_mem (List.mem_eraseIdx_iff_getElem?.mpr ⟨place, ?_, hplace⟩)
    rintro rfl
    exact hother (Option.some.inj (hplace.symm.trans hentry) ▸ hkept)

/-- What the items of a strip show. -/
structure Highlights (strip : TabStrip K) : Prop where
  selected : ∀ item ∈ strip.items, item.selected = true → item.core.state = .pressed
  unselected : ∀ item ∈ strip.items, item.selected = false →
    item.core.state = .normal ∨ item.core.state = .hovered
  present : ∀ id, strip.hovered = some id → ∃ item ∈ strip.items, item.core.id = id
  tracked : ∀ item ∈ strip.items, item.IsHovered →
    strip.hovered = some item.core.id ∧ item.selected = false
  unique : ∀ item ∈ strip.items, ∀ item' ∈ strip.items, item.IsHovered → item'.IsHovered →
    item = item'

theorem Suited.highlights (h : strip.Suited) (hhovering : strip.Hovering) : strip.Highlights := by
  have hfaces : ∀ item ∈ strip.items, item.face.Suited := List.forall_mem_map.mp h.faces
  have htracked : ∀ item ∈ strip.items, item.IsHovered → strip.hovered = some item.core.id :=
    hhovering.remembered
  refine ⟨fun item hm => (hfaces item hm).pressed, fun item hm => (hfaces item hm).resting,
    fun id hid => ?_, fun item hm hshown => ⟨htracked item hm hshown, ?_⟩, ?_⟩
  · have hpresent := h.present id hid
    rw [ids_faces] at hpresent
    exact List.mem_map.mp hpresent
  · exact hhovering.unselected item hm hshown
  · intro item hm item' hm' hshown hshown'
    refine hhovering.eq_of_id_eq hm hm' (Option.some.inj ?_)
    exact (htracked item hm hshown).symm.trans (htracked item' hm' hshown')

variable [Coord K]

theorem Suited.setHovered (h : strip.Suited) (id? : Option ViewId) (hovered : Bool) :
    (strip.setHovered id? hovered).Suited := by
  unfold TabStrip.setHovered
  split
  · refine h.modifyItem (fun item _ => ?_) fun item _ hsuited => ?_
    · rw [TabItem.face_setHovered, Face.setHovered_id]
    · rw [TabItem.face_setHovered]
      exact hsuited.setHovered hovered
  · exact h

theorem Suited.pushItem (h : strip.Suited) (title : String) : (strip.pushItem title).Suited := by
  refine ⟨?_, fun id hid => ?_⟩
  · rw [all_pushItem, List.forall_mem_append, List.forall_mem_singleton]
    exact ⟨h.faces, by constructor <;> simp⟩
  · rw [all_pushItem, List.map_append]
    exact List.mem_append_left _ (h.present id hid)

theorem Suited.track (h : strip.Suited) (p : Point K) : (strip.track p).Suited := by
  have hids := (strip.still_track p).ids_faces
  refine ⟨?_, fun id hid => ?_⟩
  · simp only [TabStrip.track]
    split
    · exact h.faces
    · exact ((h.setHovered strip.hovered false).setHovered _ true).faces
  · rw [strip.track_hovered p] at hid
    obtain ⟨index, -, hid⟩ := Option.bind_eq_some_iff.mp hid
    obtain ⟨item, hitem, rfl⟩ := Option.map_eq_some_iff.mp hid
    rw [hids, ids_faces]
    exact List.mem_map_of_mem (List.mem_of_getElem? hitem)

/-- Everything that a tab does to its strip leaves the items as they suit. -/
theorem lasting_suited :
    TabStrip.Lasting (fun entry entry' => entry'.face = entry.face)
      (TabStrip.Suited (K := K)) where
  new _ _ _ := ⟨by simp [TabStrip.faces, TabStrip.new], by simp [TabStrip.new]⟩
  withCore _ h := h.congr rfl rfl
  withSelected _ h := h.congr rfl rfl
  rememberHeight h := h.congr rfl rfl
  layout h := h.congr (congrArg Faces.all (faces_layout _)) rfl
  setFont font h := h.congr (congrArg Faces.all (faces_setFont _ font)) rfl
  setColor color h := h.congr (congrArg Faces.all (faces_setColor _ color)) rfl
  setScale scale h := h.congr (by simp [faces, TabStrip.setScale, TabItem.face_setScale]) rfl
  setSelected _ selected h := h.modifyItem (fun item _ => ViewCore.setState_id _ _)
    fun item _ _ => item.face_setSelected selected ▸ item.face.suited_setSelected selected
  pushItem title h := h.pushItem title
  eraseItem hentry h := h.eraseItem hentry
  track p h := h.track p
  untrack h := (h.setHovered _ false).withHovered (by simp)
  touch hentry hface h := h.congr (congrArg Faces.all (faces_touch hentry hface)) rfl

end TabStrip

/-! ## Histories -/

/-- A step that sets the state of an item, if the item takes it itself. -/
def ViewStep.setsState : ViewStep K → Bool
  | .enter _ | .leave _ => true
  | .core (.setState _) | .core (.setEnabled _) => true
  | _ => false

/-- Nobody but its tab sets the state of an item. -/
def View.LeavesState (root : View K) (path : List Branch) (step : ViewStep K) : Prop :=
  (∃ entry, root.at? path = some (.item entry)) → step.setsState = false

theorem View.LeavesState.leavesHover {root : View K} {path : List Branch} {step : ViewStep K}
    (h : root.LeavesState path step) : root.LeavesHover path step := by
  intro hitem
  have hsets := h hitem
  cases step with
  | enter => cases hsets
  | core change =>
      cases change with
      | setState => cases hsets
      | _ => rfl
  | _ => rfl

variable [Coord K]

theorem ViewCore.state_step (core : ViewCore K) {change : CoreStep K}
    (h : (ViewStep.core change).setsState = false) : (core.step change).2.state = core.state := by
  cases change with
  | setState | setEnabled => cases h
  | setFocused focused =>
      simp only [ViewCore.step, ViewCore.setFocused]
      split
      · rfl
      · simp
  | setFont | setColor | setBackground | setVisible =>
      simp [ViewCore.step, ViewCore.setFont, ViewCore.setColor, ViewCore.setBackground,
        ViewCore.setVisible]
  | allocate | invalidate | invalidateRect => simp [ViewCore.step]
  | setScale | setFocusable | setParent | contains | takeDamage => rfl

theorem TabItem.face_step {entry entry' : TabItem K} {step : ViewStep K}
    (h : step.setsState = false) (hstep : ((View.item entry).step step).value.2 = .item entry') :
    entry'.face = entry.face := by
  cases step with
  | core change =>
      cases hstep
      exact congrArg₂ (Face.mk · entry.selected ·) (entry.core.step_id change)
        (entry.core.state_step h)
  | place placement =>
      cases placement with
      | allocate rect =>
          cases hstep
          exact entry.face_allocate rect
      | layout =>
          cases hstep
          rfl
      | rescale scale =>
          cases hstep
          exact entry.face_setScale scale
  | setFont font =>
      cases hstep
      exact entry.face_setFont font
  | setColor color =>
      cases hstep
      exact entry.face_setColor color
  | setVisible visible =>
      cases hstep
      simp [face, ViewCore.setVisible]
  | enter | leave => cases h
  | move | click | draw | addPage | removePage | selectPage | askHeight | askMinimumSize =>
      cases hstep
      rfl

namespace View

theorem Reachable.suited {root : View K} (h : root.Reachable LeavesState) :
    root.Strips TabStrip.Suited := by
  apply Reachable.strips TabStrip.lasting_suited
  apply h.mono
  intro root path step hleaves entry entry' hat hstep
  exact TabItem.face_step (hleaves ⟨entry, hat⟩) hstep

/-- A tab forgets an item that it removes. -/
theorem removePage_forgets {tab : Tab K} (hnumbered : tab.strip.Numbered) (hpaired : tab.Paired)
    {index : Nat} {entry : TabItem K} (hentry : tab.strip.items[index]? = some entry) :
    (tab.removePage index).value.2.strip.hovered ≠ some entry.core.id ∧
      ∀ item ∈ (tab.removePage index).value.2.strip.items, item.core.id ≠ entry.core.id := by
  have hfaces := Tab.faces_removePage hnumbered hpaired index
  have hremoved : tab.removed index = .remove entry.core.id (tab.next? index) := by
    simp only [Tab.removed, TabStrip.idAt?, hentry, Option.map_some]
  rw [hremoved] at hfaces
  constructor
  · have hhovered : (tab.removePage index).value.2.strip.hovered =
        if tab.strip.hovered = some entry.core.id then none else tab.strip.hovered :=
      congrArg Faces.hovered hfaces
    rw [hhovered]
    split
    · simp
    · assumption
  · intro item hm hid
    have hall : (tab.removePage index).value.2.strip.items.map TabItem.face =
        (tab.strip.faces.change (.remove entry.core.id (tab.next? index))).all :=
      congrArg Faces.all hfaces
    obtain ⟨face, -, hother, hsame⟩ | ⟨_, hadded, -⟩ :=
      Faces.mem_change.mp (hall ▸ List.mem_map_of_mem hm)
    · refine hother (tab.next? index) ?_
      rw [← hid, ← show item.face.id = item.core.id from rfl, ← hsame, Faces.redress_id]
    · cases hadded

/-- As long as nobody but its tab sets the state of an item, the items of every tab show what is
selected and where the pointer is. After the pointer has moved, an item that shows it is under it;
after it has left, none shows it; and an item that is removed is forgotten. -/
theorem reachable_highlight {root : View K} (h : root.Reachable LeavesState) {path : List Branch}
    {tab : Tab K} (hat : root.at? path = some tab.toView) :
    tab.strip.Highlights ∧
      (root.Reachable Respects → ∀ (index : Nat) item, tab.strip.items[index]? = some item →
        (item.core.state = .pressed ↔ tab.strip.selected = some index)) ∧
      (∀ event, ∃ tab' : Tab K, (tab.toView.move event).value = tab'.toView ∧
        tab'.strip.Highlights ∧ tab'.strip.HoversOnly (some event.position)) ∧
      (∀ event, ∃ tab' : Tab K, (tab.toView.leave event).value = tab'.toView ∧
        tab'.strip.hovered = none ∧ tab'.strip.HoversOnly none) ∧
      ∀ (index : Nat) entry, tab.strip.items[index]? = some entry →
        ∃ tab' : Tab K, (tab.toView.step (.removePage index)).value.2 = tab'.toView ∧
          tab'.strip.hovered ≠ some entry.core.id ∧
          ∀ item ∈ tab'.strip.items, item.core.id ≠ entry.core.id := by
  have hsuited : tab.strip.Suited := h.suited path tab hat
  have hnumbered : tab.strip.Numbered := h.numbered path tab hat
  have hhovering : tab.strip.Hovering :=
    (h.mono fun _ _ _ hleaves => hleaves.leavesHover).hovering path tab hat
  have hhighlights := hsuited.highlights hhovering
  refine ⟨hhighlights, fun hrespects index item hitem => ?_, fun event => ?_, fun event => ?_,
    fun index entry hentry => ?_⟩
  · have hselection : tab.Selection := hrespects.coherent path tab hat
    rw [← hselection.item_selected index item hitem]
    have hm := List.mem_of_getElem? hitem
    refine ⟨fun hpressed => ?_, hhighlights.selected item hm⟩
    by_contra hselected
    rcases hhighlights.unselected item hm (Bool.eq_false_iff.mpr hselected) with hstate | hstate
    · cases hpressed.symm.trans hstate
    · cases hpressed.symm.trans hstate
  · have hmoved := moveWithin_tab (depths tab.pages) event tab
    refine ⟨_, hmoved, ?_, hhovering.hoversOnly_track event.position⟩
    exact (hsuited.track event.position).highlights (hhovering.track event.position)
  · exact ⟨{ tab with strip := tab.strip.untrack }, rfl, rfl, hhovering.hoversOnly_untrack⟩
  · exact ⟨_, rfl, removePage_forgets hnumbered (h.paired path tab hat) hentry⟩

theorem reachable_highlight_second_item :
    let page (number : Nat) : View Rat := .plain (.new (.view number)) ⟨"crate", "Page"⟩
    let root := (Tab.new (.view 0) ⟨fun _ _ => ⟨8, 10⟩⟩ .standard).toView.run
      [.addPage "one" (page 1), .addPage "two" (page 2), .move ⟨.move, none, ⟨16, 8⟩⟩]
    root.Reachable LeavesState ∧ root.Reachable Respects ∧ ∃ tab : Tab Rat, root = tab.toView ∧
      tab.strip.items.map (·.core.state) = [.pressed, .hovered] ∧ tab.strip.Highlights ∧
      ∀ (index : Nat) item, tab.strip.items[index]? = some item →
        (item.core.state = .pressed ↔ tab.strip.selected = some index) := by
  intro page root
  have hleaves : root.Reachable LeavesState :=
    (Reachable.tab _ _ _).run_of_allowed (by simp [LeavesState, ViewStep.setsState])
      (by simp [ViewStep.added?, Reachable.plain, page])
  have hrespects : root.Reachable Respects :=
    (Reachable.tab _ _ _).run_of_allowed (by simp [Respects, ViewStep.showsOrHides])
      (by simp [ViewStep.added?, Reachable.plain, page])
  have hstates : root.tab?.map (fun tab => tab.strip.items.map (·.core.state)) =
      some [.pressed, .hovered] := by decide +kernel
  obtain ⟨tab, htab, hstates⟩ := Option.map_eq_some_iff.mp hstates
  have hview := eq_toView_of_tab? htab
  have hat : root.at? [] = some tab.toView := congrArg some hview
  obtain ⟨hhighlights, hpressed, -⟩ := reachable_highlight hleaves hat
  exact ⟨hleaves, hrespects, tab, hview, hstates, hhighlights, hpressed hrespects⟩

end View

end WidgetToolkit
