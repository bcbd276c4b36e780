import WidgetToolkit.Proofs.View.Highlight

/-! # The highlight follows the pointer

A tab tells an item that the pointer has come only when it comes from somewhere else. So an item that
loses the selection under the pointer fades: it shows nothing until the pointer has been elsewhere, or
until it is selected again. Apart from that, motion leaves the highlight on the item under the
pointer, and nowhere else. -/

namespace WidgetToolkit

/-! ## Faces -/

namespace Faces

/-- The faces are told apart, and show what is selected and where the pointer is taken to be. -/
structure Sound (faces : Faces) : Prop where
  nodup : (faces.all.map Face.id).Nodup
  suited : ∀ face ∈ faces.all, face.Suited
  marked : ∀ face ∈ faces.all, face.selected = true ↔ faces.current = some face.id
  tracked : ∀ face ∈ faces.all, face.state = .hovered → faces.hovered = some face.id
  hovered_mem : ∀ id, faces.hovered = some id → id ∈ faces.all.map Face.id
  current_mem : ∀ id, faces.current = some id → id ∈ faces.all.map Face.id

/-- The pointer is taken to be over an item that is not selected and does not show it. -/
def Fades (faces : Faces) (id : ViewId) : Prop :=
  faces.hovered = some id ∧ ⟨id, false, .normal⟩ ∈ faces.all

instance (faces : Faces) (id : ViewId) : Decidable (faces.Fades id) :=
  inferInstanceAs (Decidable (_ ∧ _))

variable {faces : Faces}

namespace Sound

theorem eq_of_id_eq (h : faces.Sound) {face face' : Face} (hm : face ∈ faces.all)
    (hm' : face' ∈ faces.all) (hid : face.id = face'.id) : face = face' :=
  List.inj_on_of_nodup_map h.nodup hm hm' hid

theorem not_disabled (h : faces.Sound) {face : Face} (hm : face ∈ faces.all)
    (hselected : face.selected = false) : (face.selected || face.state == .disabled) = false := by
  rcases (h.suited face hm).resting hselected with hstate | hstate <;> simp [hselected, hstate]

/-- An unselected face fades if it is the one that the pointer is taken to be over, and normal. -/
theorem fades_iff (h : faces.Sound) {face : Face} (hm : face ∈ faces.all)
    (hselected : face.selected = false) :
    faces.Fades face.id ↔ faces.hovered = some face.id ∧ face.state = .normal := by
  refine and_congr_right fun _ => ⟨fun hfaded => ?_, fun hstate => ?_⟩
  · rw [h.eq_of_id_eq hm hfaded rfl]
  · rw [← hselected, ← hstate]
    exact hm

/-- What the faces show when the pointer has moved. -/
theorem state_point (h : faces.Sound) {target : Option ViewId} {face' : Face}
    (hm' : face' ∈ (faces.change (.point target)).all) (hselected' : face'.selected = false) :
    face'.state = if target = some face'.id ∧ ¬faces.Fades face'.id then .hovered else .normal := by
  obtain ⟨face, hm, -, rfl⟩ | ⟨id, hadded, -⟩ := mem_change.mp hm'
  · have hselected : face.selected = false := (redress_point_selected ..).symm.trans hselected'
    have hfree := h.not_disabled hm hselected
    have htracked := h.tracked face hm
    simp only [redress_id, h.fades_iff hm hselected]
    simp only [redress, Face.setHovered, hfree]
    by_cases hsame : target = faces.hovered
    · -- nobody is told
      rcases (h.suited face hm).resting hselected with hstate | hstate
      · simp [hsame, hstate]
      · simp [hsame, hstate, htracked hstate]
    · by_cases htarget : target = some face.id
      · have hother : faces.hovered ≠ some face.id := fun heq => hsame (htarget.trans heq.symm)
        simp [htarget, hother, hother.symm]
      · by_cases hwas : faces.hovered = some face.id
        · simp [htarget, hwas]
        · have hstate : face.state = .normal :=
            ((h.suited face hm).resting hselected).resolve_right fun hstate =>
              hwas (htracked hstate)
          simp [hsame, htarget, hwas, hstate]
  · cases hadded

variable {change : FaceChange}

/-- A face fades only if the pointer has been taken to be over it before. -/
theorem hovered_of_fades_change (h : faces.Sound) {id : ViewId}
    (hfades : (faces.change change).Fades id) : faces.hovered = some id := by
  obtain ⟨hhovered, hm⟩ := hfades
  cases change with
  | keep | select | add => exact hhovered
  | remove gone next =>
      simp only [Faces.change] at hhovered
      split at hhovered
      · cases hhovered
      · exact hhovered
  | point target =>
      have hstate := h.state_point hm rfl
      by_contra hother
      rw [if_pos ⟨hhovered, fun hfades => hother hfades.1⟩] at hstate
      cases hstate

/-- The face that the pointer is taken to be over before and after a change turns normal if it loses
the selection, and stays normal if it does not get it. -/
theorem redress_eq_iff (h : faces.Sound) {face : Face} (hm : face ∈ faces.all)
    (hbefore : faces.hovered = some face.id)
    (hafter : (faces.change change).hovered = some face.id) :
    faces.redress change face = ⟨face.id, false, .normal⟩ ↔
      (faces.change change).current ≠ some face.id ∧
        (face.selected = false ∧ face.state = .normal ∨ faces.current = some face.id) := by
  have hkept : face = ⟨face.id, false, .normal⟩ ↔
      faces.current ≠ some face.id ∧
        (face.selected = false ∧ face.state = .normal ∨ faces.current = some face.id) := by
    have hself : face = ⟨face.id, false, .normal⟩ ↔
        face.selected = false ∧ face.state = .normal := by
      cases face
      simp
    rw [hself, ne_eq, ← h.marked face hm]
    cases face.selected <;> simp
  cases change with
  | keep => exact hkept
  | select id =>
      by_cases hid : face.id = id
      · simp [redress, Faces.change, hid, Face.setSelected]
      · by_cases hcurrent : faces.current = some face.id
        · simp [redress, Faces.change, hid, Ne.symm hid, hcurrent, Face.setSelected]
        · simpa [redress, Faces.change, hid, Ne.symm hid, hcurrent] using hkept
  | add id =>
      have hsome : faces.all.isEmpty = false := by simpa using List.ne_nil_of_mem hm
      simpa [redress, Faces.change, hsome] using hkept
  | remove id next =>
      have hother : face.id ≠ id := by
        rintro rfl
        simp [Faces.change, hbefore] at hafter
      by_cases hcurrent : faces.current = some id
      · by_cases hnext : next = some face.id
        · simp [redress, Faces.change, hcurrent, hnext, Face.setSelected]
        · simpa [redress, Faces.change, hcurrent, hnext, Ne.symm hother] using hkept
      · simpa [redress, Faces.change, hcurrent] using hkept
  | point target =>
      have hsame : target = faces.hovered := Eq.trans hafter hbefore.symm
      simpa [redress, Faces.change, hsame] using hkept

/-- The item under the pointer fades if it has lost the selection, or has faded before and has not
got it. -/
theorem fades_change_iff (h : faces.Sound)
    (hfresh : ∀ id, change = .add id → id ∉ faces.all.map Face.id) (id : ViewId) :
    (faces.change change).Fades id ↔
      faces.hovered = some id ∧ (faces.change change).hovered = some id ∧
        (faces.change change).current ≠ some id ∧
        (faces.Fades id ∨ faces.current = some id) := by
  constructor
  · intro hfades
    have hbefore := h.hovered_of_fades_change hfades
    refine ⟨hbefore, hfades.1, ?_⟩
    obtain ⟨face, hm, -, hface⟩ | ⟨added, rfl, hface⟩ := mem_change.mp hfades.2
    · have hid : face.id = id := by rw [← redress_id faces change, hface]
      subst hid
      have hafter := (h.redress_eq_iff hm hbefore hfades.1).mp hface
      refine ⟨hafter.1, hafter.2.imp_left fun hrests => ?_⟩
      exact (h.fades_iff hm hrests.1).mpr ⟨hbefore, hrests.2⟩
    · obtain rfl : id = added := congrArg Face.id hface
      exact absurd (h.hovered_mem id hbefore) (hfresh id rfl)
  · rintro ⟨hbefore, hafter, hcurrent, hlost⟩
    obtain ⟨face, hm, rfl⟩ := List.mem_map.mp (h.hovered_mem id hbefore)
    have hstays : ∀ next, change ≠ .remove face.id next := by
      rintro next rfl
      simp [Faces.change, hbefore] at hafter
    refine ⟨hafter, mem_change.mpr (.inl ⟨face, hm, hstays, ?_⟩)⟩
    refine (h.redress_eq_iff hm hbefore hafter).mpr ⟨hcurrent, hlost.imp_left fun hfades => ?_⟩
    rw [h.eq_of_id_eq hm hfades.2 rfl]
    exact ⟨rfl, rfl⟩

end Sound

end Faces

/-! ## Strips -/

variable {K : Type}

theorem Tab.Selection.sound {tab : Tab K} (h : tab.Selection) (hsuited : tab.strip.Suited)
    (hhovering : tab.strip.Hovering) (hnumbered : tab.strip.Numbered) :
    tab.strip.faces.Sound where
  nodup := hnumbered.nodup_faces
  suited := hsuited.faces
  marked := List.forall_mem_map.mpr fun item hm => by
    obtain ⟨index, hitem⟩ := List.mem_iff_getElem?.mp hm
    exact (h.item_selected index item hitem).trans
      (TabStrip.bind_idAt?_eq_some_iff hnumbered hitem).symm
  tracked := List.forall_mem_map.mpr hhovering.remembered
  hovered_mem := hsuited.present
  current_mem id hid := by
    obtain ⟨index, -, hid⟩ := Option.bind_eq_some_iff.mp hid
    obtain ⟨item, hitem, rfl⟩ := Option.map_eq_some_iff.mp hid
    exact tab.strip.ids_faces ▸ List.mem_map_of_mem (List.mem_of_getElem? hitem)

variable [Coord K]

namespace TabStrip

theorem Still.itemAt? {strip strip' : TabStrip K} (h : strip.Still strip') (p : Point K) :
    strip'.itemAt? p = strip.itemAt? p := by
  have hrects : strip'.items.map (·.core.rect) = strip.items.map (·.core.rect) :=
    map_eq_of_forall₂ h.items fun _ _ hstill => hstill.rect_eq
  have hfind : ∀ items : List (TabItem K), items.findIdx? (·.core.contains p) =
      (items.map (·.core.rect)).findIdx? (·.contains p) := fun items => by
    rw [List.findIdx?_map]
    rfl
  rw [TabStrip.itemAt?, TabStrip.itemAt?, hfind, hfind, hrects]

/-- The unselected items show the pointer if they are under it, and are normal if not. -/
def Follows (strip : TabStrip K) (p : Point K) : Prop :=
  ∀ (index : Nat) item, strip.items[index]? = some item → item.selected = false →
    item.core.state = if strip.itemAt? p = some index then .hovered else .normal

/-- After the pointer has moved, an item under it shows it if it has not faded. -/
theorem state_track {strip : TabStrip K} (h : strip.faces.Sound) (hnumbered : strip.Numbered)
    {p : Point K} {index : Nat} {item : TabItem K} (hitem : (strip.track p).items[index]? = some item)
    (hselected : item.selected = false) :
    item.core.state =
      if (strip.track p).itemAt? p = some index ∧ ¬strip.faces.Fades item.core.id then .hovered
      else .normal := by
  have hstill := strip.still_track p
  have hface : item.face ∈ (strip.faces.change (.point (strip.under? p))).all := by
    rw [← faces_track hnumbered p]
    exact List.mem_map_of_mem (List.mem_of_getElem? hitem)
  have hids : (strip.track p).idAt? = strip.idAt? := funext fun index => by
    rw [idAt?_eq, idAt?_eq, hstill.ids_faces]
  have hunder : strip.under? p = some item.core.id ↔ (strip.track p).itemAt? p = some index := by
    rw [under?, ← hstill.itemAt? p, ← hids]
    exact bind_idAt?_eq_some_iff (hnumbered.still hstill (strip.track_made p)) hitem
  simp only [← hunder]
  exact h.state_point hface hselected

end TabStrip

namespace Tab

/-- The selection has been taken from the item that the pointer is taken to be over. -/
def Abandons (tab tab' : Tab K) : Prop :=
  ∃ id, tab.strip.hovered = some id ∧ tab'.strip.hovered = some id ∧
    tab.strip.selectedId? = some id ∧ tab'.strip.selectedId? ≠ some id

variable {tab tab' : Tab K}

theorem not_mem_of_faceChange (h : tab.strip.Numbered) {step : ViewStep K} {id : ViewId}
    (hadded : tab.faceChange step = .add id) : id ∉ tab.strip.faces.all.map Face.id := by
  rcases tab.faceChange_cases step with
    ⟨title, page, rfl⟩ | ⟨index, rfl⟩ | hother | ⟨_, hother⟩ | ⟨_, hother⟩
  · obtain rfl := FaceChange.add.inj hadded
    rw [TabStrip.ids_faces]
    intro hm
    obtain ⟨n, hn, hid⟩ := h.made _ hm
    exact Nat.ne_of_gt hn (ViewId.item.inj hid).2
  · simp only [faceChange, removed] at hadded
    split at hadded <;> cases hadded
  all_goals cases hother.symm.trans hadded

variable {allowed : View K → List Branch → ViewStep K → Prop} {path : List Branch}
  {step : ViewStep K}

/-- Only its own steps show in the faces of a tab, if nobody else sets the state of an item. -/
theorem Goes.faces (hgoes : tab.Goes allowed path step tab')
    (hleaves : tab.toView.LeavesState path step) (hnumbered : tab.strip.Numbered)
    (hpaired : tab.Paired) :
    tab'.strip.faces =
      tab.strip.faces.change (if path = [] then tab.faceChange step else .keep) := by
  rcases stepAt_cases hgoes.result with
    ⟨rfl, hstep⟩ | ⟨index, entry, entry', rfl, hentry, hentry', hstrip⟩ | ⟨hne, hstrip⟩
  · obtain ⟨tab'', hstep', hfaces⟩ := faces_step hnumbered hpaired step
    rw [toView_inj (hstep.symm.trans hstep'), hfaces, if_pos rfl]
  · have hat : tab.toView.at? [.item index] = some (.item entry) := by
      simp [toView, View.at?, View.branch?, hentry]
    have hface := TabItem.face_step (hleaves ⟨entry, hat⟩) hentry'
    rw [hstrip, if_neg (List.cons_ne_nil _ _)]
    exact TabStrip.faces_touch hentry hface
  · rw [hstrip, if_neg hne]
    rfl

end Tab

/-! ## Histories -/

namespace View

/-- Nobody but its tab sets the state of an item, or shows or hides a page. -/
def Undisturbed (root : View K) (path : List Branch) (step : ViewStep K) : Prop :=
  root.LeavesState path step ∧ root.Respects path step

theorem Reachable.sound {root : View K} (h : root.Reachable Undisturbed) :
    root.EveryTab fun tab => tab.strip.faces.Sound := by
  intro path tab hat
  have hleaves : root.Reachable LeavesState := h.mono fun _ _ _ hallowed => hallowed.1
  have hrespects : root.Reachable Respects := h.mono fun _ _ _ hallowed => hallowed.2
  have hhovering := (hleaves.mono fun _ _ _ h => h.leavesHover).hovering path tab hat
  have hselection : tab.Selection := hrespects.coherent path tab hat
  exact hselection.sound (hleaves.suited path tab hat) hhovering (h.numbered path tab hat)

/-- An item fades when it loses the selection while the pointer is taken to be over it, and recovers
when the pointer is taken to be elsewhere, or when it is selected. -/
theorem fades_iff_of_goes {tab tab' : Tab K} (h : tab.toView.Reachable Undisturbed)
    {path : List Branch} {step : ViewStep K} (hgoes : tab.Goes Undisturbed path step tab')
    (id : ViewId) :
    tab'.strip.faces.Fades id ↔
      tab.strip.hovered = some id ∧ tab'.strip.hovered = some id ∧
        tab'.strip.selectedId? ≠ some id ∧
        (tab.strip.faces.Fades id ∨ tab.strip.selectedId? = some id) := by
  have hsound : tab.strip.faces.Sound := h.sound [] tab rfl
  have hnumbered : tab.strip.Numbered := h.numbered [] tab rfl
  have hfaces := hgoes.faces hgoes.permitted.1 hnumbered (h.paired [] tab rfl)
  have hfresh : ∀ id, (if path = [] then tab.faceChange step else .keep) = .add id →
      id ∉ tab.strip.faces.all.map Face.id := by
    intro id hadded
    split at hadded
    · exact Tab.not_mem_of_faceChange hnumbered hadded
    · cases hadded
  have hlaw := hsound.fades_change_iff hfresh id
  rw [← hfaces] at hlaw
  exact hlaw

theorem not_fades_of_goes {tab tab' : Tab K} (h : tab.toView.Reachable Undisturbed)
    (hfades : ∀ id, ¬tab.strip.faces.Fades id)
    (hgoes : Relation.ReflTransGen (fun tab tab' =>
      (∃ path step, tab.Goes Undisturbed path step tab') ∧ ¬tab.Abandons tab') tab tab') :
    tab'.toView.Reachable Undisturbed ∧ ∀ id, ¬tab'.strip.faces.Fades id := by
  induction hgoes with
  | refl => exact ⟨h, hfades⟩
  | tail _ hstep ih =>
      obtain ⟨hbefore, hnone⟩ := ih
      obtain ⟨⟨path, step, hgoes⟩, hkept⟩ := hstep
      refine ⟨hgoes.reachable hbefore, fun id hfades => ?_⟩
      obtain ⟨hhovered, hhovered', hselected', hlost⟩ :=
        (fades_iff_of_goes hbefore hgoes id).mp hfades
      exact hkept ⟨id, hhovered, hhovered', hlost.resolve_left (hnone id), hselected'⟩

/-- Motion leaves the highlight on the item under the pointer, if that has not faded. -/
theorem Reachable.state_move {root : View K} (h : root.Reachable Undisturbed) {path : List Branch}
    {tab : Tab K} (hat : root.at? path = some tab.toView) (event : PointerEvent K) :
    ∃ moved : Tab K, (tab.toView.move event).value = moved.toView ∧
      ∀ (index : Nat) item, moved.strip.items[index]? = some item → item.selected = false →
        item.core.state =
          if moved.strip.itemAt? event.position = some index ∧
              ¬tab.strip.faces.Fades item.core.id then .hovered
          else .normal := by
  refine ⟨_, moveWithin_tab (depths tab.pages) event tab, fun index item hitem => ?_⟩
  exact TabStrip.state_track (h.sound path tab hat) (h.numbered path tab hat) hitem

/-- In every tab that is reached, motion leaves the highlight on the item under the pointer, if that
has not faded, and nowhere else. An item fades only by losing the selection while the pointer is taken
to be over it. So in a history in which that does not happen, the highlight follows the pointer. -/
theorem reachable_follows {tab : Tab K} (h : tab.toView.Reachable Undisturbed) :
    (tab.toView.EveryTab fun below => ∀ event, ∃ moved : Tab K,
      (below.toView.move event).value = moved.toView ∧
        ∀ (index : Nat) item, moved.strip.items[index]? = some item → item.selected = false →
          item.core.state =
            if moved.strip.itemAt? event.position = some index ∧
                ¬below.strip.faces.Fades item.core.id then .hovered
            else .normal) ∧
      (∀ path step tab', tab.Goes Undisturbed path step tab' → ∀ id,
        (tab'.strip.faces.Fades id ↔
          tab.strip.hovered = some id ∧ tab'.strip.hovered = some id ∧
            tab'.strip.selectedId? ≠ some id ∧
            (tab.strip.faces.Fades id ∨ tab.strip.selectedId? = some id))) ∧
      ∀ tab', (∀ id, ¬tab.strip.faces.Fades id) →
        Relation.ReflTransGen (fun tab tab' =>
          (∃ path step, tab.Goes Undisturbed path step tab') ∧ ¬tab.Abandons tab') tab tab' →
        ∀ event, ∃ moved : Tab K, (tab'.toView.move event).value = moved.toView ∧
          moved.strip.Follows event.position := by
  refine ⟨fun path below hat event => h.state_move hat event,
    fun path step tab' hgoes => fades_iff_of_goes h hgoes, fun tab' hnone hgoes event => ?_⟩
  obtain ⟨hreached, hnone'⟩ := not_fades_of_goes h hnone hgoes
  have hat : tab'.toView.at? [] = some tab'.toView := rfl
  obtain ⟨moved, hmoved, hstates⟩ := hreached.state_move hat event
  refine ⟨moved, hmoved, fun index item hitem hselected => ?_⟩
  simpa [hnone'] using hstates index item hitem hselected

/-- The pointer goes from the second item, which is selected, to the first one. -/
theorem reachable_follows_first_item :
    let page (number : Nat) : View Rat := .plain (.new (.view number)) ⟨"crate", "Page"⟩
    let metrics : TextMetrics Rat := ⟨fun _ _ => ⟨8, 10⟩⟩
    let root := (Tab.new (.view 0) metrics .standard).toView.run
      [.addPage "one" (page 1), .addPage "two" (page 2), .selectPage 1]
    let second : PointerEvent Rat := ⟨.move, none, ⟨16, 8⟩⟩
    let first : PointerEvent Rat := ⟨.move, none, ⟨2, 8⟩⟩
    root.Reachable Undisturbed ∧
      ∃ moved : Tab Rat, (root.run [.move second, .move first]) = moved.toView ∧
        moved.strip.items.map (·.core.state) = [.hovered, .pressed] ∧
        moved.strip.Follows first.position := by
  intro page metrics root second first
  have hroot : root.Reachable Undisturbed :=
    (Reachable.tab _ _ _).run_of_allowed
      (by simp [Undisturbed, LeavesState, Respects, ViewStep.setsState, ViewStep.showsOrHides])
      (by simp [ViewStep.added?, Reachable.plain, page])
  have hstart : root.tab?.map (·.strip.hovered) = some none := by decide +kernel
  obtain ⟨tab, htab, hhovered⟩ := Option.map_eq_some_iff.mp hstart
  have hview := eq_toView_of_tab? htab
  have hlater : (root.run [.move second]).tab?.isSome := by decide +kernel
  obtain ⟨later, hlater⟩ := Option.isSome_iff_exists.mp hlater
  have hstates : (root.run [.move second, .move first]).tab?.map
      (fun tab => tab.strip.items.map (·.core.state)) = some [.hovered, .pressed] := by
    decide +kernel
  have hgoes : tab.Goes Undisturbed [] (.move second) later := by
    refine ⟨?_, by simp [ViewStep.added?], ?_⟩
    · simp [Undisturbed, LeavesState, Respects, ViewStep.setsState, ViewStep.showsOrHides]
    · rw [← hview]
      exact eq_toView_of_tab? hlater
  have hkept : ¬tab.Abandons later := by simp [Tab.Abandons, hhovered]
  have hfades : ∀ id, ¬tab.strip.faces.Fades id := by simp [Faces.Fades, TabStrip.faces, hhovered]
  obtain ⟨moved, hmoved, hfollows⟩ := (reachable_follows (hview ▸ hroot)).2.2 later hfades
    (.single ⟨⟨_, _, hgoes⟩, hkept⟩) first
  have hrun : root.run [.move second, .move first] = moved.toView := by
    rw [← hmoved, ← eq_toView_of_tab? hlater]
    rfl
  rw [hrun] at hstates
  exact ⟨hroot, moved, hrun, Option.some.inj hstates, hfollows⟩

/-- An item that loses the selection under the pointer does not show it when it moves on. -/
theorem reachable_follows_not_deselected :
    let page (number : Nat) : View Rat := .plain (.new (.view number)) ⟨"crate", "Page"⟩
    let metrics : TextMetrics Rat := ⟨fun _ _ => ⟨8, 10⟩⟩
    let root := (Tab.new (.view 0) metrics .standard).toView.run
      [.addPage "one" (page 1), .addPage "two" (page 2), .move ⟨.move, none, ⟨2, 8⟩⟩,
        .selectPage 1]
    let motion : PointerEvent Rat := ⟨.move, none, ⟨3, 8⟩⟩
    root.Reachable Undisturbed ∧ ∃ moved : Tab Rat, (root.move motion).value = moved.toView ∧
      moved.strip.itemAt? motion.position = some 0 ∧
      moved.strip.items.map TabItem.face =
        [⟨.item (.view 0) 0, false, .normal⟩, ⟨.item (.view 0) 1, true, .pressed⟩] ∧
      ¬moved.strip.Follows motion.position := by
  intro page metrics root motion
  have hroot : root.Reachable Undisturbed :=
    (Reachable.tab _ _ _).run_of_allowed
      (by simp [Undisturbed, LeavesState, Respects, ViewStep.setsState, ViewStep.showsOrHides])
      (by simp [ViewStep.added?, Reachable.plain, page])
  have hshown : (root.move motion).value.tab?.map (fun tab =>
      (tab.strip.itemAt? motion.position, tab.strip.items.map TabItem.face)) =
      some (some 0,
        [⟨.item (.view 0) 0, false, .normal⟩, ⟨.item (.view 0) 1, true, .pressed⟩]) := by
    decide +kernel
  obtain ⟨moved, htab, hshown⟩ := Option.map_eq_some_iff.mp hshown
  obtain ⟨hunder, hfaces⟩ := Prod.mk.inj hshown
  refine ⟨hroot, moved, eq_toView_of_tab? htab, hunder, hfaces, fun hfollows => ?_⟩
  obtain ⟨item, hitem, hface⟩ : ∃ item, moved.strip.items[0]? = some item ∧
      item.face = ⟨.item (.view 0) 0, false, .normal⟩ := by
    have hfirst := congrArg (·[0]?) hfaces
    simpa using hfirst
  have hstate := hfollows 0 item hitem (congrArg Face.selected hface)
  rw [if_pos hunder, show item.core.state = .normal from congrArg Face.state hface] at hstate
  cases hstate

end View

end WidgetToolkit
