import Mathlib.Data.List.Nodup
import WidgetToolkit.Proofs.Tab.Measures
import WidgetToolkit.Proofs.Tab.Refinement

/-! # The item under the pointer

A strip remembers the identity of one item, and no two items have the same. So it can take the
pointer away from the item that shows it before another one does. -/

namespace WidgetToolkit

variable {K : Type}

/-! ## Items -/

namespace TabItem

/-- Whether the item shows that the pointer is over it. -/
def IsHovered (item : TabItem K) : Prop := item.core.state = .hovered

/-- The same item, which shows the pointer only if it did before. -/
structure Calms (item item' : TabItem K) : Prop where
  id_eq : item'.core.id = item.core.id
  hovered : item'.IsHovered → item.IsHovered ∧ item'.selected = item.selected

theorem Calms.refl (item : TabItem K) : item.Calms item := ⟨rfl, fun h => ⟨h, rfl⟩⟩

end TabItem

/-! ## Strips -/

namespace TabStrip

/-- Items are told apart by their numbers, and none but the one that the strip remembers shows the
pointer. A selected item does not. -/
structure Hovering (strip : TabStrip K) : Prop where
  nodup : (strip.items.map (·.core.id)).Nodup
  numbered : ∀ item ∈ strip.items, ∃ n < strip.made, item.core.id = .item strip.core.id n
  remembered : ∀ item ∈ strip.items, item.IsHovered → strip.hovered = some item.core.id
  unselected : ∀ item ∈ strip.items, item.IsHovered → item.selected = false

variable {strip strip' : TabStrip K}

namespace Hovering

theorem indexOf? (h : strip.Hovering) {index : Nat} {item : TabItem K}
    (hitem : strip.items[index]? = some item) : strip.indexOf? item.core.id = some index :=
  Tab.indexOf?_of_nodup h.nodup hitem

theorem eq_of_id_eq (h : strip.Hovering) {item item' : TabItem K} (hitem : item ∈ strip.items)
    (hitem' : item' ∈ strip.items) (hid : item.core.id = item'.core.id) : item = item' :=
  List.inj_on_of_nodup_map h.nodup hitem hitem' hid

/-- What makes no item show the pointer keeps the strip in order. -/
theorem calms (h : strip.Hovering) (hid : strip'.core.id = strip.core.id)
    (hhovered : strip'.hovered = strip.hovered) (hmade : strip'.made = strip.made)
    (hitems : List.Forall₂ TabItem.Calms strip.items strip'.items) : strip'.Hovering := by
  refine ⟨?_, fun item' hm => ?_, fun item' hm hshown => ?_, fun item' hm hshown => ?_⟩
  · rw [map_eq_of_forall₂ hitems fun _ _ hcalms => hcalms.id_eq]
    exact h.nodup
  · obtain ⟨item, hitem, hcalms⟩ := exists_left_of_forall₂ hitems hm
    rw [hcalms.id_eq, hid, hmade]
    exact h.numbered item hitem
  · obtain ⟨item, hitem, hcalms⟩ := exists_left_of_forall₂ hitems hm
    rw [hhovered, hcalms.id_eq]
    exact h.remembered item hitem (hcalms.hovered hshown).1
  · obtain ⟨item, hitem, hcalms⟩ := exists_left_of_forall₂ hitems hm
    obtain ⟨hbefore, hselected⟩ := hcalms.hovered hshown
    exact hselected.trans (h.unselected item hitem hbefore)

theorem modifyItem (h : strip.Hovering) {index : Nat} {change : TabItem K → TabItem K}
    (hchange : ∀ item, strip.items[index]? = some item → item.Calms (change item)) :
    (strip.modifyItem index change).Hovering :=
  h.calms rfl rfl rfl (forall₂_modify TabItem.Calms.refl hchange)

/-- Nothing about the items has changed. -/
theorem sameItems (h : strip.Hovering) (hid : strip'.core.id = strip.core.id)
    (hhovered : strip'.hovered = strip.hovered) (hmade : strip'.made = strip.made)
    (hitems : strip'.items = strip.items) : strip'.Hovering :=
  h.calms hid hhovered hmade (hitems ▸ List.forall₂_same.mpr fun item _ => .refl item)

/-- The same has been done to all items. -/
theorem mapItems (h : strip.Hovering) {change : TabItem K → TabItem K}
    (hchange : ∀ item : TabItem K, item.Calms (change item)) (hid : strip'.core.id = strip.core.id)
    (hhovered : strip'.hovered = strip.hovered) (hmade : strip'.made = strip.made)
    (hitems : strip'.items = strip.items.map change) : strip'.Hovering := by
  refine h.calms hid hhovered hmade ?_
  rw [hitems, List.forall₂_map_right_iff]
  exact List.forall₂_same.mpr fun item _ => hchange item

theorem eraseItem (h : strip.Hovering) {index : Nat} {entry : TabItem K}
    (hentry : strip.items[index]? = some entry) :
    (strip.eraseItem index entry.core.id).Hovering := by
  have hsublist := List.eraseIdx_sublist strip.items index
  refine ⟨h.nodup.sublist (hsublist.map _), ?_, ?_, ?_⟩
  · exact fun item hm => h.numbered item (hsublist.subset hm)
  · intro item hm hshown
    have hremembered := h.remembered item (hsublist.subset hm) hshown
    have hne : strip.hovered ≠ some entry.core.id := by
      rintro hgone
      have hid : item.core.id = entry.core.id := Option.some.inj (hremembered.symm.trans hgone)
      obtain ⟨i, hne, hi⟩ := List.mem_eraseIdx_iff_getElem?.mp hm
      have hplace := h.indexOf? hi
      rw [hid, h.indexOf? hentry] at hplace
      exact hne (Option.some.inj hplace).symm
    simpa [TabStrip.eraseItem, hne] using hremembered
  · exact fun item hm => h.unselected item (hsublist.subset hm)

/-- What is remembered does not matter while no item shows the pointer. -/
theorem withHovered (h : strip.Hovering) (hnone : ∀ item ∈ strip.items, ¬ item.IsHovered)
    (hovered : Option ViewId) : Hovering { strip with hovered := hovered } :=
  ⟨h.nodup, h.numbered, fun item hm hshown => absurd hshown (hnone item hm), h.unselected⟩

end Hovering

end TabStrip

variable [Coord K]

/-! ## Operations -/

namespace ViewCore

@[simp] theorem invalidateRect_state (core : ViewCore K) (rect : Rect K) :
    (core.invalidateRect rect).state = core.state := by
  rw [invalidateRect_eq]

@[simp] theorem invalidate_state (core : ViewCore K) : core.invalidate.state = core.state :=
  invalidateRect_state core core.rect

@[simp] theorem setState_state (core : ViewCore K) (state : ControlState) :
    (core.setState state).state = state := by
  simp [setState]

@[simp] theorem allocate_state (core : ViewCore K) (rect : Rect K) :
    (core.allocate rect).2.state = core.state := by
  unfold allocate
  split <;> simp

end ViewCore

namespace TabItem

theorem calms_allocate (item : TabItem K) (rect : Rect K) : item.Calms (item.allocate rect) :=
  ⟨ViewCore.allocate_id _ _, fun h => ⟨(ViewCore.allocate_state _ _).symm.trans h, rfl⟩⟩

theorem calms_setFont (item : TabItem K) (font : Font) : item.Calms (item.setFont font) := by
  constructor <;> simp [setFont, remeasure, IsHovered, ViewCore.setFont]

theorem calms_setColor (item : TabItem K) (color : Color) : item.Calms (item.setColor color) := by
  constructor <;> simp [setColor, IsHovered, ViewCore.setColor]

theorem calms_setScale (item : TabItem K) (scale : K) : item.Calms (item.setScale scale) := by
  constructor <;> simp [setScale, remeasure, IsHovered, ViewCore.setScale]

theorem not_isHovered_setSelected (item : TabItem K) (selected : Bool) :
    ¬ (item.setSelected selected).IsHovered := by
  cases selected <;> simp [setSelected, IsHovered]

theorem calms_setSelected (item : TabItem K) (selected : Bool) :
    item.Calms (item.setSelected selected) :=
  ⟨ViewCore.setState_id _ _, fun h => absurd h (item.not_isHovered_setSelected selected)⟩

/-- Only a selected item could keep the pointer that goes out. -/
theorem not_isHovered_setHovered_false {item : TabItem K}
    (h : item.IsHovered → item.selected = false) :
    ¬ (item.setHovered false).IsHovered := by
  unfold setHovered
  split
  · rename_i hkept
    intro hhovered
    have hdisabled : item.core.isDisabled = false := by
      simp only [ViewCore.isDisabled, show item.core.state = .hovered from hhovered]
      rfl
    simp [h hhovered, hdisabled] at hkept
  · simp [IsHovered]

theorem calms_setHovered_false (item : TabItem K) : item.Calms (item.setHovered false) := by
  unfold setHovered
  split
  · exact .refl item
  · exact ⟨ViewCore.setState_id _ _, by simp [IsHovered]⟩

@[simp] theorem setHovered_core_id (item : TabItem K) (hovered : Bool) :
    (item.setHovered hovered).core.id = item.core.id :=
  (item.still_setHovered hovered).look.id_eq

theorem isHovered_setHovered_true {item : TabItem K} (h : ¬ item.IsHovered)
    (hhovered : (item.setHovered true).IsHovered) : item.selected = false := by
  unfold setHovered at hhovered
  split at hhovered
  · exact absurd hhovered h
  · rename_i hfree
    simp only [Bool.or_eq_true, not_or, Bool.not_eq_true] at hfree
    exact hfree.1

end TabItem

namespace TabStrip

/-- The items that show the pointer contain the point where it is, if there is such a point. -/
def HoversOnly (strip : TabStrip K) (at? : Option (Point K)) : Prop :=
  ∀ item ∈ strip.items, item.IsHovered → at?.any item.core.contains

theorem hovering_new (id : ViewId) (metrics : TextMetrics K) (settings : Settings K) :
    (TabStrip.new id metrics settings).Hovering := by
  constructor <;> simp [TabStrip.new]

variable {strip : TabStrip K}

namespace Hovering

theorem forall₂_calms_placeItems (origin : Point K) (height inset x : K)
    (items : List (TabItem K)) :
    List.Forall₂ TabItem.Calms items (placeItems origin height inset x items) := by
  induction items generalizing x with
  | nil => exact .nil
  | cons item rest ih => exact .cons (item.calms_allocate _) (ih _)

theorem layout (h : strip.Hovering) : strip.layout.Hovering :=
  h.calms strip.layout_core_id rfl rfl (forall₂_calms_placeItems _ _ _ _ _)

theorem setFont (h : strip.Hovering) (font : Font) : (strip.setFont font).Hovering :=
  h.mapItems (fun item => item.calms_setFont font) (ViewCore.setFont_id _ _) rfl rfl rfl

theorem setColor (h : strip.Hovering) (color : Color) : (strip.setColor color).Hovering :=
  h.mapItems (fun item => item.calms_setColor color)
    ((ViewCore.invalidate_id _).trans (ViewCore.setColor_id _ _)) rfl rfl rfl

theorem setScale (h : strip.Hovering) (scale : K) : (strip.setScale scale).Hovering :=
  h.mapItems (fun item => item.calms_setScale scale) rfl rfl rfl rfl

theorem pushItem (h : strip.Hovering) (title : String) : (strip.pushItem title).Hovering := by
  have hid := Tab.newItem_core_id strip title
  have hnormal : ¬ (strip.newItem title).IsHovered := by
    simp [newItem, TabItem.new, TabItem.setTitle, TabItem.remeasure, TabItem.IsHovered,
      ViewCore.new, ViewCore.setParent, ViewCore.setScale, ViewCore.setColor, ViewCore.setFont]
  refine ⟨?_, ?_, ?_, ?_⟩
  · refine List.map_append ▸ List.nodup_append.mpr ⟨h.nodup, by simp, ?_⟩
    intro id hm id' hm'
    obtain ⟨item, hitem, rfl⟩ := List.mem_map.mp hm
    obtain ⟨n, hn, hnumber⟩ := h.numbered item hitem
    simp only [List.map_cons, List.map_nil, List.mem_singleton] at hm'
    rw [hm', hid, hnumber]
    simp only [ne_eq, ViewId.item.injEq, true_and]
    omega
  · intro item hm
    rcases List.mem_append.mp hm with hm | hm
    · obtain ⟨n, hn, hnumber⟩ := h.numbered item hm
      exact ⟨n, Nat.lt_succ_of_lt hn, hnumber⟩
    · rw [List.mem_singleton.mp hm]
      exact ⟨strip.made, Nat.lt_succ_self _, hid⟩
  · intro item hm hshown
    rcases List.mem_append.mp hm with hm | hm
    · exact h.remembered item hm hshown
    · exact absurd (List.mem_singleton.mp hm ▸ hshown) hnormal
  · intro item hm hshown
    rcases List.mem_append.mp hm with hm | hm
    · exact h.unselected item hm hshown
    · exact absurd (List.mem_singleton.mp hm ▸ hshown) hnormal

/-! ## Following the pointer -/

/-- The item that is remembered lets go of the pointer, and so none shows it. -/
theorem released (h : strip.Hovering) :
    ∀ item ∈ (strip.setHovered strip.hovered false).items, ¬ item.IsHovered := by
  intro item' hm hshown
  unfold TabStrip.setHovered at hm
  split at hm
  · rename_i index hindex
    obtain ⟨j, hj⟩ := List.mem_iff_getElem?.mp hm
    simp only [TabStrip.modifyItem, List.getElem?_modify] at hj
    obtain ⟨item, hitem, rfl⟩ := Option.map_eq_some_iff.mp hj
    have hmem := List.mem_of_getElem? hitem
    split at hshown
    · exact TabItem.not_isHovered_setHovered_false (h.unselected item hmem) hshown
    · rename_i hne
      rw [h.remembered item hmem hshown, Option.bind_some, h.indexOf? hitem] at hindex
      exact hne (Option.some.inj hindex).symm
  · rename_i hnone
    obtain ⟨j, hj⟩ := List.mem_iff_getElem?.mp hm
    rw [h.remembered item' hm hshown, Option.bind_some, h.indexOf? hj] at hnone
    cases hnone

theorem setHovered_false (h : strip.Hovering) (id : Option ViewId) :
    (strip.setHovered id false).Hovering := by
  unfold TabStrip.setHovered
  split
  · exact h.modifyItem fun item _ => item.calms_setHovered_false
  · exact h

/-- An item that takes the pointer is the one to be remembered. -/
theorem setHovered_true (h : strip.Hovering) (hnone : ∀ item ∈ strip.items, ¬ item.IsHovered)
    (id : Option ViewId) : Hovering { strip.setHovered id true with hovered := id } := by
  unfold TabStrip.setHovered
  split
  · rename_i index hindex
    obtain ⟨target, rfl, hindex⟩ := Option.bind_eq_some_iff.mp hindex
    obtain ⟨hi, hid, -⟩ := List.findIdx?_eq_some_iff_getElem.mp hindex
    have hids : (strip.modifyItem index (·.setHovered true)).items.map (·.core.id) =
        strip.items.map (·.core.id) :=
      Tab.map_modifyItem (·.core.id) (fun item => item.setHovered_core_id true) strip index
    have hshown : ∀ item' ∈ (strip.modifyItem index (·.setHovered true)).items, item'.IsHovered →
        item'.core.id = target ∧ item'.selected = false := by
      intro item' hm hshown
      obtain ⟨j, hj⟩ := List.mem_iff_getElem?.mp hm
      simp only [TabStrip.modifyItem, List.getElem?_modify] at hj
      obtain ⟨item, hitem, rfl⟩ := Option.map_eq_some_iff.mp hj
      have hcalm := hnone item (List.mem_of_getElem? hitem)
      split at hshown
      · rename_i heq
        subst heq
        obtain rfl : strip.items[index] = item := by simpa [hi] using hitem
        simp only [if_true, TabItem.setHovered_core_id, Tab.setHovered_selected]
        exact ⟨by simpa using hid, TabItem.isHovered_setHovered_true hcalm hshown⟩
      · exact absurd hshown hcalm
    refine ⟨hids ▸ h.nodup, fun item' hm => ?_, fun item' hm h' => ?_, fun item' hm h' => ?_⟩
    · have hmem := List.mem_map_of_mem (f := (·.core.id)) hm
      rw [hids] at hmem
      obtain ⟨item, hitem, hsame⟩ := List.mem_map.mp hmem
      exact hsame ▸ h.numbered item hitem
    · exact congrArg some (hshown item' hm h').1.symm
    · exact (hshown item' hm h').2
  · exact h.withHovered hnone id

theorem track (h : strip.Hovering) (p : Point K) : (strip.track p).Hovering := by
  simp only [TabStrip.track]
  split
  · exact h
  · exact (h.setHovered_false strip.hovered).setHovered_true h.released _

theorem untrack (h : strip.Hovering) : strip.untrack.Hovering :=
  (h.setHovered_false strip.hovered).withHovered h.released none

/-- After the pointer has moved, an item that shows it is under it. -/
theorem hoversOnly_track (h : strip.Hovering) (p : Point K) :
    (strip.track p).HoversOnly (some p) := by
  intro item' hm hshown
  have hremembered := strip.track_hovered p
  rw [(h.track p).remembered item' hm hshown] at hremembered
  obtain ⟨index, hindex, hid⟩ := Option.bind_eq_some_iff.mp hremembered.symm
  obtain ⟨under, hunder, hid⟩ := Option.map_eq_some_iff.mp hid
  obtain ⟨hi, hcontains, -⟩ := List.findIdx?_eq_some_iff_getElem.mp hindex
  obtain rfl : strip.items[index] = under := by simpa [hi] using hunder
  obtain ⟨item, hitem, hstill⟩ := exists_left_of_forall₂ (strip.still_track p).items hm
  have hsame : item = strip.items[index] :=
    h.eq_of_id_eq hitem (List.getElem_mem hi) (hstill.look.id_eq.symm.trans hid.symm)
  rw [Option.any_some, ViewCore.contains, hstill.rect_eq, hsame]
  exact hcontains

/-- After the pointer has left, no item shows it. -/
theorem hoversOnly_untrack (h : strip.Hovering) : strip.untrack.HoversOnly none :=
  fun item hm hshown => absurd hshown (h.released item hm)

end Hovering

end TabStrip

end WidgetToolkit
