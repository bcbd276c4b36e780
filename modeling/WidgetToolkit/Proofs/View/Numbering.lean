import WidgetToolkit.Proofs.View.Strips

/-! # Items are told apart

A strip numbers the items that it makes, and never uses a number again. So an item that is looked up
by its identity is found where it is, in every tab that is reached. -/

namespace WidgetToolkit

variable {K : Type}

namespace TabStrip

/-- The items of a strip have different numbers, all of which have been given out. -/
structure Numbered (strip : TabStrip K) : Prop where
  nodup : (strip.items.map (·.core.id)).Nodup
  made : ∀ id ∈ strip.items.map (·.core.id), ∃ n < strip.made, id = .item strip.core.id n

namespace Numbered

variable {strip strip' : TabStrip K}

theorem congr (h : strip.Numbered)
    (hids : strip'.items.map (·.core.id) = strip.items.map (·.core.id))
    (hid : strip'.core.id = strip.core.id) (hmade : strip'.made = strip.made) :
    strip'.Numbered := by
  constructor
  · rw [hids]
    exact h.nodup
  · rw [hids, hid, hmade]
    exact h.made

theorem indexOf? (h : strip.Numbered) {index : Nat} {entry : TabItem K}
    (hentry : strip.items[index]? = some entry) :
    strip.indexOf? entry.core.id = some index :=
  Tab.indexOf?_of_nodup h.nodup hentry

theorem eraseItem (h : strip.Numbered) (index : Nat) (id : ViewId) :
    (strip.eraseItem index id).Numbered := by
  have hsublist := (List.eraseIdx_sublist strip.items index).map (·.core.id)
  exact ⟨h.nodup.sublist hsublist, fun id hm => h.made id (hsublist.subset hm)⟩

end Numbered

variable [Coord K] {strip : TabStrip K}

theorem Numbered.pushItem (h : strip.Numbered) (title : String) :
    (strip.pushItem title).Numbered := by
  have hids : (strip.pushItem title).items.map (·.core.id) =
      strip.items.map (·.core.id) ++ [.item strip.core.id strip.made] := by
    simp [TabStrip.pushItem, Tab.newItem_core_id]
  constructor
  · rw [hids, ← List.concat_eq_append, List.nodup_concat]
    refine ⟨fun hm => ?_, h.nodup⟩
    obtain ⟨n, hn, heq⟩ := h.made _ hm
    exact Nat.ne_of_gt hn (ViewId.item.inj heq).2
  · rw [hids, List.forall_mem_append, List.forall_mem_singleton]
    refine ⟨fun id hm => ?_, strip.made, Nat.lt_succ_self _, rfl⟩
    obtain ⟨n, hn, heq⟩ := h.made id hm
    exact ⟨n, Nat.lt_succ_of_lt hn, heq⟩

/-- A strip that shows the pointer on other items has the same ones. -/
theorem Numbered.still (h : strip.Numbered) {strip' : TabStrip K} (hstill : strip.Still strip')
    (hmade : strip'.made = strip.made) : strip'.Numbered :=
  h.congr (map_eq_of_forall₂ hstill.items fun _ _ h => h.look.id_eq) hstill.look.id_eq hmade

@[simp] theorem setHovered_made (strip : TabStrip K) (id : Option ViewId) (hovered : Bool) :
    (strip.setHovered id hovered).made = strip.made := by
  unfold TabStrip.setHovered
  split <;> rfl

@[simp] theorem track_made (strip : TabStrip K) (p : Point K) :
    (strip.track p).made = strip.made := by
  simp only [track]
  split <;> simp

/-- What is told by the identities of the items, by that of the strip, and by how many items it has
made, is kept if it outlives that an item is added, or one is removed. -/
theorem kept_of_ids {good : TabStrip K → Prop}
    (hcongr : ∀ {strip strip' : TabStrip K}, good strip →
      strip'.items.map (·.core.id) = strip.items.map (·.core.id) →
      strip'.core.id = strip.core.id → strip'.made = strip.made → good strip')
    (hpush : ∀ {strip : TabStrip K} (title : String), good strip → good (strip.pushItem title))
    (herase : ∀ {strip : TabStrip K} (index : Nat) (id : ViewId), good strip →
      good (strip.eraseItem index id)) :
    TabStrip.Kept (fun entry entry' => entry'.core.id = entry.core.id) good where
  withCore hid h := hcongr h rfl hid rfl
  withSelected _ h := hcongr h rfl rfl rfl
  rememberHeight h := hcongr h rfl rfl rfl
  layout h := hcongr h (map_layout_items _ (fun _ _ => ViewCore.allocate_id _ _) _)
    (layout_core_id _) rfl
  setFont font h := hcongr h (by simp [setFont, TabItem.setFont, TabItem.remeasure])
    (ViewCore.setFont_id _ _) rfl
  setColor color h := hcongr h (by simp [setColor, TabItem.setColor])
    ((ViewCore.invalidate_id _).trans (ViewCore.setColor_id _ _)) rfl
  setScale scale h := hcongr h (by simp [setScale, TabItem.setScale, TabItem.remeasure]) rfl rfl
  setSelected index selected h :=
    hcongr h (Tab.map_modifyItem _ (fun _ => ViewCore.setState_id _ _) _ index) rfl rfl
  pushItem title h := hpush title h
  eraseItem _ h := herase _ _ h
  track p h := hcongr h (map_eq_of_forall₂ (still_track _ p).items fun _ _ h => h.look.id_eq)
    (still_track _ p).look.id_eq (track_made _ p)
  untrack h := hcongr h (map_eq_of_forall₂ (still_untrack _).items fun _ _ h => h.look.id_eq)
    (still_untrack _).look.id_eq (setHovered_made _ _ _)
  touch {strip index entry entry'} hentry hid h := by
    have hitems : List.Forall₂ (fun item item' => item'.core.id = item.core.id) strip.items
        (strip.items.modify index fun _ => entry') := by
      apply forall₂_modify
      · exact fun _ => rfl
      · intro item hitem
        rw [hid, Option.some.inj (hitem.symm.trans hentry)]
    exact hcongr h (map_eq_of_forall₂ hitems fun _ _ h => h) rfl rfl

/-- Whatever a tab does to its strip, the items stay told apart. -/
theorem lasting_numbered :
    TabStrip.Lasting (fun entry entry' => entry'.core.id = entry.core.id)
      (TabStrip.Numbered (K := K)) where
  toKept := kept_of_ids Numbered.congr (fun title h => h.pushItem title) fun index id h =>
    h.eraseItem index id
  new _ _ _ := ⟨.nil, fun _ hm => absurd hm List.not_mem_nil⟩

end TabStrip

namespace View

variable [Coord K]

theorem step_item_id {entry entry' : TabItem K} {step : ViewStep K}
    (hstep : ((View.item entry).step step).value.2 = .item entry') :
    entry'.core.id = entry.core.id := by
  cases step with
  | core change =>
      cases hstep
      exact entry.core.step_id change
  | place placement =>
      cases placement with
      | allocate rect =>
          cases hstep
          exact ViewCore.allocate_id _ _
      | layout =>
          cases hstep
          rfl
      | rescale scale =>
          cases hstep
          exact ViewCore.invalidate_id _
  | setFont font =>
      cases hstep
      exact (ViewCore.invalidate_id _).trans (ViewCore.setFont_id _ _)
  | setColor color =>
      cases hstep
      exact ViewCore.setColor_id _ _
  | setVisible visible =>
      cases hstep
      exact ViewCore.setVisible_id _ _
  | enter | leave =>
      cases hstep
      exact (TabItem.still_setHovered _ _).look.id_eq
  | move | click | draw | addPage | removePage | selectPage | askHeight | askMinimumSize =>
      cases hstep
      rfl

/-- In every tree that is reached, the items of every tab are told apart. -/
theorem Reachable.numbered {allowed : View K → List Branch → ViewStep K → Prop}
    {root : View K} (h : root.Reachable allowed) : root.Strips TabStrip.Numbered := by
  apply Reachable.strips TabStrip.lasting_numbered
  exact h.mono fun root path step _ entry entry' _ hstep => step_item_id hstep

end View

end WidgetToolkit
