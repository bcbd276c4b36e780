import WidgetToolkit.Proofs.Menu.Radio

/-! # The kind of an item is settled when it is made

Whatever is done to a desk, no item is lost and none changes its kind. So the groups of a menu are
told by its list. Check marks change by clicks, and where they are set, and not otherwise. -/

namespace WidgetToolkit.Desk

variable {σ : Type} {desk desk' : Desk σ}

/-- Every item that is there stays, and is of the kind that it was. -/
def KeepsKinds (desk desk' : Desk σ) : Prop :=
  ∀ item entry, desk.item? item = some entry →
    ∃ entry', desk'.item? item = some entry' ∧ entry'.kind = entry.kind

theorem KeepsKinds.refl (desk : Desk σ) : desk.KeepsKinds desk := fun _ entry h => ⟨entry, h, rfl⟩

theorem KeepsKinds.trans {a b c : Desk σ} (hab : a.KeepsKinds b) (hbc : b.KeepsKinds c) :
    a.KeepsKinds c := by
  intro item entry h
  obtain ⟨between, hbetween, hkind⟩ := hab item entry h
  obtain ⟨after, hafter, hkind'⟩ := hbc item between hbetween
  exact ⟨after, hafter, hkind'.trans hkind⟩

/-- Every item that is there stays, is of the kind that it was, and is checked if it was. -/
def KeepsMarks (desk desk' : Desk σ) : Prop :=
  ∀ item entry, desk.item? item = some entry →
    ∃ entry', desk'.item? item = some entry' ∧ entry'.kind = entry.kind ∧
      entry'.checked = entry.checked

theorem KeepsMarks.refl (desk : Desk σ) : desk.KeepsMarks desk :=
  fun _ entry h => ⟨entry, h, rfl, rfl⟩

theorem KeepsMarks.trans {a b c : Desk σ} (hab : a.KeepsMarks b) (hbc : b.KeepsMarks c) :
    a.KeepsMarks c := by
  intro item entry h
  obtain ⟨between, hbetween, hkind, hchecked⟩ := hab item entry h
  obtain ⟨after, hafter, hkind', hchecked'⟩ := hbc item between hbetween
  exact ⟨after, hafter, hkind'.trans hkind, hchecked'.trans hchecked⟩

theorem KeepsMarks.kinds (h : desk.KeepsMarks desk') : desk.KeepsKinds desk' := by
  intro item entry hitem
  obtain ⟨entry', hitem', hkind, -⟩ := h item entry hitem
  exact ⟨entry', hitem', hkind⟩

/-! ## Changes -/

theorem keepsKinds_modifyItem (desk : Desk σ) (id : ItemId) {change : MenuItem σ → MenuItem σ}
    (hkind : ∀ entry, (change entry).kind = entry.kind) :
    desk.KeepsKinds (desk.modifyItem id change) := by
  intro item entry h
  rw [item?_modifyItem, h]
  refine ⟨_, rfl, ?_⟩
  split
  · exact hkind entry
  · rfl

theorem keepsMarks_modifyItem (desk : Desk σ) (id : ItemId) {change : MenuItem σ → MenuItem σ}
    (hchange : ∀ entry, (change entry).kind = entry.kind ∧
      (change entry).checked = entry.checked) :
    desk.KeepsMarks (desk.modifyItem id change) := by
  intro item entry h
  rw [item?_modifyItem, h]
  refine ⟨_, rfl, ?_⟩
  split
  · exact hchange entry
  · exact ⟨rfl, rfl⟩

theorem keepsMarks_modifyMenu (desk : Desk σ) (id : MenuId) (change : Menu → Menu) :
    desk.KeepsMarks (desk.modifyMenu id change) := .refl desk

theorem keepsMarks_link (desk : Desk σ) (id : ItemId) (menu : Option MenuId) :
    desk.KeepsMarks (desk.link id menu) := keepsMarks_modifyItem desk id fun _ => ⟨rfl, rfl⟩

theorem keepsMarks_newItem (desk : Desk σ) (name : String) (kind : ItemKind) (label : String) :
    desk.KeepsMarks (desk.newItem name kind label) := by
  intro item entry h
  refine ⟨entry, ?_, rfl, rfl⟩
  rw [item?, newItem, List.getElem?_append_left]
  · exact h
  · exact (List.getElem?_eq_some_iff.mp h).1

theorem keepsMarks_newMenu (desk : Desk σ) (name : String) (recorded : Bool) :
    desk.KeepsMarks (desk.newMenu name recorded).value := .refl desk

theorem keepsMarks_drop (desk : Desk σ) (id : MenuId) : desk.KeepsMarks (desk.drop id).value := by
  unfold drop
  split
  · exact .refl desk
  · refine KeepsMarks.trans ?_ (keepsMarks_modifyMenu _ id _)
    refine List.foldlRecOn _ _ (.refl desk) fun between h item _ => ?_
    exact h.trans (keepsMarks_link between item none)

theorem keepsMarks_insert (desk : Desk σ) (id : MenuId) (item : ItemId) (index : Nat) :
    desk.KeepsMarks (desk.insert id item index).value.2 := by
  unfold insert
  split
  · split
    · exact .refl desk
    · exact (desk.keepsMarks_modifyMenu id _).trans (keepsMarks_link _ item (some id))
  · exact .refl desk

theorem keepsMarks_remove (desk : Desk σ) (id : MenuId) (item : ItemId) :
    desk.KeepsMarks (desk.remove id item).value.2 := by
  unfold remove
  split
  · exact (desk.keepsMarks_link item none).trans (keepsMarks_modifyMenu _ id _)
  · exact .refl desk

/-! ## Clicks -/

theorem keepsKinds_uncheck (desk : Desk σ) (items : List ItemId) :
    desk.KeepsKinds (desk.uncheck items) := by
  refine List.foldlRecOn _ _ (.refl desk) fun between h item _ => ?_
  exact h.trans (keepsKinds_modifyItem between item fun _ => rfl)

theorem keepsKinds_pressed (desk : Desk σ) (item : ItemId) :
    desk.KeepsKinds (desk.modifyItem item (·.pressed)) := by
  refine keepsKinds_modifyItem desk item fun entry => ?_
  rw [MenuItem.pressed]
  split <;> rfl

theorem keepsKinds_press? {item : ItemId} (h : desk.press? item = some desk') :
    desk.KeepsKinds desk' := by
  obtain ⟨-, rfl⟩ := press?_eq_some_iff.mp h
  exact keepsKinds_pressed desk item

theorem keepsKinds_activate? {id : MenuId} {item : ItemId}
    (h : desk.activate? id item = some desk') : desk.KeepsKinds desk' := by
  obtain ⟨-, _, -, rfl⟩ := activate?_eq_some_iff.mp h
  refine KeepsKinds.trans ?_ (keepsKinds_pressed _ item)
  split
  · exact keepsKinds_uncheck desk _
  · exact .refl desk

theorem itemsOf_activate? {id id' : MenuId} {item : ItemId}
    (h : desk.activate? id item = some desk') : desk'.itemsOf id' = desk.itemsOf id' := by
  obtain ⟨-, _, -, rfl⟩ := activate?_eq_some_iff.mp h
  refine itemsOf_congr ?_
  split
  · exact congrArg (·[id'.number]?) (desk.menus_uncheck _)
  · rfl

/-! ## Groups -/

theorem Linked.item?_isSome (h : desk.Linked) {id : MenuId} {item : ItemId}
    (hm : item ∈ desk.itemsOf id) : (desk.item? item).isSome := by
  have hlink := (h.link_iff item id).mpr hm
  rw [link?, Option.map_eq_some_iff] at hlink
  obtain ⟨entry, hentry, -⟩ := hlink
  rw [hentry, Option.isSome_some]

/-- As long as a menu has the same items, it has the same groups. -/
theorem KeepsKinds.grouped_iff (h : desk.KeepsKinds desk') (hlinked : desk.Linked) {id : MenuId}
    (hitems : desk'.itemsOf id = desk.itemsOf id) {item other : ItemId} :
    desk'.Grouped id item other ↔ desk.Grouped id item other := by
  rw [Grouped, Grouped, hitems]
  refine inRun_congr fun radio hm => ?_
  obtain ⟨entry, hentry⟩ := Option.isSome_iff_exists.mp (hlinked.item?_isSome hm)
  obtain ⟨entry', hentry', hkind⟩ := h radio entry hentry
  rw [isRadio, isRadio, hentry, hentry', Option.any_some, Option.any_some, hkind]

end WidgetToolkit.Desk
