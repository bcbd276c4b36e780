import WidgetToolkit.Proofs.Menu.Kinds

/-! # Checkboxes are toggled by clicks

A click toggles the checkbox that it reaches. It leaves all other checkboxes alone, even if it
reaches a radio item. -/

namespace WidgetToolkit.Desk

variable {σ : Type} {desk desk' : Desk σ} {menu : Option MenuId} {item clicked : ItemId}

def isCheckbox (desk : Desk σ) (item : ItemId) : Bool := (desk.item? item).any (·.kind == .checkbox)

/-- The desk with an item clicked, by itself or in a menu. -/
def click? (desk : Desk σ) (menu : Option MenuId) (item : ItemId) : Option (Desk σ) :=
  match menu with
  | none => desk.press? item
  | some id => desk.activate? id item

/-- A click on a checkbox gets past the checks: the checkbox is enabled, and it is in the menu if it
is clicked in one. -/
def Admits (desk : Desk σ) (menu : Option MenuId) (item : ItemId) : Prop :=
  (∃ entry, desk.item? item = some entry ∧ entry.enabled = true) ∧
    ∀ id, menu = some id → item ∈ desk.itemsOf id

instance (desk : Desk σ) (menu : Option MenuId) (item : ItemId) :
    Decidable (desk.Admits menu item) :=
  decidable_of_iff ((desk.item? item).any (·.enabled) = true ∧ ∀ id ∈ menu, item ∈ desk.itemsOf id)
    (and_congr_left' (Option.any_eq_true _ _))

theorem isCheckbox_iff : desk.isCheckbox item = true ↔
    ∃ entry, desk.item? item = some entry ∧ entry.kind = .checkbox := by
  simp [isCheckbox, Option.any_eq_true]

theorem not_isRadio_of_isCheckbox (hbox : desk.isCheckbox item = true) :
    desk.isRadio item = false := by
  obtain ⟨entry, hentry, hkind⟩ := isCheckbox_iff.mp hbox
  simp [isRadio, hentry, hkind]

theorem KeepsKinds.isCheckbox (h : desk.KeepsKinds desk') (hbox : desk.isCheckbox item = true) :
    desk'.isCheckbox item = true := by
  obtain ⟨entry, hentry, hkind⟩ := isCheckbox_iff.mp hbox
  obtain ⟨entry', hentry', hkind'⟩ := h item entry hentry
  exact isCheckbox_iff.mpr ⟨entry', hentry', hkind'.trans hkind⟩

theorem KeepsMarks.isChecked_eq (h : desk.KeepsMarks desk') (hbox : desk.isCheckbox item = true) :
    desk'.isChecked item = desk.isChecked item := by
  obtain ⟨entry, hentry, -⟩ := isCheckbox_iff.mp hbox
  obtain ⟨entry', hentry', -, hchecked⟩ := h item entry hentry
  rw [isChecked, isChecked, hentry, hentry', Option.any_some, Option.any_some, hchecked]

theorem keepsKinds_click? (h : desk.click? menu clicked = some desk') : desk.KeepsKinds desk' := by
  cases menu with
  | none => exact keepsKinds_press? h
  | some id => exact keepsKinds_activate? h

theorem any_reacts_iff_of_isCheckbox (hbox : desk.isCheckbox item = true) :
    (desk.item? item).any (·.reacts) = true ↔
      ∃ entry, desk.item? item = some entry ∧ entry.enabled = true := by
  obtain ⟨entry, hentry, hkind⟩ := isCheckbox_iff.mp hbox
  simp [hentry, MenuItem.reacts, hkind]

theorem click?_isSome_iff (hbox : desk.isCheckbox item = true) :
    (desk.click? menu item).isSome ↔ desk.Admits menu item := by
  rw [Admits, ← any_reacts_iff_of_isCheckbox hbox]
  cases menu with
  | none => simp [click?, Option.isSome_iff_exists, press?_eq_some_iff]
  | some id =>
      rw [any_reacts_iff, and_comm]
      simpa [click?] using activate?_isSome_iff

/-! ## Check marks -/

theorem isChecked_pressed_checkbox (hbox : desk.isCheckbox item = true) :
    (desk.modifyItem item (·.pressed)).isChecked item = !desk.isChecked item := by
  obtain ⟨entry, hentry, hkind⟩ := isCheckbox_iff.mp hbox
  simp [isChecked, item?_modifyItem, hentry, MenuItem.pressed, hkind]

theorem isRadio_of_mem_radioNeighbours {items : List ItemId} {index : Nat}
    (hm : item ∈ desk.radioNeighbours items index) : desk.isRadio item = true := by
  rcases List.mem_append.mp hm with hm | hm <;> exact List.mem_takeWhile_imp hm

/-- The item that a click reaches is pressed when some radio items have been unchecked. -/
theorem click?_eq_uncheck (h : desk.click? menu clicked = some desk') :
    ∃ radios, (∀ radio ∈ radios, desk.isRadio radio = true) ∧
      desk' = (desk.uncheck radios).modifyItem clicked (·.pressed) := by
  cases menu with
  | none => exact ⟨[], by simp, (press?_eq_some_iff.mp h).2⟩
  | some id =>
      obtain ⟨-, index, -, rfl⟩ := activate?_eq_some_iff.mp h
      by_cases hradio : desk.isRadio clicked = true
      · rw [if_pos hradio]
        exact ⟨_, fun _ => isRadio_of_mem_radioNeighbours, rfl⟩
      · rw [if_neg hradio]
        exact ⟨[], by simp, rfl⟩

theorem isChecked_click? (hbox : desk.isCheckbox item = true)
    (h : desk.click? menu clicked = some desk') :
    desk'.isChecked item = (desk.isChecked item ^^ decide (clicked = item)) := by
  obtain ⟨radios, hradios, rfl⟩ := click?_eq_uncheck h
  have hspared : item ∉ radios := fun hm => by
    have hradio := hradios item hm
    rw [not_isRadio_of_isCheckbox hbox] at hradio
    exact Bool.false_ne_true hradio
  have hmark : (desk.uncheck radios).isChecked item = desk.isChecked item := by
    simp [isChecked_uncheck, hspared]
  by_cases hclicked : clicked = item
  · rw [hclicked, isChecked_pressed_checkbox ((keepsKinds_uncheck desk radios).isCheckbox hbox),
      hmark]
    simp
  · rw [isChecked_modifyItem_of_ne _ _ (Ne.symm hclicked), hmark]
    simp [hclicked]

end WidgetToolkit.Desk
