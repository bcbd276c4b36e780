import WidgetToolkit.Menu.Desk

/-! # What can be done to a desk

Actions come to single moves. The slots of items are not touched by any of them. -/

namespace WidgetToolkit.Desk

variable {σ : Type}

/-- A single change to a desk, with the notices to peers. -/
inductive Move (desk : Desk σ) : List (PeerNotice σ) → Desk σ → Prop
  | item (id : ItemId) {change : MenuItem σ → MenuItem σ}
      (hmenu : ∀ item, (change item).menu = item.menu)
      (hclicked : ∀ item, (change item).clicked = item.clicked) :
      Move desk [] (desk.modifyItem id change)
  | newItem (name : String) (kind : ItemKind) (label : String) :
      Move desk [] (desk.newItem name kind label)
  | newMenu {desk' : Desk σ} (name : String) (recorded : Bool)
      (hdesk : desk' = { desk with menus := desk.menus ++ [⟨name, [], recorded, true⟩] }) :
      Move desk [⟨⟨desk.menus.length⟩, .init, desk'⟩] desk'
  | drop {desk' : Desk σ} {id : MenuId} {menu : Menu} (hmenu : desk.menu? id = some menu)
      (hdesk : desk' = (menu.items.foldl (fun desk item => desk.link item none) desk).modifyMenu id
        fun menu => { menu with items := [], live := false }) :
      Move desk [⟨id, .destroy, desk'⟩] desk'
  | insert {desk' : Desk σ} {id : MenuId} {menu : Menu} {item : ItemId} {entry : MenuItem σ}
      {index : Nat} (hmenu : desk.menu? id = some menu) (hitem : desk.item? item = some entry)
      (hfree : entry.menu = none) (hindex : index ≤ menu.items.length)
      (hdesk : desk' = (desk.modifyMenu id fun menu =>
        { menu with items := menu.items.insertIdx index item }).link item (some id)) :
      Move desk [⟨id, .insert item index, desk'⟩] desk'
  | remove {id : MenuId} {menu : Menu} {item : ItemId} (hmenu : desk.menu? id = some menu)
      (hitem : item ∈ menu.items) :
      Move desk [⟨id, .remove item, desk⟩]
        ((desk.link item none).modifyMenu id fun menu =>
          { menu with items := menu.items.erase item })

/-- Changes one after the other. -/
inductive Moves : Desk σ → List (PeerNotice σ) → Desk σ → Prop
  | rest (desk : Desk σ) : Moves desk [] desk
  | step {desk between desk' : Desk σ} {notices further : List (PeerNotice σ)}
      (hmove : Move desk notices between) (hmoves : Moves between further desk') :
      Moves desk (notices ++ further) desk'

variable {desk desk' : Desk σ} {notices : List (PeerNotice σ)}

theorem Move.once (h : Move desk notices desk') : Moves desk notices desk' := by
  simpa using Moves.step h (.rest desk')

/-- A property of the notices so far and of the desk, which no move takes away, nor a change to the
slots of an item. -/
structure Invariant (property : List (PeerNotice σ) → Desk σ → Prop) : Prop where
  empty : property [] .empty
  move : ∀ {before notices : List (PeerNotice σ)} {desk desk' : Desk σ},
    Move desk notices desk' → property before desk → property (before ++ notices) desk'
  signal : ∀ {before : List (PeerNotice σ)} {desk : Desk σ} (id : ItemId) (signal : Signal σ),
    property before desk →
      property before (desk.modifyItem id fun entry => { entry with clicked := signal })

theorem Invariant.moves {property : List (PeerNotice σ) → Desk σ → Prop} (h : Invariant property)
    (hmoves : Moves desk notices desk') {before : List (PeerNotice σ)}
    (hproperty : property before desk) : property (before ++ notices) desk' := by
  induction hmoves generalizing before with
  | rest => simpa using hproperty
  | step hmove _ ih =>
      rw [← List.append_assoc]
      exact ih (h.move hmove hproperty)

/-! ## Operations

One that is rejected changes nothing, and no peer is told. -/

theorem mem_itemsOf_iff {id : MenuId} {item : ItemId} :
    item ∈ desk.itemsOf id ↔ ∃ menu, desk.menu? id = some menu ∧ item ∈ menu.items := by
  rw [itemsOf]
  cases desk.menu? id <;> simp

theorem move_newMenu (desk : Desk σ) (name : String) (recorded : Bool) :
    desk.Move (desk.newMenu name recorded).notices (desk.newMenu name recorded).value :=
  .newMenu name recorded rfl

theorem moves_drop (desk : Desk σ) (id : MenuId) :
    desk.Moves (desk.drop id).notices (desk.drop id).value := by
  unfold drop
  split
  · exact .rest desk
  · rename_i menu hmenu
    exact (Move.drop hmenu rfl).once

theorem moves_insert (desk : Desk σ) (id : MenuId) (item : ItemId) (index : Nat) :
    desk.Moves (desk.insert id item index).notices (desk.insert id item index).value.2 := by
  unfold insert
  split
  · rename_i menu entry hmenu hitem
    split
    · exact .rest desk
    · rename_i haccepted
      simp only [Bool.or_eq_true, decide_eq_true_eq, not_or, Nat.not_lt] at haccepted
      have hfree : entry.menu = none := by simpa using haccepted.1
      exact (Move.insert hmenu hitem hfree haccepted.2 rfl).once
  · exact .rest desk

theorem moves_remove (desk : Desk σ) (id : MenuId) (item : ItemId) :
    desk.Moves (desk.remove id item).notices (desk.remove id item).value.2 := by
  unfold remove
  split
  · rename_i hcontains
    obtain ⟨menu, hmenu, hitem⟩ := mem_itemsOf_iff.mp (List.contains_iff_mem.mp hcontains)
    exact (Move.remove hmenu hitem).once
  · exact .rest desk

/-! ## Clicks -/

theorem pressed_menu (item : MenuItem σ) : item.pressed.menu = item.menu := by
  unfold MenuItem.pressed
  split <;> rfl

theorem pressed_clicked (item : MenuItem σ) : item.pressed.clicked = item.clicked := by
  unfold MenuItem.pressed
  split <;> rfl

theorem moves_press? {item : ItemId} (h : desk.press? item = some desk') : desk.Moves [] desk' := by
  unfold press? at h
  split at h
  · split at h
    · obtain rfl := Option.some.inj h
      exact (Move.item item pressed_menu pressed_clicked).once
    · cases h
  · cases h

theorem moves_uncheck {items : List ItemId} (h : (desk.uncheck items).Moves notices desk') :
    desk.Moves notices desk' := by
  induction items generalizing desk with
  | nil => exact h
  | cons item items ih =>
      have hmove : desk.Move []
          (desk.modifyItem item fun entry => { entry with checked := false }) :=
        .item item (fun _ => rfl) fun _ => rfl
      exact .step hmove (ih h)

theorem moves_activate? {id : MenuId} {item : ItemId} (h : desk.activate? id item = some desk') :
    desk.Moves [] desk' := by
  unfold activate? at h
  simp only at h
  split at h
  · cases h
  · split at h
    · split at h
      · exact moves_uncheck (moves_press? h)
      · exact moves_press? h
    · cases h

/-! ## The signals of items -/

/-- The signal that an item emits when it is clicked. -/
def clicks (desk : Desk σ) (id : ItemId) : Signal σ := (desk.item? id).elim .empty (·.clicked)

/-- No item is lost, and no signal of an item has changed. -/
structure KeepsClicks (desk desk' : Desk σ) : Prop where
  length_le : desk.items.length ≤ desk'.items.length
  clicks_eq : ∀ id, desk'.clicks id = desk.clicks id

theorem KeepsClicks.refl (desk : Desk σ) : desk.KeepsClicks desk := ⟨Nat.le_refl _, fun _ => rfl⟩

theorem KeepsClicks.trans {a b c : Desk σ} (hab : a.KeepsClicks b) (hbc : b.KeepsClicks c) :
    a.KeepsClicks c :=
  ⟨Nat.le_trans hab.length_le hbc.length_le, fun id => (hbc.clicks_eq id).trans (hab.clicks_eq id)⟩

theorem item?_modifyItem (desk : Desk σ) (id other : ItemId)
    (change : MenuItem σ → MenuItem σ) :
    (desk.modifyItem id change).item? other =
      (desk.item? other).map fun item => if id = other then change item else item := by
  have hid : id = other ↔ id.number = other.number :=
    ⟨fun h => h ▸ rfl, fun h => by cases id; cases other; simpa using h⟩
  simp [item?, modifyItem, List.getElem?_modify, hid]

theorem keepsClicks_modifyItem (desk : Desk σ) (id : ItemId) {change : MenuItem σ → MenuItem σ}
    (hchange : ∀ item, (change item).clicked = item.clicked) :
    desk.KeepsClicks (desk.modifyItem id change) := by
  refine ⟨by simp [modifyItem], fun other => ?_⟩
  rw [clicks, clicks, item?_modifyItem]
  cases desk.item? other with
  | none => rfl
  | some item =>
      simp only [Option.map_some, Option.elim_some]
      split
      · exact hchange item
      · rfl

theorem keepsClicks_modifyMenu (desk : Desk σ) (id : MenuId) (change : Menu → Menu) :
    desk.KeepsClicks (desk.modifyMenu id change) := ⟨Nat.le_refl _, fun _ => rfl⟩

theorem keepsClicks_link (desk : Desk σ) (id : ItemId) (menu : Option MenuId) :
    desk.KeepsClicks (desk.link id menu) :=
  keepsClicks_modifyItem desk id fun _ => rfl

theorem keepsClicks_links (desk : Desk σ) (items : List ItemId) (menu : Option MenuId) :
    desk.KeepsClicks (items.foldl (fun desk item => desk.link item menu) desk) := by
  induction items generalizing desk with
  | nil => exact .refl desk
  | cons item items ih => exact (keepsClicks_link desk item menu).trans (ih _)

theorem keepsClicks_newItem (desk : Desk σ) (name : String) (kind : ItemKind) (label : String) :
    desk.KeepsClicks (desk.newItem name kind label) := by
  refine ⟨by simp [newItem], fun id => ?_⟩
  simp only [clicks, item?, newItem, List.getElem?_append]
  split
  · rfl
  · rename_i hbeyond
    rw [List.getElem?_eq_none (Nat.le_of_not_lt hbeyond), List.getElem?_singleton]
    split <;> rfl

theorem Move.keepsClicks (h : Move desk notices desk') : desk.KeepsClicks desk' := by
  cases h with
  | item id _ hclicked => exact keepsClicks_modifyItem desk id hclicked
  | newItem name kind label => exact keepsClicks_newItem desk name kind label
  | newMenu _ _ hdesk =>
      subst hdesk
      exact ⟨Nat.le_refl _, fun _ => rfl⟩
  | drop _ hdesk =>
      subst hdesk
      exact (keepsClicks_links desk _ none).trans (keepsClicks_modifyMenu _ _ _)
  | insert _ _ _ _ hdesk =>
      subst hdesk
      exact (keepsClicks_modifyMenu desk _ _).trans (keepsClicks_link _ _ _)
  | remove => exact (keepsClicks_link desk _ none).trans (keepsClicks_modifyMenu _ _ _)

theorem Moves.keepsClicks (h : Moves desk notices desk') : desk.KeepsClicks desk' := by
  induction h with
  | rest desk => exact .refl desk
  | step hmove _ ih => exact hmove.keepsClicks.trans ih

/-- A name stands for an item that is there. -/
theorem itemNamed?_lt {name : String} {id : ItemId} (h : desk.itemNamed? name = some id) :
    id.number < desk.items.length := by
  obtain ⟨⟨item, n⟩, hfound, rfl⟩ := Option.map_eq_some_iff.mp h
  have hm := List.mem_of_find?_eq_some hfound
  exact (List.mem_zipIdx' (List.mem_reverse.mp hm)).1

end WidgetToolkit.Desk
