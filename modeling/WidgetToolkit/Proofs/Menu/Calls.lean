import WidgetToolkit.Proofs.Menu.Editing

/-! # What peers are told

A change to a desk makes at most one call to the peer of a menu, and it can be told beforehand which
one. -/

namespace WidgetToolkit.Desk

variable {σ : Type} {desk : Desk σ} {id : MenuId} {menu : Menu}

/-! ## Names of menus -/

/-- A menu that has not been dropped has a name, and it is the last one to have it. -/
def Bears (desk : Desk σ) (id : MenuId) (name : String) : Prop :=
  (∃ menu, desk.menu? id = some menu ∧ menu.name = name) ∧
    ∀ other menu, desk.menu? other = some menu → menu.name = name → other.number ≤ id.number

theorem menuNamed?_eq_some_iff {name : String} :
    desk.menuNamed? name = some id ↔ desk.Bears id name := by
  have hlatest : ∀ n menu, desk.menus.zipIdx.reverse.find?
      (fun entry => entry.1.live && entry.1.name == name) = some (menu, n) ↔
        desk.menus[n]? = some menu ∧ (menu.live && menu.name == name) = true ∧
          ∀ (m : Nat) other, desk.menus[m]? = some other →
            (other.live && other.name == name) = true → m ≤ n :=
    fun _ _ =>
      find?_reverse_zipIdx_eq_some_iff (p := fun menu : Menu => menu.live && menu.name == name)
  simp only [Bool.and_eq_true, beq_iff_eq] at hlatest
  constructor
  · intro h
    obtain ⟨⟨menu, n⟩, hfind, rfl⟩ := Option.map_eq_some_iff.mp h
    obtain ⟨hmenu, ⟨hlive, hname⟩, hlast⟩ := (hlatest n menu).mp hfind
    refine ⟨⟨menu, menu?_eq_some_iff.mpr ⟨hmenu, hlive⟩, hname⟩, fun other menu hother hname => ?_⟩
    obtain ⟨hother, hlive⟩ := menu?_eq_some_iff.mp hother
    exact hlast other.number menu hother ⟨hlive, hname⟩
  · rintro ⟨⟨menu, hmenu, hname⟩, hlast⟩
    obtain ⟨hmenu, hlive⟩ := menu?_eq_some_iff.mp hmenu
    refine Option.map_eq_some_iff.mpr ⟨(menu, id.number), (hlatest _ _).mpr ?_, rfl⟩
    refine ⟨hmenu, ⟨hlive, hname⟩, fun m other hother h => ?_⟩
    exact hlast ⟨m⟩ other (menu?_eq_some_iff.mpr ⟨hother, h.1⟩) h.2

theorem menu?_of_menuNamed? {name : String} (h : desk.menuNamed? name = some id) :
    ∃ menu, desk.menu? id = some menu := by
  obtain ⟨menu, hmenu, -⟩ := (menuNamed?_eq_some_iff.mp h).1
  exact ⟨menu, hmenu⟩

/-! ## Calls -/

/-- The call for a menu that is to be made. -/
def creation (desk : Desk σ) (id : MenuId) : List PeerCall :=
  if ⟨desk.menus.length⟩ = id then [.init] else []

/-- The call for the menu that has a name and is to lose it. -/
def destruction (desk : Desk σ) (id : MenuId) (name : String) : List PeerCall :=
  if desk.menuNamed? name = some id then [.destroy] else []

/-- The call for an item that is to go into a menu: none if it is in a menu already, or if the index
is beyond the end. -/
def insertion (desk : Desk σ) (id : MenuId) (index : Nat) (item : ItemId) : List PeerCall :=
  if desk.link? item = some none ∧ index ≤ (desk.itemsOf id).length then
    [.insert item index]
  else []

/-- The call for an item that is to go out of a menu: none if the menu does not have it. -/
def removal (desk : Desk σ) (id : MenuId) (item : ItemId) : List PeerCall :=
  if item ∈ desk.itemsOf id then [.remove item] else []

/-- The call for an item and a menu that are given by their names. -/
def byName (desk : Desk σ) (id : MenuId) (menu item : String) (call : ItemId → List PeerCall) :
    List PeerCall :=
  if desk.menuNamed? menu = some id then (desk.itemNamed? item).elim [] call else []

theorem destroy_notMem_byName {call : ItemId → List PeerCall} (h : ∀ item, .destroy ∉ call item)
    (menu item : String) : .destroy ∉ desk.byName id menu item call := by
  rw [byName]
  cases desk.itemNamed? item with
  | none => simp
  | some item =>
      split
      · exact h item
      · exact List.not_mem_nil

theorem destroy_notMem_insertion (index : Nat) (item : ItemId) :
    .destroy ∉ desk.insertion id index item := by
  simp [insertion]

theorem destroy_notMem_removal (item : ItemId) : .destroy ∉ desk.removal id item := by
  simp [removal]

theorem menu?_newMenu (hmenu : desk.menu? id = some menu) (name : String) (recorded : Bool) :
    (desk.newMenu name recorded).value.menu? id = some menu := by
  obtain ⟨hmenu, hlive⟩ := menu?_eq_some_iff.mp hmenu
  obtain ⟨hlt, -⟩ := List.getElem?_eq_some_iff.mp hmenu
  exact menu?_eq_some_iff.mpr ⟨(List.getElem?_append_left hlt).trans hmenu, hlive⟩

theorem callsTo_newMenu (name : String) (recorded : Bool) :
    callsTo id (desk.newMenu name recorded).notices = desk.creation id :=
  callsTo_singleton ..

theorem callsTo_insert (hmenu : desk.menu? id = some menu) {item : ItemId} {entry : MenuItem σ}
    (hitem : desk.item? item = some entry) (index : Nat) (other : MenuId) :
    callsTo other (desk.insert id item index).notices =
      if id = other then desk.insertion id index item else [] := by
  rw [(edits_insert hmenu hitem index).callsTo other, ite_and, insertion]
  simp only [itemsOf_eq hmenu, link?, hitem, Option.map_some, Option.some_inj]

theorem callsTo_remove (hmenu : desk.menu? id = some menu) (item : ItemId) (other : MenuId) :
    callsTo other (desk.remove id item).notices =
      if id = other then desk.removal id item else [] := by
  rw [(edits_remove hmenu item).callsTo other, ite_and, removal, itemsOf_eq hmenu]

end WidgetToolkit.Desk
