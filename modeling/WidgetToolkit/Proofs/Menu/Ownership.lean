import Mathlib.Data.List.Nodup
import WidgetToolkit.Proofs.Menu.Mirror

/-! # Items know the menu that they are in

An item is linked to a menu just while the menu has it, and a menu never has an item twice. Peers that
are told of an item find it linked; a peer that is told to go finds no item linked to its menu. -/

namespace WidgetToolkit.Desk

variable {σ : Type} {desk desk' : Desk σ}

/-! ## Links -/

/-- The link of an item, if there is such an item. -/
def link? (desk : Desk σ) (item : ItemId) : Option (Option MenuId) := (desk.item? item).map (·.menu)

theorem link?_modifyItem (desk : Desk σ) (id item : ItemId) {change : MenuItem σ → MenuItem σ}
    (hmenu : ∀ entry, (change entry).menu = entry.menu) :
    (desk.modifyItem id change).link? item = desk.link? item := by
  rw [link?, link?, item?_modifyItem, Option.map_map]
  refine Option.map_congr fun entry _ => ?_
  by_cases hid : id = item <;> simp [hid, hmenu]

theorem link?_link_self (desk : Desk σ) (item : ItemId) (menu : Option MenuId) :
    (desk.link item menu).link? item = (desk.link? item).map fun _ => menu := by
  simp [link?, link, item?_modifyItem, Function.comp_def]

theorem link?_link_of_ne (desk : Desk σ) {item other : ItemId} (hne : other ≠ item)
    (menu : Option MenuId) : (desk.link item menu).link? other = desk.link? other := by
  simp [link?, link, item?_modifyItem, Ne.symm hne]

theorem link?_links_of_not_mem (desk : Desk σ) {items : List ItemId} {item : ItemId}
    (hm : item ∉ items) (menu : Option MenuId) :
    (items.foldl (fun desk item => desk.link item menu) desk).link? item = desk.link? item := by
  induction items generalizing desk with
  | nil => rfl
  | cons first rest ih =>
      rw [List.mem_cons, not_or] at hm
      rw [List.foldl_cons, ih _ hm.2, link?_link_of_ne desk hm.1]

theorem link?_links_of_mem (desk : Desk σ) {items : List ItemId} {item : ItemId}
    (hm : item ∈ items) (menu : Option MenuId) :
    (items.foldl (fun desk item => desk.link item menu) desk).link? item =
      (desk.link? item).map fun _ => menu := by
  induction items generalizing desk with
  | nil => cases hm
  | cons first rest ih =>
      rw [List.foldl_cons]
      by_cases hrest : item ∈ rest
      · rw [ih _ hrest]
        by_cases hfirst : item = first
        · rw [hfirst, link?_link_self, Option.map_map]
          rfl
        · rw [link?_link_of_ne desk hfirst]
      · obtain rfl : item = first := (List.mem_cons.mp hm).resolve_right hrest
        rw [link?_links_of_not_mem _ hrest, link?_link_self]

@[simp] theorem link?_modifyMenu (desk : Desk σ) (id : MenuId) (change : Menu → Menu)
    (item : ItemId) : (desk.modifyMenu id change).link? item = desk.link? item := rfl

/-- A new item is not linked. -/
theorem link?_newItem_eq_some_iff (desk : Desk σ) (name : String) (kind : ItemKind) (label : String)
    {item : ItemId} {id : MenuId} :
    (desk.newItem name kind label).link? item = some (some id) ↔
      desk.link? item = some (some id) := by
  simp only [link?, item?, newItem, List.getElem?_append]
  split
  · rfl
  · rename_i hbeyond
    rw [List.getElem?_eq_none (Nat.le_of_not_lt hbeyond), List.getElem?_singleton]
    split <;> simp [MenuItem.new]

/-! ## Lists -/

theorem itemsOf_congr {id : MenuId} (hmenu : desk'.menus[id.number]? = desk.menus[id.number]?) :
    desk'.itemsOf id = desk.itemsOf id := by
  rw [itemsOf, itemsOf, menu?, menu?, hmenu]

theorem itemsOf_eq {id : MenuId} {menu : Menu} (hmenu : desk.menu? id = some menu) :
    desk.itemsOf id = menu.items := by
  rw [itemsOf, hmenu, Option.elim_some]

/-- A menu that has been dropped has no items. -/
theorem itemsOf_modifyMenu_self {id : MenuId} {menu : Menu}
    (hmenu : desk.menus[id.number]? = some menu) (change : Menu → Menu) :
    (desk.modifyMenu id change).itemsOf id =
      if (change menu).live then (change menu).items else [] := by
  rw [itemsOf, menu?, modifyMenu_self hmenu, Option.filter_some]
  split <;> rfl

/-- A new menu has no items. -/
theorem itemsOf_newMenu (desk : Desk σ) (name : String) (recorded : Bool) (id : MenuId) :
    itemsOf { desk with menus := desk.menus ++ [⟨name, [], recorded, true⟩] } id =
      desk.itemsOf id := by
  simp only [itemsOf, menu?, List.getElem?_append]
  split
  · rfl
  · rename_i hbeyond
    rw [List.getElem?_eq_none (Nat.le_of_not_lt hbeyond), List.getElem?_singleton]
    split <;> rfl

/-! ## Links and lists agree -/

/-- An item is linked to the menu that has it, and no menu has an item twice. -/
structure Linked (desk : Desk σ) : Prop where
  link_iff : ∀ item id, desk.link? item = some (some id) ↔ item ∈ desk.itemsOf id
  nodup : ∀ id, (desk.itemsOf id).Nodup

theorem linked_empty : (empty : Desk σ).Linked := by
  constructor <;> simp [link?, item?, itemsOf, menu?, empty]

theorem Linked.congr (h : desk.Linked)
    (hlink : ∀ item id, desk'.link? item = some (some id) ↔ desk.link? item = some (some id))
    (hitems : ∀ id, desk'.itemsOf id = desk.itemsOf id) : desk'.Linked := by
  constructor
  · intro item id
    rw [hlink, hitems]
    exact h.link_iff item id
  · intro id
    rw [hitems]
    exact h.nodup id

/-- No item is in two menus. -/
theorem Linked.unique (h : desk.Linked) {item : ItemId} {id other : MenuId}
    (hid : item ∈ desk.itemsOf id) (hother : item ∈ desk.itemsOf other) : other = id := by
  have hlink := (h.link_iff item other).mpr hother
  rw [(h.link_iff item id).mpr hid] at hlink
  exact (Option.some.inj (Option.some.inj hlink)).symm

/-- An item knows the live menu that has it, which has it once, and no other menu has it. -/
structure Exclusive (desk : Desk σ) : Prop where
  menu_eq_iff : ∀ item entry id, desk.item? item = some entry →
    (entry.menu = some id ↔ ∃ menu, desk.menu? id = some menu ∧ item ∈ menu.items)
  count_eq_one : ∀ item id, item ∈ desk.itemsOf id → (desk.itemsOf id).count item = 1
  unique : ∀ item id other, item ∈ desk.itemsOf id → item ∈ desk.itemsOf other → other = id

theorem Linked.exclusive (h : desk.Linked) : desk.Exclusive where
  menu_eq_iff item entry id hitem := by
    rw [← mem_itemsOf_iff, ← h.link_iff item id, link?, hitem, Option.map_some,
      Option.some.injEq]
  count_eq_one _ id := List.nodup_iff_count_eq_one.mp (h.nodup id) _
  unique _ _ _ := h.unique

/-- The list of one menu becomes another one. What comes in was in no menu, what goes out is free, and
the links of all other items are left alone. -/
theorem Linked.revise (h : desk.Linked) (id : MenuId) (items : List ItemId) (hnodup : items.Nodup)
    (hself : desk'.itemsOf id = items)
    (hothers : ∀ other, other ≠ id → desk'.itemsOf other = desk.itemsOf other)
    (hin : ∀ item ∈ items, desk'.link? item = some (some id) ∧
      ∀ other, other ≠ id → item ∉ desk.itemsOf other)
    (hout : ∀ item ∈ desk.itemsOf id, item ∉ items → desk'.link? item = some none)
    (hrest : ∀ item, item ∉ items → item ∉ desk.itemsOf id → desk'.link? item = desk.link? item) :
    desk'.Linked := by
  constructor
  · intro item other
    by_cases hm : item ∈ items
    · obtain ⟨hlink, hnot⟩ := hin item hm
      by_cases hother : other = id
      · simp [hother, hlink, hself, hm]
      · simp [hlink, hothers other hother, hnot other hother, Ne.symm hother]
    · by_cases hbefore : item ∈ desk.itemsOf id
      · have hgone : item ∉ desk'.itemsOf other := by
          by_cases hother : other = id
          · rwa [hother, hself]
          · rw [hothers other hother]
            exact fun hm => hother (h.unique hbefore hm)
        simp [hout item hbefore hm, hgone]
      · rw [hrest item hm hbefore, h.link_iff item other]
        by_cases hother : other = id
        · simp [hother, hself, hm, hbefore]
        · rw [hothers other hother]
  · intro other
    by_cases hother : other = id
    · rwa [hother, hself]
    · rw [hothers other hother]
      exact h.nodup other

/-- All items of a menu are released when it is dropped. -/
theorem Linked.drop (h : desk.Linked) {id : MenuId} {menu : Menu} (hmenu : desk.menu? id = some menu)
    (hdesk : desk' = (menu.items.foldl (fun desk item => desk.link item none) desk).modifyMenu id
      fun menu => { menu with items := [], live := false }) :
    desk'.Linked ∧ ∀ item ∈ menu.items, desk'.link? item = some none := by
  have hitems := itemsOf_eq hmenu
  have hreleased : ∀ item ∈ menu.items, desk'.link? item = some none := by
    intro item hm
    rw [hdesk, link?_modifyMenu, link?_links_of_mem desk hm,
      (h.link_iff item id).mpr (hitems ▸ hm), Option.map_some]
  refine ⟨h.revise id [] .nil ?_ (fun other hother => ?_) (by simp) ?_ ?_, hreleased⟩
  · have hbefore := (menu?_eq_some_iff.mp hmenu).1
    rw [← links_menus desk menu.items none] at hbefore
    rw [hdesk, itemsOf_modifyMenu_self hbefore]
    rfl
  · apply itemsOf_congr
    rw [hdesk, modifyMenu_of_ne _ hother, links_menus]
  · exact fun item hm _ => hreleased item (hitems ▸ hm)
  · intro item _ hm
    rw [hdesk, link?_modifyMenu, link?_links_of_not_mem desk (hitems ▸ hm)]

/-- An item that is free goes into one menu. -/
theorem Linked.insert (h : desk.Linked) {id : MenuId} {menu : Menu} {item : ItemId}
    {entry : MenuItem σ} {index : Nat} (hmenu : desk.menu? id = some menu)
    (hitem : desk.item? item = some entry) (hfree : entry.menu = none)
    (hindex : index ≤ menu.items.length)
    (hdesk : desk' = (desk.modifyMenu id fun menu =>
      { menu with items := menu.items.insertIdx index item }).link item (some id)) :
    desk'.Linked ∧ desk'.link? item = some (some id) := by
  have hitems := itemsOf_eq hmenu
  have hlink : desk.link? item = some none := by rw [link?, hitem, Option.map_some, hfree]
  have hfresh : ∀ other, item ∉ desk.itemsOf other := by
    intro other hm
    have hlinked := (h.link_iff item other).mpr hm
    rw [hlink] at hlinked
    cases hlinked
  have hnew : desk'.link? item = some (some id) := by
    rw [hdesk, link?_link_self, link?_modifyMenu, hlink, Option.map_some]
  have hsame : ∀ other, other ≠ item → desk'.link? other = desk.link? other := by
    intro other hother
    rw [hdesk, link?_link_of_ne _ hother, link?_modifyMenu]
  refine ⟨h.revise id (menu.items.insertIdx index item) ?_ ?_ (fun other hother => ?_) ?_ ?_ ?_, hnew⟩
  · rw [(List.perm_insertIdx item menu.items hindex).nodup_iff, List.nodup_cons]
    exact ⟨hitems ▸ hfresh id, hitems ▸ h.nodup id⟩
  · obtain ⟨hbefore, hlive⟩ := menu?_eq_some_iff.mp hmenu
    rw [hdesk, itemsOf_congr (congrArg (·[id.number]?) (link_menus _ item _)),
      itemsOf_modifyMenu_self hbefore]
    simp [hlive]
  · apply itemsOf_congr
    rw [hdesk, link_menus, modifyMenu_of_ne desk hother]
  · intro other hm
    rcases (List.mem_insertIdx hindex).mp hm with rfl | hm
    · exact ⟨hnew, fun id' _ => hfresh id'⟩
    · have hold : other ∈ desk.itemsOf id := hitems ▸ hm
      have hne : other ≠ item := fun heq => hfresh id (heq ▸ hold)
      refine ⟨?_, fun id' hid' hm' => hid' (h.unique hold hm')⟩
      rw [hsame other hne]
      exact (h.link_iff other id).mpr hold
  · intro other hm hgone
    exact absurd ((List.mem_insertIdx hindex).mpr (.inr (hitems ▸ hm))) hgone
  · intro other hgone _
    exact hsame other fun heq => hgone ((List.mem_insertIdx hindex).mpr (.inl heq))

/-- An item that leaves its menu is free. -/
theorem Linked.remove (h : desk.Linked) {id : MenuId} {menu : Menu} {item : ItemId}
    (hmenu : desk.menu? id = some menu) (hitem : item ∈ menu.items) :
    ((desk.link item none).modifyMenu id fun menu =>
      { menu with items := menu.items.erase item }).Linked := by
  have hitems := itemsOf_eq hmenu
  have hlinked : desk.link? item = some (some id) := (h.link_iff item id).mpr (hitems ▸ hitem)
  have hnodup : menu.items.Nodup := hitems ▸ h.nodup id
  refine h.revise id (menu.items.erase item) (hnodup.erase item) ?_ (fun other hother => ?_) ?_ ?_ ?_
  · obtain ⟨hbefore, hlive⟩ := menu?_eq_some_iff.mp hmenu
    have hbefore : (desk.link item none).menus[id.number]? = some menu := hbefore
    rw [itemsOf_modifyMenu_self hbefore]
    simp [hlive]
  · apply itemsOf_congr
    rw [modifyMenu_of_ne _ hother, link_menus]
  · intro other hm
    obtain ⟨hne, hm⟩ := hnodup.mem_erase_iff.mp hm
    have hold : other ∈ desk.itemsOf id := hitems ▸ hm
    refine ⟨?_, fun id' hid' hm' => hid' (h.unique hold hm')⟩
    rw [link?_modifyMenu, link?_link_of_ne desk hne]
    exact (h.link_iff other id).mpr hold
  · intro other hm hgone
    obtain rfl : other = item := by
      by_contra hne
      exact hgone (hnodup.mem_erase_iff.mpr ⟨hne, hitems ▸ hm⟩)
    rw [link?_modifyMenu, link?_link_self, hlinked, Option.map_some]
  · intro other _ hm
    have hne : other ≠ item := fun heq => hm (hitems ▸ heq ▸ hitem)
    rw [link?_modifyMenu, link?_link_of_ne desk hne]

/-! ## What peers find -/

/-- What a peer finds when it is called, given the notices before: the item that comes or goes is
linked to its menu, and whatever the menu still had when it was dropped is free. -/
def PeerFinds (before : List (PeerNotice σ)) (notice : PeerNotice σ) : Prop :=
  match notice.call with
  | .init => True
  | .insert item _ => notice.desk.link? item = some (some notice.menu)
  | .remove item => notice.desk.link? item = some (some notice.menu)
  | .destroy =>
    ∀ item ∈ PeerCall.replay (callsTo notice.menu before), notice.desk.link? item = some none

/-- Links and lists agree, peers have mirrored the lists, and have found the links in order. -/
structure Owned (notices : List (PeerNotice σ)) (desk : Desk σ) : Prop where
  linked : desk.Linked
  mirrored : desk.Mirrored notices
  found : ∀ before notice after, notices = before ++ notice :: after → PeerFinds before notice

variable {notices before : List (PeerNotice σ)}

/-- What a peer is called for is found in the desk of the notice; other moves call no peer. -/
theorem Move.linked (hmove : Move desk notices desk') (h : desk.Linked)
    (hmirrored : desk.Mirrored before) :
    desk'.Linked ∧ ∀ notice ∈ notices, PeerFinds before notice := by
  cases hmove with
  | item id hmenu _ =>
      refine ⟨h.congr (fun item id' => ?_) fun _ => rfl, by simp⟩
      rw [link?_modifyItem desk id item hmenu]
  | newItem name kind label =>
      refine ⟨h.congr (fun item id => ?_) fun _ => rfl, by simp⟩
      exact link?_newItem_eq_some_iff desk name kind label
  | newMenu name recorded hdesk =>
      subst hdesk
      refine ⟨h.congr (fun _ _ => Iff.rfl) (itemsOf_newMenu desk name recorded), ?_⟩
      simp [PeerFinds]
  | drop hmenu hdesk =>
      obtain ⟨hlinked, hreleased⟩ := h.drop hmenu hdesk
      have hreplay := (hmirrored.mirrors (menu?_eq_some_iff.mp hmenu).1).replay_eq
      refine ⟨hlinked, ?_⟩
      simpa [PeerFinds, hreplay] using hreleased
  | insert hmenu hitem hfree hindex hdesk =>
      obtain ⟨hlinked, hnew⟩ := h.insert hmenu hitem hfree hindex hdesk
      exact ⟨hlinked, by simpa [PeerFinds] using hnew⟩
  | @remove id menu item hmenu hitem =>
      refine ⟨h.remove hmenu hitem, ?_⟩
      have hlink : desk.link? item = some (some id) :=
        (h.link_iff item id).mpr (itemsOf_eq hmenu ▸ hitem)
      simpa [PeerFinds] using hlink

theorem Move.length_notices_le (hmove : Move desk notices desk') : notices.length ≤ 1 := by
  cases hmove <;> simp

theorem Move.owned (hmove : Move desk notices desk') (h : desk.Owned before) :
    desk'.Owned (before ++ notices) := by
  obtain ⟨hlinked, hfound⟩ := hmove.linked h.linked h.mirrored
  refine ⟨hlinked, hmove.mirrored h.mirrored, fun front notice after heq => ?_⟩
  -- A move sends one notice at most, so a notice is an earlier one or the last of all.
  match notices, hmove.length_notices_le with
  | [], _ => exact h.found front notice after (by simpa using heq)
  | [last], _ =>
      rcases append_singleton_eq_append_cons_iff.mp heq with ⟨after', -, hbefore⟩ | ⟨-, rfl, rfl⟩
      · exact h.found front notice after' hbefore
      · exact hfound _ List.mem_cons_self

theorem invariant_owned : Invariant (@Owned σ) where
  empty := ⟨linked_empty, mirrored_empty, fun before notice after heq => by simp at heq⟩
  move hmove h := hmove.owned h
  signal id signal h := by
    refine ⟨h.linked.congr (fun item id' => ?_) fun _ => rfl, h.mirrored.congr rfl, h.found⟩
    rw [link?_modifyItem _ id item]
    exact fun _ => rfl

end WidgetToolkit.Desk
