import Mathlib.Data.List.InsertIdx
import WidgetToolkit.Proofs.Menu.Ownership

/-! # What an edit of a menu changes

An edit that succeeds changes the list of one menu and the link of one item, and tells the peer of
that menu. One that is rejected changes nothing and tells nobody. -/

namespace WidgetToolkit.Desk

variable {σ : Type} {desk desk' desk'' : Desk σ} {id : MenuId} {menu : Menu} {item : ItemId}
  {entry : MenuItem σ} {index : Nat}

/-! ## All else is unchanged -/

/-- A menu has other items and an item has another link. All other menus and items, and what these
two are otherwise, are as before. -/
structure Edited (desk : Desk σ) (id : MenuId) (items : List ItemId) (item : ItemId)
    (link : Option MenuId) (desk' : Desk σ) : Prop where
  menu_eq : desk'.menus[id.number]? =
    desk.menus[id.number]?.map fun menu => { menu with items := items }
  menus_eq : ∀ other, other ≠ id → desk'.menus[other.number]? = desk.menus[other.number]?
  item_eq : desk'.item? item = (desk.item? item).map fun entry => { entry with menu := link }
  items_eq : ∀ other, other ≠ item → desk'.item? other = desk.item? other

theorem edited_modifyMenu_link (hmenu : desk.menu? id = some menu) {change : Menu → Menu}
    {items : List ItemId} (hchange : change menu = { menu with items := items }) (item : ItemId)
    (link : Option MenuId) :
    desk.Edited id items item link ((desk.modifyMenu id change).link item link) := by
  have hbefore := (menu?_eq_some_iff.mp hmenu).1
  refine ⟨?_, fun other hother => ?_, ?_, fun other hother => ?_⟩
  · rw [link_menus, modifyMenu_self hbefore, hbefore, hchange, Option.map_some]
  · rw [link_menus, modifyMenu_of_ne desk hother]
  · rw [Desk.link, item?_modifyItem]
    exact Option.map_congr fun _ _ => if_pos rfl
  · rw [Desk.link, item?_modifyItem]
    exact (Option.map_congr fun _ _ => if_neg hother.symm).trans Option.map_id'

theorem Edited.menu? {items : List ItemId} {link : Option MenuId}
    (h : desk.Edited id items item link desk') (hmenu : desk.menu? id = some menu) :
    desk'.menu? id = some { menu with items := items } := by
  obtain ⟨hbefore, hlive⟩ := menu?_eq_some_iff.mp hmenu
  exact menu?_eq_some_iff.mpr ⟨by rw [h.menu_eq, hbefore, Option.map_some], hlive⟩

theorem Edited.item? {items : List ItemId} {link : Option MenuId}
    (h : desk.Edited id items item link desk') (hitem : desk.item? item = some entry) :
    desk'.item? item = some { entry with menu := link } := by
  rw [h.item_eq, hitem, Option.map_some]

/-- A desk is what its menus and items are. -/
theorem eq_of_forall (hmenus : ∀ id : MenuId, desk'.menus[id.number]? = desk.menus[id.number]?)
    (hitems : ∀ item, desk'.item? item = desk.item? item) : desk' = desk := by
  have hmenus : desk'.menus = desk.menus := List.ext_getElem? fun number => hmenus ⟨number⟩
  have hitems : desk'.items = desk.items := List.ext_getElem? fun number => hitems ⟨number⟩
  cases desk
  cases desk'
  exact congrArg₂ Desk.mk hitems hmenus

/-- Giving the menu its former list and the item its former link takes an edit back. -/
theorem Edited.undo {items : List ItemId} {link : Option MenuId}
    (h : desk.Edited id items item link desk') (hmenu : desk.menu? id = some menu)
    (hitem : desk.item? item = some entry)
    (h' : desk'.Edited id menu.items item entry.menu desk'') : desk'' = desk := by
  refine eq_of_forall (fun other => ?_) fun other => ?_
  · by_cases hother : other = id
    · rw [hother, h'.menu_eq, h.menu_eq, (menu?_eq_some_iff.mp hmenu).1]
      rfl
    · rw [h'.menus_eq other hother, h.menus_eq other hother]
  · by_cases hother : other = item
    · rw [hother, h'.item_eq, h.item_eq, hitem]
      rfl
    · rw [h'.items_eq other hother, h.items_eq other hother]

/-! ## Edits -/

/-- An edit says whether it is accepted. If it is, one menu and one item have changed as told, and
a single call has gone to the peer of the menu; if not, nothing has changed, and no peer was
called. -/
structure Edits (desk : Desk σ) (id : MenuId) (accepted : Prop) (items : List ItemId)
    (item : ItemId) (link : Option MenuId) (call : PeerCall)
    (told : Told (PeerNotice σ) (Bool × Desk σ)) : Prop where
  answer : told.value.1 = true ↔ accepted
  done : told.value.1 = true →
    desk.Edited id items item link told.value.2 ∧ ∃ seen, told.notices = [⟨id, call, seen⟩]
  rejected : told.value.1 = false → told.value.2 = desk ∧ told.notices = []

theorem edits_of_accepted {accepted : Prop} {items : List ItemId} {link : Option MenuId}
    {call : PeerCall} {seen : Desk σ} (haccepted : accepted)
    (h : desk.Edited id items item link desk') :
    desk.Edits id accepted items item link call ⟨(true, desk'), [⟨id, call, seen⟩]⟩ :=
  ⟨iff_of_true rfl haccepted, fun _ => ⟨h, seen, rfl⟩, nofun⟩

theorem edits_of_rejected {accepted : Prop} {items : List ItemId} {link : Option MenuId}
    {call : PeerCall} (hrejected : ¬accepted) :
    desk.Edits id accepted items item link call ⟨(false, desk), []⟩ :=
  ⟨iff_of_false Bool.false_ne_true hrejected, nofun, fun _ => ⟨rfl, rfl⟩⟩

theorem edits_insert (hmenu : desk.menu? id = some menu) (hitem : desk.item? item = some entry)
    (index : Nat) :
    desk.Edits id (entry.menu = none ∧ index ≤ menu.items.length)
      (menu.items.take index ++ item :: menu.items.drop index) item (some id) (.insert item index)
      (desk.insert id item index) := by
  simp only [insert, hmenu, hitem]
  split
  · rename_i hrejected
    refine edits_of_rejected fun haccepted => ?_
    simp [haccepted.1, Nat.not_lt.mpr haccepted.2] at hrejected
  · rename_i haccepted
    simp only [Bool.or_eq_true, decide_eq_true_eq, not_or, Nat.not_lt, Bool.not_eq_true,
      Option.isSome_eq_false_iff, Option.isNone_iff_eq_none] at haccepted
    refine edits_of_accepted haccepted (edited_modifyMenu_link hmenu ?_ item (some id))
    rw [insertIdx_eq_take_append haccepted.2 item]

theorem edits_remove (hmenu : desk.menu? id = some menu) (item : ItemId) :
    desk.Edits id (item ∈ menu.items) (menu.items.erase item) item none (.remove item)
      (desk.remove id item) := by
  simp only [remove, itemsOf_eq hmenu]
  split
  · rename_i hcontains
    exact edits_of_accepted (List.contains_iff_mem.mp hcontains)
      (edited_modifyMenu_link hmenu rfl item none)
  · rename_i hcontains
    exact edits_of_rejected (mt List.contains_iff_mem.mpr hcontains)

/-- The peer of the menu is called if the edit is accepted, and no other peer. -/
theorem Edits.callsTo {accepted : Prop} [Decidable accepted] {items : List ItemId}
    {link : Option MenuId} {call : PeerCall} {told : Told (PeerNotice σ) (Bool × Desk σ)}
    (h : desk.Edits id accepted items item link call told) (other : MenuId) :
    callsTo other told.notices = if id = other ∧ accepted then [call] else [] := by
  by_cases haccepted : accepted
  · obtain ⟨-, seen, hnotices⟩ := h.done (h.answer.mpr haccepted)
    rw [hnotices, callsTo_singleton]
    exact if_congr (and_iff_left haccepted).symm rfl rfl
  · have hanswer := Bool.eq_false_iff.mpr (mt h.answer.mp haccepted)
    rw [(h.rejected hanswer).2, if_neg fun hboth => haccepted hboth.2]
    rfl

theorem append_eq (hmenu : desk.menu? id = some menu) (item : ItemId) :
    desk.append id item = desk.insert id item menu.items.length := by
  rw [append, itemsOf_eq hmenu]

/-! ## Taking edits back -/

theorem Edits.value {accepted : Prop} {items : List ItemId} {link : Option MenuId}
    {call : PeerCall} {told : Told (PeerNotice σ) (Bool × Desk σ)}
    (h : desk.Edits id accepted items item link call told) (haccepted : accepted) :
    ∃ desk', told.value = (true, desk') ∧ desk.Edited id items item link desk' := by
  have hanswer := h.answer.mpr haccepted
  exact ⟨told.value.2, Prod.ext hanswer rfl, (h.done hanswer).1⟩

/-- An item that has been put into a menu can be taken out again. -/
theorem insert_remove (hlinked : desk.Linked) (hmenu : desk.menu? id = some menu)
    (hitem : desk.item? item = some entry) (h : (desk.insert id item index).value.1 = true) :
    ((desk.insert id item index).value.2.remove id item).value = (true, desk) := by
  have hinsert := edits_insert hmenu hitem index
  have hfree : entry.menu = none := (hinsert.answer.mp h).1
  have hedited := (hinsert.done h).1
  have habsent : item ∉ menu.items := by
    intro hm
    have hlink := (hlinked.link_iff item id).mpr (itemsOf_eq hmenu ▸ hm)
    simp [link?, hitem, hfree] at hlink
  obtain ⟨desk', hvalue, hremoved⟩ := (edits_remove (hedited.menu? hmenu) item).value (by simp)
  have hitems :
      (menu.items.take index ++ item :: menu.items.drop index).erase item = menu.items := by
    rw [List.erase_append_right _ (mt List.mem_of_mem_take habsent), List.erase_cons_head,
      List.take_append_drop]
  rw [hitems, ← hfree] at hremoved
  rw [hvalue, hedited.undo hmenu hitem hremoved]

/-- An item that has been taken out of a menu can be put back where it was. -/
theorem remove_insert (hlinked : desk.Linked) (hmenu : desk.menu? id = some menu)
    (hitem : desk.item? item = some entry) (h : (desk.remove id item).value.1 = true) :
    ((desk.remove id item).value.2.insert id item (menu.items.idxOf item)).value =
      (true, desk) := by
  have hremove := edits_remove hmenu item
  have hm : item ∈ menu.items := hremove.answer.mp h
  have hedited := (hremove.done h).1
  have hlink : entry.menu = some id := by
    have hlink := (hlinked.link_iff item id).mpr (itemsOf_eq hmenu ▸ hm)
    simpa [link?, hitem] using hlink
  have hlt : menu.items.idxOf item < menu.items.length := List.idxOf_lt_length_iff.mpr hm
  have hindex : menu.items.idxOf item ≤ (menu.items.erase item).length := by
    rw [List.length_erase_of_mem hm]
    exact Nat.le_sub_one_of_lt hlt
  obtain ⟨desk', hvalue, hinserted⟩ :=
    (edits_insert (hedited.menu? hmenu) (hedited.item? hitem) _).value ⟨rfl, hindex⟩
  have hitems : (menu.items.erase item).take (menu.items.idxOf item) ++
      item :: (menu.items.erase item).drop (menu.items.idxOf item) = menu.items := by
    have hback := List.insertIdx_eraseIdx_getElem hlt
    rw [List.getElem_idxOf hlt] at hback
    rw [← insertIdx_eq_take_append hindex item, List.erase_eq_eraseIdx_of_idxOf rfl, hback]
  rw [hitems, ← hlink] at hinserted
  rw [hvalue, hedited.undo hmenu hitem hinserted]

end WidgetToolkit.Desk
