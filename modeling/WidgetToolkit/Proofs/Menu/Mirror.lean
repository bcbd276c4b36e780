import WidgetToolkit.Proofs.Lists
import WidgetToolkit.Proofs.Menu.Moves

/-! # Peers mirror their menus

Replaying the calls to the peer of a menu gives the items of the menu. -/

namespace WidgetToolkit

/-! ## Calls to one peer -/

namespace PeerCall

/-- An item comes or goes. -/
def Edits : PeerCall → Prop
  | .insert .. | .remove _ => True
  | .init | .destroy => False

/-- The list has the place, or the item, that the call is about. -/
def Fits (items : List ItemId) : PeerCall → Prop
  | .insert _ index => index ≤ items.length
  | .remove item => item ∈ items
  | .init | .destroy => True

/-- Every call fits what the calls before it have made. -/
def Sound (calls : List PeerCall) : Prop :=
  ∀ before call after, calls = before ++ call :: after → call.Fits (replay before)

/-- The calls to the peer of a menu, from the first to the last. -/
structure Mirrors (calls : List PeerCall) (menu : Menu) : Prop where
  order : ∃ edits : List PeerCall, (∀ call ∈ edits, call.Edits) ∧
    calls = .init :: edits ++ if menu.live then [] else [.destroy]
  sound : Sound calls
  replay_eq : replay calls = menu.items

@[simp] theorem replay_append_singleton (calls : List PeerCall) (call : PeerCall) :
    replay (calls ++ [call]) = call.apply (replay calls) := by
  simp [replay, apply]

theorem Sound.append {calls : List PeerCall} {call : PeerCall} (h : Sound calls)
    (hcall : call.Fits (replay calls)) : Sound (calls ++ [call]) := by
  intro before call' after heq
  rcases append_singleton_eq_append_cons_iff.mp heq with ⟨after', -, hcalls⟩ | ⟨-, rfl, rfl⟩
  · exact h before call' after' hcalls
  · exact hcall

theorem mirrors_init (name : String) (recorded : Bool) :
    Mirrors [.init] ⟨name, [], recorded, true⟩ := by
  have hnil : Sound [] := fun before call after heq => by simp at heq
  exact ⟨⟨[], by simp⟩, hnil.append trivial, rfl⟩

theorem Mirrors.edit {calls : List PeerCall} {menu : Menu} {call : PeerCall}
    (h : Mirrors calls menu) (hlive : menu.live) (hedits : call.Edits)
    (hfits : call.Fits menu.items) :
    Mirrors (calls ++ [call]) { menu with items := call.apply menu.items } := by
  obtain ⟨edits, hall, hcalls⟩ := h.order
  refine ⟨⟨edits ++ [call], ?_, ?_⟩, h.sound.append (h.replay_eq ▸ hfits), ?_⟩
  · intro other hm
    rcases List.mem_append.mp hm with hm | hm
    · exact hall other hm
    · exact List.mem_singleton.mp hm ▸ hedits
  · simp [hcalls, hlive]
  · rw [replay_append_singleton, h.replay_eq]

theorem Mirrors.destroy {calls : List PeerCall} {menu : Menu} (h : Mirrors calls menu)
    (hlive : menu.live) :
    Mirrors (calls ++ [.destroy]) { menu with items := [], live := false } := by
  obtain ⟨edits, hall, hcalls⟩ := h.order
  refine ⟨⟨edits, hall, ?_⟩, h.sound.append trivial, ?_⟩
  · simp [hcalls, hlive]
  · rw [replay_append_singleton, apply]

end PeerCall

/-! ## All peers of a desk -/

namespace Desk

variable {σ : Type} {desk desk' : Desk σ} {notices : List (PeerNotice σ)}

/-- The calls to the peer of a menu. -/
def callsTo (id : MenuId) (notices : List (PeerNotice σ)) : List PeerCall :=
  notices.filterMap fun notice => if notice.menu = id then some notice.call else none

/-- Every peer mirrors its menu, and there are no calls for menus that have not been made. -/
def Mirrored (notices : List (PeerNotice σ)) (desk : Desk σ) : Prop :=
  ∀ id : MenuId,
    match desk.menus[id.number]? with
    | some menu => PeerCall.Mirrors (callsTo id notices) menu
    | none => callsTo id notices = []

theorem callsTo_append (id : MenuId) (notices further : List (PeerNotice σ)) :
    callsTo id (notices ++ further) = callsTo id notices ++ callsTo id further :=
  List.filterMap_append

theorem callsTo_singleton (id other : MenuId) (call : PeerCall) (seen : Desk σ) :
    callsTo other [⟨id, call, seen⟩] = if id = other then [call] else [] := by
  by_cases hother : id = other <;> simp [callsTo, hother]

theorem callsTo_self (id : MenuId) (call : PeerCall) (seen : Desk σ) :
    callsTo id [⟨id, call, seen⟩] = [call] :=
  (callsTo_singleton id id call seen).trans (if_pos rfl)

theorem callsTo_of_ne {id other : MenuId} (hne : other ≠ id) (call : PeerCall) (seen : Desk σ) :
    callsTo other [⟨id, call, seen⟩] = [] :=
  (callsTo_singleton id other call seen).trans (if_neg hne.symm)

@[simp] theorem link_menus (desk : Desk σ) (item : ItemId) (menu : Option MenuId) :
    (desk.link item menu).menus = desk.menus := rfl

@[simp] theorem links_menus (desk : Desk σ) (items : List ItemId) (menu : Option MenuId) :
    (items.foldl (fun desk item => desk.link item menu) desk).menus = desk.menus := by
  induction items generalizing desk with
  | nil => rfl
  | cons item items ih => rw [List.foldl_cons, ih, link_menus]

theorem menu?_eq_some_iff {id : MenuId} {menu : Menu} :
    desk.menu? id = some menu ↔ desk.menus[id.number]? = some menu ∧ menu.live := by
  simp [menu?, Option.filter_eq_some_iff]

/-- The peer of a menu that is dropped is called, and no other one. -/
theorem callsTo_drop {id : MenuId} {menu : Menu} (hmenu : desk.menu? id = some menu)
    (other : MenuId) :
    callsTo other (desk.drop id).notices = if id = other then [.destroy] else [] := by
  have hnotices : (desk.drop id).notices = [⟨id, .destroy, (desk.drop id).value⟩] := by
    simp only [drop, hmenu]
    rfl
  rw [hnotices, callsTo_singleton]

theorem mirrored_empty : (empty : Desk σ).Mirrored [] := fun id => by
  simp [empty, callsTo]

theorem Mirrored.congr (h : desk.Mirrored notices) (hmenus : desk'.menus = desk.menus) :
    desk'.Mirrored notices := by
  rw [Mirrored, hmenus]
  exact h

theorem number_ne {id other : MenuId} (hne : other ≠ id) : id.number ≠ other.number := by
  rintro hnumber
  cases id
  cases other
  exact hne (congrArg MenuId.mk hnumber.symm)

theorem modifyMenu_self {id : MenuId} {menu : Menu} (hmenu : desk.menus[id.number]? = some menu)
    (change : Menu → Menu) :
    (desk.modifyMenu id change).menus[id.number]? = some (change menu) := by
  simp [modifyMenu, hmenu]

theorem modifyMenu_of_ne (desk : Desk σ) {id other : MenuId} (hne : other ≠ id)
    (change : Menu → Menu) :
    (desk.modifyMenu id change).menus[other.number]? = desk.menus[other.number]? := by
  simp [modifyMenu, number_ne hne]

/-- A menu changes, and its peer is told. -/
theorem Mirrored.tell (h : desk.Mirrored notices) {id : MenuId} {menu : Menu} {call : PeerCall}
    (hmenu : desk'.menus[id.number]? = some menu)
    (hothers : ∀ other, other ≠ id → desk'.menus[other.number]? = desk.menus[other.number]?)
    (hmirrors : PeerCall.Mirrors (callsTo id notices ++ [call]) menu) (seen : Desk σ) :
    desk'.Mirrored (notices ++ [⟨id, call, seen⟩]) := by
  intro other
  rw [callsTo_append]
  by_cases hne : other = id
  · rw [hne, hmenu, callsTo_self]
    exact hmirrors
  · rw [hothers other hne, callsTo_of_ne hne, List.append_nil]
    exact h other

theorem Mirrored.mirrors (h : desk.Mirrored notices) {id : MenuId} {menu : Menu}
    (hmenu : desk.menus[id.number]? = some menu) : PeerCall.Mirrors (callsTo id notices) menu := by
  have hid := h id
  rw [hmenu] at hid
  exact hid

theorem Mirrored.newMenu (h : desk.Mirrored notices) {name : String} {recorded : Bool}
    (hdesk : desk' = { desk with menus := desk.menus ++ [⟨name, [], recorded, true⟩] }) :
    desk'.Mirrored (notices ++ [⟨⟨desk.menus.length⟩, .init, desk'⟩]) := by
  have hfresh : callsTo ⟨desk.menus.length⟩ notices = [] := by
    have hid := h ⟨desk.menus.length⟩
    rw [List.getElem?_eq_none (Nat.le_refl _)] at hid
    exact hid
  have hmade : desk'.menus[desk.menus.length]? = some ⟨name, [], recorded, true⟩ := by
    rw [hdesk]
    exact List.getElem?_concat_length
  refine h.tell hmade ?_ ?_ desk'
  · intro other hne
    have hnumber : desk.menus.length ≠ other.number := number_ne hne
    simp only [hdesk, List.getElem?_append, List.getElem?_singleton]
    split
    · rfl
    · rw [if_neg (by omega), List.getElem?_eq_none (by omega)]
  · rw [hfresh]
    exact PeerCall.mirrors_init name recorded

theorem Move.mirrored (hmove : Move desk notices desk') {before : List (PeerNotice σ)}
    (h : desk.Mirrored before) : desk'.Mirrored (before ++ notices) := by
  cases hmove with
  | item | newItem =>
      rw [List.append_nil]
      exact h.congr rfl
  | newMenu _ _ hdesk => exact h.newMenu hdesk
  | drop hmenu hdesk =>
      obtain ⟨hmenu, hlive⟩ := menu?_eq_some_iff.mp hmenu
      have hdropped := modifyMenu_self hmenu fun menu => { menu with items := [], live := false }
      refine h.tell ?_ (fun other hne => ?_) ((h.mirrors hmenu).destroy hlive) desk'
      · rw [hdesk, ← hdropped]
        simp [modifyMenu]
      · rw [hdesk, modifyMenu_of_ne _ hne, links_menus]
  | @insert _ id menu item _ index hmenu _ _ hindex hdesk =>
      obtain ⟨hmenu, hlive⟩ := menu?_eq_some_iff.mp hmenu
      have hmirrors : PeerCall.Mirrors (callsTo id before ++ [.insert item index]) _ :=
        (h.mirrors hmenu).edit hlive trivial hindex
      refine h.tell ?_ (fun other hne => ?_) hmirrors desk'
      · rw [hdesk, link_menus]
        exact modifyMenu_self hmenu _
      · rw [hdesk, link_menus, modifyMenu_of_ne desk hne]
  | @remove id menu item hmenu hitem =>
      obtain ⟨hmenu, hlive⟩ := menu?_eq_some_iff.mp hmenu
      have hmirrors : PeerCall.Mirrors (callsTo id before ++ [.remove item]) _ :=
        (h.mirrors hmenu).edit hlive trivial hitem
      refine h.tell ?_ (fun other hne => ?_) hmirrors desk
      · exact modifyMenu_self hmenu _
      · rw [modifyMenu_of_ne _ hne, link_menus]

theorem invariant_mirrored : Invariant (@Mirrored σ) where
  empty := mirrored_empty
  move hmove h := hmove.mirrored h
  signal _ _ h := h.congr rfl

end Desk

end WidgetToolkit
