import WidgetToolkit.Proofs.Script.Marks
import WidgetToolkit.Proofs.Script.Stretch

/-! # Clicks on the items of a menu

A click that reaches a radio item leaves it alone checked in its group before any slot is called.
After that one item of the group is checked for as long as slots set check marks by clicks only. -/

namespace WidgetToolkit

/-! ## Clicks -/

namespace Session

variable {session : Session} {menu item : String} {id : MenuId} {clicked : ItemId}

theorem perform_activate (hmenu : session.desk.menuNamed? menu = some id)
    (hitem : session.desk.itemNamed? item = some clicked) :
    session.perform (.activate menu item) =
      session.clicked clicked (session.desk.activate? id clicked) :=
  perform_of_clickOf? <|
    show session.clickOf? _ = some (some id, clicked) by simp [clickOf?, hitem, hmenu]

/-- A click on an item of a menu, whether it gets through or not. -/
theorem perform_activate_cases (hmenu : session.desk.menuNamed? menu = some id) (item : String) :
    (session.perform (.activate menu item)).session.desk = session.desk ∨
      ∃ clicked, session.desk.activate? id clicked =
        some (session.perform (.activate menu item)).session.desk := by
  cases hitem : session.desk.itemNamed? item with
  | none =>
      refine .inl ?_
      simp only [perform, perform?, hitem]
      rfl
  | some clicked =>
      rw [perform_activate hmenu hitem]
      cases hdesk : session.desk.activate? id clicked with
      | none => exact .inl rfl
      | some desk => exact .inr ⟨clicked, hdesk⟩

/-- An action leaves the list of a menu alone, and the check marks of its items, unless it clicks
one of them. A menu has no other list while it is lent to a click. -/
def Minds (session : Session) (id : MenuId) (action : Action) : Prop :=
  let desk := (session.perform action).session.desk
  desk.itemsOf id = session.desk.itemsOf id ∧
    ((∃ menu item, action = .activate menu item ∧ session.desk.menuNamed? menu = some id) ∨
      ∀ item ∈ session.desk.itemsOf id, desk.isChecked item = session.desk.isChecked item)

end Session

/-! ## One item of a group -/

namespace Desk

variable {desk desk' : Desk Slot} {session : Session} {id : MenuId} {item : ItemId}

/-- The menu has the items that it had, and they are of the kinds that they were. One item of a
group is checked. -/
structure OneChecked (desk : Desk Slot) (id : MenuId) (item : ItemId)
    (desk' : Desk Slot) : Prop where
  kinds : desk.KeepsKinds desk'
  items_eq : desk'.itemsOf id = desk.itemsOf id
  unique : ∃! other, desk.Grouped id item other ∧ desk'.isChecked other = true

theorem slotFree_picked : SlotFree (desk.Picked id item) := by
  intro desk' other signal h
  constructor
  · intro item hitem
    rw [isChecked_setClicked]
    exact h.alone item hitem
  · intro item hitem
    rw [isChecked_setClicked]
    exact h.others item hitem

theorem slotFree_oneChecked : SlotFree (desk.OneChecked id item) := by
  intro desk' other signal h
  refine ⟨h.kinds.trans (keepsKinds_modifyItem desk' other fun _ => rfl), h.items_eq, ?_⟩
  simp only [isChecked_setClicked]
  exact h.unique

/-- The click on a radio item leaves one item of its group checked. -/
theorem oneChecked_of_activate? (hlinked : desk.Linked) (h : desk.activate? id item = some desk')
    (hradio : desk.isRadio item = true) : desk.OneChecked id item desk' := by
  have hpicked := picked_of_activate? (hlinked.nodup id) h hradio
  have hm := (activate?_isSome_iff.mp (Option.isSome_of_eq_some h)).1
  refine ⟨keepsKinds_activate? h, itemsOf_activate? h, item, ?_, ?_⟩
  · have hself : desk.Grouped id item item := inRun_self hm hradio
    exact ⟨hself, (hpicked.alone item hself).mpr rfl⟩
  · rintro other ⟨hother, hchecked⟩
    exact (hpicked.alone other hother).mp hchecked

/-- One item of the group is checked after an action of a slot if one was before. -/
theorem OneChecked.perform (h : desk.OneChecked id item session.desk) (hlinked : desk.Linked)
    {action : Action} (hminds : session.Minds id action) :
    desk.OneChecked id item (session.perform action).session.desk := by
  obtain ⟨hitems, hmarks⟩ := hminds
  refine ⟨h.kinds.trans (session.keepsKinds_perform action), hitems.trans h.items_eq, ?_⟩
  have hgroup : ∀ other, session.desk.Grouped id item other ↔ desk.Grouped id item other :=
    fun _ => h.kinds.grouped_iff hlinked h.items_eq
  rcases hmarks with ⟨menu, name, rfl, hmenu⟩ | hmarks
  · rcases session.perform_activate_cases hmenu name with hsame | ⟨clicked, hclick⟩
    · rw [hsame]
      exact h.unique
    · have hnodup : (session.desk.itemsOf id).Nodup := h.items_eq ▸ hlinked.nodup id
      have hone := h.unique
      simp only [← hgroup] at hone ⊢
      exact existsUnique_of_activate? hnodup hone hclick
  · have hsame : ∀ other, (desk.Grouped id item other ∧
          (session.perform action).session.desk.isChecked other = true) ↔
        (desk.Grouped id item other ∧ session.desk.isChecked other = true) := by
      refine fun other => and_congr_right fun hother => ?_
      rw [hmarks other (h.items_eq ▸ InRun.mem hother)]
    exact (existsUnique_congr hsame).mpr h.unique

end Desk

/-! ## A click from its first step to its return -/

namespace Run

variable {run after point : Run} {action : Action} {base : List Frame}

/-- All there is to say about a click on an item of a menu, given its answer. -/
structure Activated (run : Run) (menu item : String) (id : MenuId) (clicked : ItemId)
    (base : List Frame) (after : Run) (answer : Bool) : Prop where
  answer_eq : (start run.session (.activate menu item)).1 = .flag answer
  /-- The answer tells whether the item is in the menu, enabled and no separator. -/
  answer_iff : answer = true ↔ clicked ∈ run.session.desk.itemsOf id ∧
    ∃ entry, run.session.desk.item? clicked = some entry ∧ entry.enabled = true ∧
      entry.kind ≠ .separator
  /-- A slot that clicks the item has this answer in the end. -/
  did : ∀ permits point tag acts below, base = .body tag acts :: below →
    Stretch permits base after point → point.stack = base →
      ∃ events, point.events = events ++ [.did tag (.activate menu item) (.flag answer)]
  /-- A click that does not get through changes nothing and calls no slot. -/
  refused : answer = false → after.stack = base ∧ after.session = run.session ∧
    after.events.filterMap Event.call? = run.events.filterMap Event.call?
  /-- The radio item is alone checked in its group, and the other check marks are as before, until a
  slot that is called does something. -/
  picked : answer = true → run.session.desk.isRadio clicked = true →
    ∀ point, Stretch (fun _ _ => False) base after point →
      run.Throughout point (run.session.desk.Picked id clicked)
  /-- One item of the group is checked whatever slots do, if they mind the menu. -/
  exclusive : answer = true → run.session.desk.isRadio clicked = true →
    ∀ point, Stretch (fun session action => session.Minds id action) base after point →
      run.Throughout point fun desk =>
        ∃! other, run.session.desk.Grouped id clicked other ∧ desk.isChecked other = true

variable {signals : Nat} {allowance : Option Nat} {log : List Deed} {menu item : String}
  {id : MenuId} {clicked : ItemId}

/-- A click on an item of a menu, at any point of a run. -/
theorem activate_keeps_groups (h : Reaches signals allowance run log)
    (hmenu : run.session.desk.menuNamed? menu = some id)
    (hitem : run.session.desk.itemNamed? item = some clicked)
    (hasks : run.Asks (.activate menu item) base after) :
    ∃ answer, run.Activated menu item id clicked base after answer := by
  have hlinked := (Desk.invariant_owned.reaches h).linked
  have hperform := Session.perform_activate hmenu hitem
  have hanswer : (start run.session (.activate menu item)).1 =
      .flag (run.session.desk.activate? id clicked).isSome := start_fst_of_clicked hperform
  have hthrough : (run.session.desk.activate? id clicked).isSome = true →
      run.session.desk.activate? id clicked =
        some (run.session.perform (.activate menu item)).session.desk := by
    intro hsome
    obtain ⟨desk, hdesk⟩ := Option.isSome_iff_exists.mp hsome
    rw [hperform, hdesk]
    rfl
  refine ⟨_, hanswer, Desk.activate?_isSome_iff, ?_, hasks.refused hperform, ?_, ?_⟩
  · intro permits point tag acts below hbase hstretch hreturned
    rw [← hanswer]
    exact hasks.did hbase hstretch hreturned
  · intro hsome hradio point hstretch
    refine hasks.throughout_of_perform Desk.slotFree_picked ?_ (fun _ _ h => h.elim) hstretch
    exact Desk.picked_of_activate? (hlinked.nodup id) (hthrough hsome) hradio
  · intro hsome hradio point hstretch
    have hone := Desk.oneChecked_of_activate? hlinked (hthrough hsome) hradio
    refine Throughout.mono ?_ fun desk => Desk.OneChecked.unique
    refine hasks.throughout_of_perform Desk.slotFree_oneChecked hone ?_ hstretch
    exact fun session action hminds hbefore => hbefore.perform hlinked hminds

/-- The slot of a radio item clicks the other item of the group. When it is called, the first item
is alone checked in the group, beside one behind a separator. When it has clicked the other item,
one of the two is checked still. -/
theorem activate_keeps_groups_clicked_by_slot :
    ∃ run log called clicked, Reaches 0 none run log ∧
      run.Activated "view" "large" ⟨0⟩ ⟨1⟩ [] (run.enter (.activate "view" "large")) true ∧
      (run.enter (.activate "view" "large")).next? = some called ∧
      called.next? = some clicked ∧
      run.session.desk.Picked ⟨0⟩ ⟨1⟩ called.session.desk ∧
      called.session.desk.isChecked ⟨3⟩ = true ∧
      ∃! other, run.session.desk.Grouped ⟨0⟩ ⟨1⟩ other ∧
        clicked.session.desk.isChecked other = true := by
  have hnew : Reaches 0 none ⟨.new 0 none, [], []⟩ [] := .new
  have hsmall := hnew.enter rfl (.makeItem "small" .radio "Small")
  have hlarge := hsmall.enter rfl (.makeItem "large" .radio "Large")
  have hline := hlarge.enter rfl (.makeItem "line" .separator "")
  have hother := hline.enter rfl (.makeItem "other" .radio "Other")
  have hmenu := hother.enter rfl (.makeMenu "view" true)
  have htwo := (hmenu.enter rfl (.append "view" "small")).enter rfl (.append "view" "large")
  have hfour := (htwo.enter rfl (.append "view" "line")).enter rfl (.append "view" "other")
  have hchecked := hfour.enter rfl (.setChecked "other" true)
  have hrun := hchecked.enter rfl
    (.connect (.click "large") "back" [.activate "view" "small"] none)
  obtain ⟨answer, hactivated⟩ := activate_keeps_groups hrun
    (show Desk.menuNamed? _ "view" = some ⟨0⟩ from rfl)
    (show Desk.itemNamed? _ "large" = some ⟨1⟩ from rfl) (.outside rfl)
  obtain rfl : answer = true := Answer.flag.inj hactivated.answer_eq.symm
  have hpicked := hactivated.picked rfl rfl _
    (.next .here (by decide +kernel) rfl fun _ _ _ _ h => by cases h)
  have hone := hactivated.exclusive rfl rfl _
    (.next (.next .here (by decide +kernel) rfl fun _ _ _ _ h => by cases h) (by decide +kernel) rfl
      fun _ _ _ _ h => by cases h; exact ⟨rfl, .inl ⟨"view", "small", rfl, rfl⟩⟩)
  exact ⟨_, _, _, _, hrun, hactivated, rfl, rfl, hpicked.1, rfl, hone.1⟩

end Run

end WidgetToolkit
