import WidgetToolkit.Proofs.Menu.Editing
import WidgetToolkit.Proofs.Script.Peers

/-! # Who has an item in a run -/

namespace WidgetToolkit

variable {ref : SignalRef} {id : SlotId} {slot : Slot} {value : Int} {desk : Desk Slot}

/-! ## What slots are shown -/

/-- What is done at once calls no slot. -/
theorem Session.Outcome.not_called {session session' : Session} {depth : Nat} {answer : Answer}
    {events : List Event} {deeds : List Deed}
    (h : session.Outcome depth (.done answer events session') deeds) :
    .called ref id slot value desk ∉ events := by
  cases h <;> simp

namespace Run

theorem called_act (run : Run) {tag : String} {action : Action}
    (hm : .called ref id slot value desk ∈ (run.act tag action).events) :
    .called ref id slot value desk ∈ run.events := by
  have houtcome := run.session.perform_outcome 0 action
  simp only [act] at hm
  cases heffect : run.session.perform action with
  | done =>
      rw [heffect] at hm houtcome
      simpa [houtcome.not_called] using hm
  | emission =>
      rw [heffect] at hm
      exact hm

theorem called_enter {run : Run} {action : Action}
    (hm : .called ref id slot value desk ∈ (run.enter action).events) :
    .called ref id slot value desk ∈ run.events := by
  have houtcome := run.session.perform_outcome 0 action
  simp only [enter, start] at hm
  cases heffect : run.session.perform action with
  | done =>
      rw [heffect] at hm houtcome
      simpa [houtcome.not_called] using hm
  | emission =>
      rw [heffect] at hm
      simpa [emit] using hm

/-- A slot is shown the desk as it is when the slot is called. -/
theorem called_advance {run : Run} {ref' : SignalRef} {value' : Int} {emission : Emission Slot}
    (hm : .called ref id slot value desk ∈ (run.advance ref' value' emission).events) :
    .called ref id slot value desk ∈ run.events ∨
      (run.advance ref' value' emission).session.desk = desk := by
  revert hm
  unfold advance
  split
  · exact .inl
  · simp only
    split
    · exact .inl
    · intro hm
      rcases List.mem_append.mp hm with hm | hm
      · exact .inl hm
      · cases List.mem_singleton.mp hm
        exact .inr rfl

theorem called_next {run run' : Run} (hnext : run.next? = some run')
    (hm : .called ref id slot value desk ∈ run'.events) :
    .called ref id slot value desk ∈ run.events ∨ run'.session.desk = desk := by
  obtain ⟨session, stack, events⟩ := run
  cases stack with
  | nil => cases hnext
  | cons frame below =>
      cases frame with
      | body tag acts =>
          cases acts with
          | nil =>
              obtain rfl := Option.some.inj hnext
              exact .inl hm
          | cons action acts =>
              obtain rfl := Option.some.inj hnext
              exact .inl (called_act ⟨session, .body tag acts :: below, events⟩ hm)
      | awaiting =>
          obtain rfl := Option.some.inj hnext
          exact .inl (by simpa using hm)
      | emission =>
          obtain rfl := Option.some.inj hnext
          exact called_advance hm

variable {signals : Nat} {allowance : Option Nat} {run : Run} {log : List Deed}

/-- Every desk that a slot was shown is the desk at some point of the run. -/
theorem Reaches.called (h : Reaches signals allowance run log)
    (hm : .called ref id slot value desk ∈ run.events) :
    ∃ earlier log', Reaches signals allowance earlier log' ∧ earlier.session.desk = desk := by
  induction h with
  | new => cases hm
  | enter _ _ _ ih => exact ih (called_enter hm)
  | next h hnext ih =>
      rcases called_next hnext hm with hm | hdesk
      · exact ih hm
      · exact ⟨_, _, h.next hnext, hdesk⟩
  | revise _ _ _ ih => exact ih hm

/-! ## Ownership -/

theorem Reaches.exclusive (h : Reaches signals allowance run log) : run.session.desk.Exclusive :=
  (Desk.invariant_owned.reaches h).linked.exclusive

/-- At every point of a run, and whenever a slot is called, every item knows the one menu that has
it. Peers are told of an item while it is linked to their menu, and to go when the items that the menu
still had are free. -/
theorem items_have_one_owner (h : Reaches signals allowance run log) :
    run.session.desk.Exclusive ∧
      (∀ ref id slot value desk, .called ref id slot value desk ∈ run.events → desk.Exclusive) ∧
      ∀ before notice after, run.events = before ++ .peer notice :: after →
        match notice.call with
        | .init => True
        | .insert item _ => notice.desk.link? item = some (some notice.menu)
        | .remove item => notice.desk.link? item = some (some notice.menu)
        | .destroy => ∀ item ∈ PeerCall.replay (Event.peerCalls notice.menu before),
            notice.desk.link? item = some none := by
  refine ⟨h.exclusive, fun ref id slot value desk hm => ?_, fun before notice after heq => ?_⟩
  · obtain ⟨earlier, log', hearlier, rfl⟩ := h.called hm
    exact hearlier.exclusive
  · have hnotices : run.events.filterMap Event.notice? =
        before.filterMap Event.notice? ++ notice :: after.filterMap Event.notice? := by
      rw [heq, List.filterMap_append]
      rfl
    have hfound := (Desk.invariant_owned.reaches h).found _ notice _ hnotices
    rw [peerCalls_eq]
    exact hfound

theorem items_have_one_owner_dropped_by_slot :
    ∃ run log, Reaches 0 none run log ∧
      Event.peerCalls ⟨0⟩ run.events = [.init, .insert ⟨0⟩ 0, .destroy] ∧
        run.session.desk.link? ⟨0⟩ = some none ∧ run.session.desk.Exclusive := by
  have hnew : Reaches 0 none ⟨.new 0 none, [], []⟩ [] := .new
  have hitem := hnew.enter rfl (.makeItem "close" .label "Close")
  have hmenu := hitem.enter rfl (.makeMenu "file" true)
  have happended := hmenu.enter rfl (.append "file" "close")
  have hconnected := happended.enter rfl (.connect (.click "close") "closing" [.drop "file"] none)
  have hclicked := hconnected.enter rfl (.click "close")
  have hdropped := (hclicked.next rfl).next rfl
  exact ⟨_, _, hdropped, by rfl, by rfl, (items_have_one_owner hdropped).1⟩

/-! ## Edits of menus -/

/-- At every point of a run, an item goes into a menu at an index if it is in none and the index is
not beyond the end, and it comes out of a menu if it is there. Then the peer of the menu is told, the
other items of the menu keep their order, and all other menus and items stay as they are. Otherwise
nothing changes, and no peer is told. To take an item out that was put in, or to put it back where it
was taken out, restores the desk. -/
theorem menu_edits_are_exact (h : Reaches signals allowance run log) {id : MenuId} {menu : Menu}
    {item : ItemId} {entry : MenuItem Slot} (hmenu : run.session.desk.menu? id = some menu)
    (hitem : run.session.desk.item? item = some entry) :
    (∀ index, run.session.desk.Edits id (entry.menu = none ∧ index ≤ menu.items.length)
      (menu.items.take index ++ item :: menu.items.drop index) item (some id) (.insert item index)
      (run.session.desk.insert id item index)) ∧
    run.session.desk.append id item = run.session.desk.insert id item menu.items.length ∧
    run.session.desk.Edits id (item ∈ menu.items) (menu.items.filter (· != item)) item none
      (.remove item) (run.session.desk.remove id item) ∧
    (∀ index, (run.session.desk.insert id item index).value.1 = true →
      ((run.session.desk.insert id item index).value.2.remove id item).value =
        (true, run.session.desk)) ∧
    ((run.session.desk.remove id item).value.1 = true →
      ((run.session.desk.remove id item).value.2.insert id item (menu.items.idxOf item)).value =
        (true, run.session.desk)) := by
  have hlinked := (Desk.invariant_owned.reaches h).linked
  have hnodup : menu.items.Nodup := Desk.itemsOf_eq hmenu ▸ hlinked.nodup id
  refine ⟨fun index => Desk.edits_insert hmenu hitem index, Desk.append_eq hmenu item, ?_,
    fun index => Desk.insert_remove hlinked hmenu hitem, Desk.remove_insert hlinked hmenu hitem⟩
  rw [← hnodup.erase_eq_filter]
  exact Desk.edits_remove hmenu item

/-- An item that is in a menu with another one. It cannot be inserted again, but taken out and put
back. -/
theorem menu_edits_are_exact_second_item :
    ∃ run log, Reaches 0 none run log ∧
      run.session.desk.itemsOf ⟨0⟩ = [⟨0⟩, ⟨1⟩] ∧
      (run.session.desk.insert ⟨0⟩ ⟨1⟩ 0).value.2 = run.session.desk ∧
      ((run.session.desk.remove ⟨0⟩ ⟨1⟩).value.2.insert ⟨0⟩ ⟨1⟩ 1).value =
        (true, run.session.desk) := by
  have hnew : Reaches 0 none ⟨.new 0 none, [], []⟩ [] := .new
  have hopen := hnew.enter rfl (.makeItem "open" .label "Open")
  have hclose := hopen.enter rfl (.makeItem "close" .label "Close")
  have hmenu := hclose.enter rfl (.makeMenu "file" true)
  have hfirst := hmenu.enter rfl (.append "file" "open")
  have hsecond := hfirst.enter rfl (.append "file" "close")
  obtain ⟨hinsert, -, -, -, hback⟩ := menu_edits_are_exact hsecond
    (show Desk.menu? _ ⟨0⟩ = some _ from rfl) (show Desk.item? _ ⟨1⟩ = some _ from rfl)
  exact ⟨_, _, hsecond, rfl, ((hinsert 0).rejected rfl).1, hback rfl⟩

end Run

end WidgetToolkit
