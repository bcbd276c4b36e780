import WidgetToolkit.Proofs.Menu.Calls
import WidgetToolkit.Proofs.Script.Performed
import WidgetToolkit.Proofs.Told

/-! # What peers are told in a run

The peer of a menu is told what the actions performed ask for, and nothing else. A menu that is
dropped, or whose name is taken by another one, is gone, and that is the last thing that its peer is
told. -/

namespace WidgetToolkit

/-! ## What is asked for -/

/-- Actions that change which menus there are, or which items they have. -/
def Action.edits : Action → Bool
  | .makeMenu .. | .drop _ | .append .. | .insert .. | .remove .. => true
  | _ => false

namespace Session

variable {session : Session} {action : Action} {id : MenuId}

/-- An action drops a menu: it names the menu, or takes the name for a new one. -/
def Drops (session : Session) (id : MenuId) : Action → Prop
  | .drop name => session.desk.Bears id name
  | .makeMenu name _ => session.desk.Bears id name
  | _ => False

/-- The calls that an action makes to the peer of a menu. -/
def peerCalls (session : Session) (id : MenuId) : Action → List PeerCall
  | .makeMenu name _ => session.desk.creation id ++ session.desk.destruction id name
  | .drop name => session.desk.destruction id name
  | .append menu item =>
    session.desk.byName id menu item (session.desk.insertion id (session.desk.itemsOf id).length)
  | .insert menu item index => session.desk.byName id menu item (session.desk.insertion id index)
  | .remove menu item => session.desk.byName id menu item (session.desk.removal id)
  | _ => []

/-! ## What an action comes to -/

/-- Other actions call no peer. -/
theorem events_perform (h : action.edits = false) : (session.perform action).events = [] := by
  have hfound : Effect.Found (·.events = []) (session.perform? action) := by
    cases action with
    | makeMenu | drop | append | insert | remove => cases h
    | makeItem => exact Effect.found_pure rfl
    | connect | disconnectAll | emit | countSlots | isEmpty | describeSignal | countItems | setLabel
      | setEnabled | setChecked | setVisible =>
        exact Effect.found_bind fun _ _ => Effect.found_pure rfl
    | disconnect | itemAt | describeItem | describeMenu =>
        exact Effect.found_bind fun _ _ => Effect.found_bind fun _ _ => Effect.found_pure rfl
    | indexOf =>
        refine Effect.found_bind fun _ _ => Effect.found_bind fun _ _ => ?_
        exact Effect.found_bind fun _ _ => Effect.found_pure rfl
    | click =>
        refine Effect.found_bind fun item _ => Effect.found_pure ?_
        cases session.desk.press? item <;> rfl
    | activate =>
        refine Effect.found_bind fun item _ => Effect.found_bind fun id _ => Effect.found_pure ?_
        cases session.desk.activate? id item <;> rfl
  rw [perform]
  cases heffect : session.perform? action with
  | none => rfl
  | some effect => exact hfound effect heffect

theorem peerCalls_drop (name : String) :
    Event.peerCalls id (session.perform (.drop name)).events =
      session.desk.destruction id name := by
  rw [perform, perform?, Desk.destruction]
  cases hname : session.desk.menuNamed? name with
  | none => rfl
  | some former =>
      obtain ⟨menu, hmenu⟩ := Desk.menu?_of_menuNamed? hname
      refine (peerCalls_peer id _).trans ((Desk.callsTo_drop hmenu id).trans ?_)
      simp only [Option.some_inj]

/-- The menu that has the name is dropped when the new one has been made. -/
theorem peerCalls_makeMenu (name : String) (recorded : Bool) :
    Event.peerCalls id (session.perform (.makeMenu name recorded)).events =
      session.desk.creation id ++ session.desk.destruction id name := by
  refine (peerCalls_peer id _).trans ?_
  rw [Told.bind_notices, Desk.callsTo_append, Desk.callsTo_newMenu, Desk.destruction]
  cases hname : session.desk.menuNamed? name with
  | none => rfl
  | some former =>
      obtain ⟨menu, hmenu⟩ := Desk.menu?_of_menuNamed? hname
      simp only [Desk.callsTo_drop (Desk.menu?_newMenu hmenu name recorded), Option.some_inj]

/-- An edit calls the peer of its menu, if there are such a menu and such an item. -/
theorem peerCalls_edit {menu item : String}
    {edit : MenuId → ItemId → Told (PeerNotice Slot) (Bool × Desk Slot)}
    (call : MenuId → ItemId → List PeerCall)
    (hedit : ∀ named item found entry, session.desk.menu? named = some found →
      session.desk.item? item = some entry →
        Desk.callsTo id (edit named item).notices = if named = id then call named item else [])
    (hperform : session.perform? action = do
      return session.edit
        (edit (← session.desk.menuNamed? menu) (← session.desk.itemNamed? item))) :
    Event.peerCalls id (session.perform action).events =
      session.desk.byName id menu item (call id) := by
  rw [perform, hperform, Desk.byName]
  cases hmenu : session.desk.menuNamed? menu with
  | none => rfl
  | some named =>
      cases hitem : session.desk.itemNamed? item with
      | none => simp [reply, Effect.events, Event.peerCalls]
      | some item =>
          obtain ⟨found, hfound⟩ := Desk.menu?_of_menuNamed? hmenu
          have hentry := List.getElem?_eq_getElem (Desk.itemNamed?_lt hitem)
          refine (peerCalls_peer id _).trans ((hedit named item found _ hfound hentry).trans ?_)
          by_cases hid : named = id <;> simp [hid]

theorem peerCalls_perform (session : Session) (id : MenuId) (action : Action) :
    Event.peerCalls id (session.perform action).events = session.peerCalls id action := by
  cases hedits : action.edits with
  | false =>
      rw [events_perform hedits]
      cases action <;> first | rfl | cases hedits
  | true =>
      cases action with
      | makeMenu name recorded => exact peerCalls_makeMenu name recorded
      | drop name => exact peerCalls_drop name
      | append menu item =>
          refine peerCalls_edit
            (fun id => session.desk.insertion id (session.desk.itemsOf id).length) ?_ rfl
          exact fun named item found entry hmenu hitem => Desk.callsTo_insert hmenu hitem _ id
      | insert menu item index =>
          refine peerCalls_edit (fun id => session.desk.insertion id index) ?_ rfl
          exact fun named item found entry hmenu hitem => Desk.callsTo_insert hmenu hitem index id
      | remove menu item =>
          refine peerCalls_edit session.desk.removal ?_ rfl
          exact fun named item found entry hmenu _ => Desk.callsTo_remove hmenu item id
      | _ => cases hedits

/-! ## Drops -/

theorem peerCalls_of_drops (h : session.Drops id action) :
    session.peerCalls id action = [.destroy] := by
  cases action with
  | drop name => exact if_pos (Desk.menuNamed?_eq_some_iff.mpr h)
  | makeMenu name recorded =>
      have hname := Desk.menuNamed?_eq_some_iff.mpr h
      have hnew : (⟨session.desk.menus.length⟩ : MenuId) ≠ id := by
        rintro rfl
        obtain ⟨menu, hmenu⟩ := Desk.menu?_of_menuNamed? hname
        obtain ⟨hlt, -⟩ := List.getElem?_eq_some_iff.mp (Desk.menu?_eq_some_iff.mp hmenu).1
        exact Nat.lt_irrefl _ hlt
      have hdropped : session.desk.destruction id name = [.destroy] := if_pos hname
      rw [peerCalls, Desk.creation, if_neg hnew, hdropped, List.nil_append]
  | _ => cases h

theorem destroy_mem_peerCalls_iff :
    .destroy ∈ session.peerCalls id action ↔ session.Drops id action := by
  refine ⟨fun hm => ?_, fun h => peerCalls_of_drops h ▸ List.mem_singleton_self _⟩
  cases action with
  | makeMenu | drop =>
      rw [Drops, ← Desk.menuNamed?_eq_some_iff]
      simpa [peerCalls, Desk.creation, Desk.destruction] using hm
  | append => exact Desk.destroy_notMem_byName (Desk.destroy_notMem_insertion _) _ _ hm
  | insert => exact Desk.destroy_notMem_byName (Desk.destroy_notMem_insertion _) _ _ hm
  | remove => exact Desk.destroy_notMem_byName Desk.destroy_notMem_removal _ _ hm
  | _ => cases hm

end Session

theorem PeerCall.Mirrors.destroy_mem_iff {calls : List PeerCall} {menu : Menu}
    (h : Mirrors calls menu) : .destroy ∈ calls ↔ menu.live = false := by
  obtain ⟨edits, hedits, hcalls⟩ := h.order
  have hedit : PeerCall.destroy ∉ edits := fun hm => hedits _ hm
  cases hlive : menu.live <;> simp [hcalls, hlive, hedit]

/-! ## Runs -/

namespace Run

variable {outset run run' after : Run} {action : Action} {base : List Frame} {id : MenuId}
  {performed : List (Session × Action)} {signals : Nat} {allowance : Option Nat}

theorem peerCalls_append_singleton {event : Event} (h : event.notice? = none) (events : List Event)
    (id : MenuId) : Event.peerCalls id (events ++ [event]) = Event.peerCalls id events := by
  have hnone : Event.peerCalls id [event] = [] := by
    rw [peerCalls_eq, List.filterMap_cons_none h]
    rfl
  rw [peerCalls_append, hnone, List.append_nil]

theorem peerCalls_advance (run : Run) (ref : SignalRef) (value : Int) (emission : Emission Slot)
    (id : MenuId) :
    Event.peerCalls id (run.advance ref value emission).events =
      Event.peerCalls id run.events := by
  rw [advance]
  split
  · rfl
  · simp only
    split
    · rfl
    · exact peerCalls_append_singleton rfl run.events id

/-- A step that performs no action calls no peer. -/
theorem peerCalls_of_due?_eq_none (hnext : run.next? = some run') (hdue : run.due? = none)
    (id : MenuId) : Event.peerCalls id run'.events = Event.peerCalls id run.events := by
  obtain ⟨session, stack, events⟩ := run
  cases stack with
  | nil => cases hnext
  | cons frame below =>
      cases frame with
      | body tag acts =>
          cases acts with
          | nil =>
              obtain rfl := Option.some.inj hnext
              rfl
          | cons action acts => cases hdue
      | awaiting tag action answer =>
          obtain rfl := Option.some.inj hnext
          exact peerCalls_append_singleton rfl events id
      | emission ref value emission =>
          obtain rfl := Option.some.inj hnext
          exact peerCalls_advance ⟨session, below, events⟩ ref value emission id

/-- The first step of an action makes the calls of the action. -/
theorem Asks.peerCalls (h : run.Asks action base after) (id : MenuId) :
    Event.peerCalls id after.events =
      Event.peerCalls id run.events ++ run.session.peerCalls id action := by
  rw [← run.session.peerCalls_perform]
  cases h with
  | slot =>
      simp only [act]
      cases run.session.perform action with
      | done answer events session =>
          exact (peerCalls_append_singleton rfl _ id).trans (peerCalls_append id run.events events)
      | emission => exact (List.append_nil _).symm
  | outside =>
      simp only [enter, start]
      cases run.session.perform action with
      | done answer events session => exact peerCalls_append id run.events events
      | emission => exact peerCalls_append id run.events []

theorem peerCalls_next (hnext : run.next? = some run') (id : MenuId) :
    Event.peerCalls id run'.events =
      Event.peerCalls id run.events ++ run.due?.toList.flatMap (run.session.peerCalls id) := by
  cases hdue : run.due? with
  | none => simp [peerCalls_of_due?_eq_none hnext hdue]
  | some action =>
      obtain ⟨base, hasks⟩ := asks_of_due? hdue hnext
      simp [hasks.peerCalls]

/-- The peer of a menu is told what the actions performed ask for, in their order. -/
theorem Performs.peerCalls (h : outset.Performs run performed) (id : MenuId) :
    Event.peerCalls id run.events = Event.peerCalls id outset.events ++
      performed.flatMap fun call => call.1.peerCalls id call.2 := by
  induction h with
  | here => simp
  | enter _ hstack action ih =>
      have hasks : Asks _ action [] _ := .outside hstack
      rw [hasks.peerCalls, ih]
      simp
  | next _ hnext ih =>
      rw [peerCalls_next hnext, ih]
      simp [List.flatMap_map]
  | revise _ _ _ ih => exact ih

/-- A menu has been dropped if one of the actions performed drops it. -/
theorem Performs.live_eq_false_iff (h : Performs ⟨.new signals allowance, [], []⟩ run performed)
    {menu : Menu} (hmirrors : PeerCall.Mirrors (Event.peerCalls id run.events) menu) :
    menu.live = false ↔ ∃ call ∈ performed, call.1.Drops id call.2 := by
  have hcalls : Event.peerCalls id run.events =
      performed.flatMap fun call => call.1.peerCalls id call.2 := h.peerCalls id
  simp only [← hmirrors.destroy_mem_iff, hcalls, List.mem_flatMap,
    Session.destroy_mem_peerCalls_iff]

theorem Performs.mirrors (h : Performs ⟨.new signals allowance, [], []⟩ run performed)
    (id : MenuId) :
    match run.session.desk.menus[id.number]? with
    | some menu => PeerCall.Mirrors (Event.peerCalls id run.events) menu ∧
        (menu.live = false ↔ ∃ call ∈ performed, call.1.Drops id call.2)
    | none => Event.peerCalls id run.events = [] := by
  obtain ⟨log, hreaches⟩ := exists_performs_iff.mp ⟨performed, h⟩
  have hmirrored := Desk.invariant_mirrored.reaches hreaches id
  rw [← peerCalls_eq] at hmirrored
  cases hmenu : run.session.desk.menus[id.number]? with
  | none =>
      rw [hmenu] at hmirrored
      exact hmirrored
  | some menu =>
      rw [hmenu] at hmirrored
      exact ⟨hmirrored, h.live_eq_false_iff hmirrored⟩

theorem Asks.drops (hasks : run.Asks action base after)
    (h : Performs ⟨.new signals allowance, [], []⟩ run performed)
    (hdrops : run.session.Drops id action) :
    Event.peerCalls id after.events = Event.peerCalls id run.events ++ [.destroy] ∧
      ∃ menu, after.session.desk.menus[id.number]? = some menu ∧ menu.live = false := by
  have hcalls : Event.peerCalls id after.events = Event.peerCalls id run.events ++ [.destroy] := by
    rw [hasks.peerCalls, Session.peerCalls_of_drops hdrops]
  refine ⟨hcalls, ?_⟩
  have hafter := (h.trans hasks.performs).mirrors id
  cases hmenu : after.session.desk.menus[id.number]? with
  | none =>
      rw [hmenu, hcalls] at hafter
      exact absurd hafter (List.append_ne_nil_of_right_ne_nil _ (List.cons_ne_nil _ _))
  | some menu =>
      rw [hmenu] at hafter
      have hm : (run.session, action) ∈ performed ++ [(run.session, action)] := by simp
      exact ⟨menu, rfl, hafter.2.mpr ⟨_, hm, hdrops⟩⟩

/-- At every point of a run, the peer of a menu has been told what the actions performed ask for,
in their order. It has been set up first and, if one of these actions drops the menu, made to go
last. In between items came and went, always at places and by items that were there, and a replay of
the calls gives the items of the menu. An action that comes next and drops the menu makes its peer
go at once. -/
theorem peers_mirror_menus (h : Performs ⟨.new signals allowance, [], []⟩ run performed)
    (id : MenuId) :
    Event.peerCalls id run.events =
        (performed.flatMap fun call => call.1.peerCalls id call.2) ∧
      (match run.session.desk.menus[id.number]? with
        | some menu => PeerCall.Mirrors (Event.peerCalls id run.events) menu ∧
            (menu.live = false ↔ ∃ call ∈ performed, call.1.Drops id call.2)
        | none => Event.peerCalls id run.events = []) ∧
      ∀ action base after, run.Asks action base after → run.session.Drops id action →
        Event.peerCalls id after.events = Event.peerCalls id run.events ++ [.destroy] ∧
          ∃ menu, after.session.desk.menus[id.number]? = some menu ∧ menu.live = false :=
  ⟨h.peerCalls id, h.mirrors id, fun _ _ _ hasks hdrops => hasks.drops h hdrops⟩

/-- The slot of an item drops the menu that the item is in. -/
theorem peers_mirror_menus_dropped_by_slot :
    ∃ run performed base after, Performs ⟨.new 0 none, [], []⟩ run performed ∧
      run.Asks (.drop "file") base after ∧
      PeerCall.Mirrors [.init, .insert ⟨0⟩ 0] ⟨"file", [⟨0⟩], true, true⟩ ∧
      Event.peerCalls ⟨0⟩ run.events = [.init, .insert ⟨0⟩ 0] ∧
      Event.peerCalls ⟨0⟩ after.events = [.init, .insert ⟨0⟩ 0, .destroy] ∧
      ∃ menu, after.session.desk.menus[0]? = some menu ∧ menu.live = false := by
  have hnew : Performs ⟨.new 0 none, [], []⟩ _ [] := .here
  have hitem := hnew.enter rfl (.makeItem "close" .label "Close")
  have hmenu := hitem.enter rfl (.makeMenu "file" true)
  have happended := hmenu.enter rfl (.append "file" "close")
  have hconnected := happended.enter rfl (.connect (.click "close") "closing" [.drop "file"] none)
  have hcalled := (hconnected.enter rfl (.click "close")).next rfl
  obtain ⟨hcalls, hmirrors, hdrop⟩ := peers_mirror_menus hcalled ⟨0⟩
  obtain ⟨hafter, hgone⟩ :=
    hdrop (.drop "file") _ _ (.slot rfl) (Desk.menuNamed?_eq_some_iff.mp rfl)
  exact ⟨_, _, _, _, hcalled, .slot rfl, hmirrors.1, hcalls, hafter, hgone⟩

end Run

end WidgetToolkit
