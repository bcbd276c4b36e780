import WidgetToolkit.Proofs.Script.Session
import WidgetToolkit.Script.Run

/-! # Runs that can be reached

Beside a run goes an account of what has happened to the signals. Slots are free in what they do:
what a slot has still to do may change at any time. -/

namespace WidgetToolkit

/-- What happens to signals. The depth of an emission is the number of emissions around it. -/
inductive Deed where
  | connected (signal : SignalRef) (id : SlotId)
  /-- A slot was to be disconnected, whether it was connected or not. -/
  | disconnected (signal : SignalRef) (id : SlotId)
  | cleared (signal : SignalRef)
  | began (depth : Nat) (signal : SignalRef) (value : Int)
  | called (depth : Nat) (signal : SignalRef) (id : SlotId) (value : Int)
  | ended (depth : Nat) (signal : SignalRef)
deriving DecidableEq

def Deed.signal : Deed → SignalRef
  | .connected ref _ => ref
  | .disconnected ref _ => ref
  | .cleared ref => ref
  | .began _ ref _ => ref
  | .called _ ref _ _ => ref
  | .ended _ ref => ref

/-- The call of a slot, with the value that it got. -/
def Deed.call? : Deed → Option (SignalRef × SlotId × Int)
  | .called _ ref id value => some (ref, id, value)
  | _ => none

def Event.call? : Event → Option (SignalRef × SlotId × Int)
  | .called ref id _ value _ => some (ref, id, value)
  | _ => none

/-- What an action changes about the slots of signals, given its answer. -/
def Session.changes (session : Session) : Action → Answer → List Deed
  | .connect name .., .slot id => (session.resolve? name).toList.map (.connected · id)
  | .disconnect name tag, _ =>
    ((session.resolve? name).bind fun ref => (session.lookup tag).map (.disconnected ref)).toList
  | .disconnectAll name, _ => (session.resolve? name).toList.map .cleared
  | _, _ => []

def Effect.deeds (depth : Nat) (changes : Answer → List Deed) : Effect → List Deed
  | .done answer _ _ => changes answer
  | .emission ref value _ _ => [.began depth ref value]

/-- What an action does to the signals when it is performed at a depth. -/
def Session.deeds (session : Session) (depth : Nat) (action : Action) : List Deed :=
  (session.perform action).deeds depth (session.changes action)

/-! ## What an action comes to -/

namespace Effect

/-- Whatever comes of looking things up has a property. -/
def Found (p : Effect → Prop) (effect? : Option Effect) : Prop :=
  ∀ effect, effect? = some effect → p effect

variable {p : Effect → Prop}

theorem found_pure {effect : Effect} (h : p effect) : Found p (pure effect) := by
  rintro _ ⟨⟩
  exact h

theorem found_bind {α : Type} {found : Option α} {next : α → Option Effect}
    (h : ∀ a, found = some a → Found p (next a)) : Found p (found >>= next) := by
  intro effect heffect
  obtain ⟨a, ha, hnext⟩ := Option.bind_eq_some_iff.mp heffect
  exact h a ha effect hnext

end Effect

/-- What an action comes to, and what it does to the signals. Peers are called only by what is done
to the desk. -/
inductive Session.Outcome (session : Session) (depth : Nat) : Effect → List Deed → Prop
  | moved {notices : List (PeerNotice Slot)} {desk : Desk Slot}
      (hdesk : session.desk.Moves notices desk) (answer : Answer) :
      Outcome session depth (.done answer (notices.map .peer) { session with desk := desk }) []
  | connected {ref : SignalRef} (href : session.Has ref) (slot : Slot)
      (tags : List (String × SlotId)) :
      Outcome session depth
        (.done (.slot ((session.signal ref).connect slot).1) []
          { session.setSignal ref ((session.signal ref).connect slot).2 with tags := tags })
        [.connected ref ((session.signal ref).connect slot).1]
  | disconnected {ref : SignalRef} (href : session.Has ref) (id : SlotId) (answer : Answer) :
      Outcome session depth
        (.done answer [] (session.setSignal ref ((session.signal ref).disconnect id).2))
        [.disconnected ref id]
  | cleared {ref : SignalRef} (href : session.Has ref) (answer : Answer) :
      Outcome session depth
        (.done answer [] (session.setSignal ref (session.signal ref).disconnectAll)) [.cleared ref]
  | emission {ref : SignalRef} (href : session.Has ref) (value : Int) (answer : Answer)
      {desk : Desk Slot} (hdesk : session.desk.Moves [] desk) :
      Outcome session depth (.emission ref value answer { session with desk := desk })
        [.began depth ref value]

namespace Session

variable {session : Session} {depth : Nat}

/-- The effect changes nothing about the slots of signals. -/
def Quiet (session : Session) (depth : Nat) (effect : Effect) : Prop :=
  session.Outcome depth effect (effect.deeds depth fun _ => [])

theorem quiet_reply (answer : Answer) : session.Quiet depth (session.reply answer) :=
  .moved (.rest session.desk) answer

/-- Whatever comes of looking things up changes nothing about the slots of signals. -/
def Quiet? (session : Session) (depth : Nat) (effect? : Option Effect) : Prop :=
  ∀ effect, effect? = some effect → session.Quiet depth effect

theorem Quiet?.getD {effect? : Option Effect} (h : session.Quiet? depth effect?) :
    session.Quiet depth (effect?.getD (session.reply .nothing)) := by
  cases effect? with
  | none => exact quiet_reply .nothing
  | some effect => exact h effect rfl

theorem quiet?_pure {effect : Effect} (h : session.Quiet depth effect) :
    session.Quiet? depth (pure effect) :=
  Effect.found_pure h

theorem quiet?_bind {α : Type} {found : Option α} {next : α → Option Effect}
    (h : ∀ a, found = some a → session.Quiet? depth (next a)) :
    session.Quiet? depth (found >>= next) :=
  Effect.found_bind h

theorem quiet_edit {told : Told (PeerNotice Slot) (Bool × Desk Slot)}
    (h : session.desk.Moves told.notices told.value.2) : session.Quiet depth (session.edit told) :=
  .moved h _

theorem quiet_furnish {told : Told (PeerNotice Slot) (Desk Slot)}
    (h : session.desk.Moves told.notices told.value) : session.Quiet depth (session.furnish told) :=
  .moved h .nothing

theorem quiet_setItem (item : ItemId) {change : MenuItem Slot → MenuItem Slot}
    (hmenu : ∀ item, (change item).menu = item.menu)
    (hclicked : ∀ item, (change item).clicked = item.clicked) :
    session.Quiet depth (.done .nothing [] (session.setItem item change)) :=
  .moved (Desk.Move.item item hmenu hclicked).once .nothing

theorem quiet_clicked {item : ItemId} (hitem : session.Has (.click item))
    {desk? : Option (Desk Slot)} (h : ∀ desk, desk? = some desk → session.desk.Moves [] desk) :
    session.Quiet depth (session.clicked item desk?) := by
  cases desk? with
  | none => exact quiet_reply (.flag false)
  | some desk => exact .emission hitem 0 (.flag true) (h desk rfl)

/-- The menu that has the name already is dropped when the new one has been made. -/
theorem quiet_makeMenu (name : String) (recorded : Bool) :
    session.Quiet depth (session.makeMenu name recorded) := by
  apply quiet_furnish
  have hnew := session.desk.move_newMenu name recorded
  cases session.desk.menuNamed? name with
  | none => exact hnew.once
  | some former => exact .step hnew (Desk.moves_drop _ former)

theorem outcome_nothing : session.Outcome depth (.done .nothing [] session) [] :=
  .moved (.rest session.desk) .nothing

theorem has_click {name : String} {item : ItemId} (h : session.desk.itemNamed? name = some item) :
    session.Has (.click item) :=
  Desk.itemNamed?_lt h

theorem perform_outcome (session : Session) (depth : Nat) (action : Action) :
    session.Outcome depth (session.perform action) (session.deeds depth action) := by
  have hquiet : ∀ effect? : Option Effect, session.Quiet? depth effect? →
      session.Quiet depth (effect?.getD (session.reply .nothing)) := fun _ h => h.getD
  cases action with
  | connect name tag acts limit =>
      rw [deeds, perform, perform?]
      cases href : session.resolve? name with
      | none => exact outcome_nothing
      | some ref =>
          simp only [Option.bind_eq_bind, Option.bind_some, Option.getD_some, Effect.deeds, changes,
            href, Option.pure_def, Option.toList_some, List.map_cons, List.map_nil]
          exact .connected (resolve?_has href) ⟨tag, acts, limit, 0⟩ _
  | disconnect name tag =>
      rw [deeds, perform, perform?]
      cases href : session.resolve? name with
      | none => simpa [reply, Effect.deeds, changes, href] using outcome_nothing
      | some ref =>
          cases hid : session.lookup tag with
          | none => simpa [reply, Effect.deeds, changes, href, hid] using outcome_nothing
          | some id =>
              simpa [Effect.deeds, changes, href, hid] using
                Outcome.disconnected (resolve?_has href) id _
  | disconnectAll name =>
      rw [deeds, perform, perform?]
      cases href : session.resolve? name with
      | none => simpa [reply, Effect.deeds, changes, href] using outcome_nothing
      | some ref =>
          simpa [Effect.deeds, changes, href] using Outcome.cleared (resolve?_has href) .nothing
  | emit name value =>
      refine hquiet _ (quiet?_bind fun ref href => quiet?_pure ?_)
      exact .emission (resolve?_has href) value .nothing (.rest session.desk)
  | countSlots name | isEmpty name | describeSignal name =>
      exact hquiet _ (quiet?_bind fun ref _ => quiet?_pure (quiet_reply _))
  | makeItem name kind label =>
      exact hquiet _ (quiet?_pure (quiet_furnish (Desk.Move.newItem name kind label).once))
  | makeMenu name recorded => exact hquiet _ (quiet?_pure (quiet_makeMenu name recorded))
  | drop menu =>
      refine hquiet _ (quiet?_bind fun id _ => quiet?_pure (quiet_furnish ?_))
      exact session.desk.moves_drop id
  | append menu item =>
      refine hquiet _ (quiet?_bind fun id _ => quiet?_bind fun item _ => quiet?_pure ?_)
      refine quiet_edit ?_
      exact session.desk.moves_insert id item _
  | insert menu item index =>
      refine hquiet _ (quiet?_bind fun id _ => quiet?_bind fun item _ => quiet?_pure ?_)
      refine quiet_edit ?_
      exact session.desk.moves_insert id item index
  | remove menu item =>
      refine hquiet _ (quiet?_bind fun id _ => quiet?_bind fun item _ => quiet?_pure ?_)
      refine quiet_edit ?_
      exact session.desk.moves_remove id item
  | activate menu item =>
      refine hquiet _ (quiet?_bind fun item hitem => quiet?_bind fun id _ => quiet?_pure ?_)
      exact quiet_clicked (has_click hitem) fun desk h => Desk.moves_activate? h
  | click item =>
      refine hquiet _ (quiet?_bind fun item hitem => quiet?_pure ?_)
      exact quiet_clicked (has_click hitem) fun desk h => Desk.moves_press? h
  | setLabel item | setEnabled item | setChecked item | setVisible item =>
      refine hquiet _ (quiet?_bind fun item _ => quiet?_pure ?_)
      exact quiet_setItem item (fun _ => rfl) fun _ => rfl
  | itemAt menu index =>
      refine hquiet _ (quiet?_bind fun id _ => quiet?_bind fun item _ => quiet?_pure ?_)
      exact quiet_reply _
  | indexOf menu item =>
      refine hquiet _ (quiet?_bind fun id _ => quiet?_bind fun item _ => quiet?_bind fun n _ => ?_)
      exact quiet?_pure (quiet_reply _)
  | countItems menu => exact hquiet _ (quiet?_bind fun id _ => quiet?_pure (quiet_reply _))
  | describeItem item =>
      refine hquiet _ (quiet?_bind fun id _ => quiet?_bind fun text _ => quiet?_pure ?_)
      exact quiet_reply _
  | describeMenu menu =>
      refine hquiet _ (quiet?_bind fun id _ => quiet?_bind fun text _ => quiet?_pure ?_)
      exact quiet_reply _

end Session

/-! ## Runs -/

namespace Run

/-- An emission that has begun and not ended. -/
structure Underway where
  signal : SignalRef
  value : Int
  emission : Emission Slot

/-- The emissions on a stack, innermost first. -/
def underway : List Frame → List Underway
  | [] => []
  | .emission ref value emission :: below => ⟨ref, value, emission⟩ :: underway below
  | _ :: below => underway below

/-- The number of emissions on a stack. -/
def depth (stack : List Frame) : Nat := (underway stack).length

/-- What the next step of a run does to the signals. -/
def deeds (run : Run) : List Deed :=
  match run.stack with
  | .body _ (action :: _) :: below => run.session.deeds (depth below) action
  | .emission ref value emission :: below =>
    match emission.waiting with
    | [] => [.ended (depth below) ref]
    | (id, _) :: _ =>
      if (run.session.signal ref).isRemoved id then [] else [.called (depth below) ref id value]
  | _ => []

/-- A run that has ended goes on with an action from outside. -/
def enter (run : Run) (action : Action) : Run :=
  let (_, started) := start run.session action
  { started with events := run.events ++ started.events }

/-- The runs of a session with so many signals and so many calls that run the actions of their
slots, with what has happened to the signals. -/
inductive Reaches (signals : Nat) (allowance : Option Nat) : Run → List Deed → Prop
  | new : Reaches signals allowance ⟨.new signals allowance, [], []⟩ []
  | enter {run : Run} {log : List Deed} (h : Reaches signals allowance run log)
      (hstack : run.stack = []) (action : Action) :
      Reaches signals allowance (run.enter action) (log ++ run.session.deeds 0 action)
  | next {run run' : Run} {log : List Deed} (h : Reaches signals allowance run log)
      (hnext : run.next? = some run') : Reaches signals allowance run' (log ++ run.deeds)
  /-- A slot goes on with other actions. -/
  | revise {run : Run} {log : List Deed} {slot : String} {acts : List Action} {below : List Frame}
      (h : Reaches signals allowance run log) (hstack : run.stack = .body slot acts :: below)
      (acts' : List Action) :
      Reaches signals allowance { run with stack := .body slot acts' :: below } log

/-! ## Scripts -/

/-- A run before which something has happened already. -/
def behind (run : Run) (earlier : List Event) : Run := { run with events := earlier ++ run.events }

theorem act_behind (run : Run) (earlier : List Event) (slot : String) (action : Action) :
    (run.behind earlier).act slot action = (run.act slot action).behind earlier := by
  simp only [act, behind]
  split <;> simp [emit]

theorem advance_behind (run : Run) (earlier : List Event) (ref : SignalRef) (value : Int)
    (emission : Emission Slot) :
    (run.behind earlier).advance ref value emission =
      (run.advance ref value emission).behind earlier := by
  cases hwaiting : emission.waiting with
  | nil => simp [advance, behind, hwaiting]
  | cons next waiting =>
      by_cases hremoved : next.1 ∈ (run.session.signal ref).removed
      · simp [advance, behind, hwaiting, hremoved]
      · simp only [advance, behind, hwaiting, Signal.isRemoved_eq, hremoved, decide_false,
          Bool.false_eq_true, if_false]
        exact congrArg (Run.mk _ _) (List.append_assoc earlier run.events _)

theorem next?_behind (run : Run) (earlier : List Event) :
    (run.behind earlier).next? = run.next?.map (·.behind earlier) := by
  obtain ⟨session, stack, events⟩ := run
  cases stack with
  | nil => rfl
  | cons frame below =>
      cases frame with
      | body slot acts =>
          cases acts with
          | nil => rfl
          | cons action acts =>
              let rest : Run := ⟨session, .body slot acts :: below, events⟩
              exact congrArg some (act_behind rest earlier slot action)
      | awaiting => simp [next?, behind]
      | emission =>
          exact congrArg some (advance_behind ⟨session, below, events⟩ earlier _ _ _)

theorem stack_eq_nil {run : Run} (h : run.next? = none) : run.stack = [] := by
  obtain ⟨session, stack, events⟩ := run
  cases stack with
  | nil => rfl
  | cons frame below =>
      cases frame with
      | body slot acts => cases acts <;> cases h
      | awaiting | emission => cases h

variable {signals : Nat} {allowance : Option Nat} {log : List Deed} {earlier : List Event}

theorem Reaches.finish {steps : Nat} {run run' : Run}
    (h : Reaches signals allowance (run.behind earlier) log)
    (hfinish : run.finish? steps = some run') :
    ∃ further, Reaches signals allowance (run'.behind earlier) (log ++ further) ∧
      run'.stack = [] := by
  induction steps generalizing run log with
  | zero => cases hfinish
  | succ steps ih =>
      cases hnext : run.next? with
      | none =>
          obtain rfl : run = run' := by simpa [finish?, hnext] using hfinish
          exact ⟨[], by simpa using h, stack_eq_nil hnext⟩
      | some next =>
          have hreached : Reaches signals allowance (next.behind earlier) (log ++ run.deeds) :=
            h.next (by rw [next?_behind, hnext]; rfl)
          obtain ⟨further, hend, hstack⟩ := ih hreached (by simpa [finish?, hnext] using hfinish)
          exact ⟨run.deeds ++ further, by simpa using hend, hstack⟩

/-- An action that a script performs to its end is part of a run. -/
theorem Reaches.turn {session : Session} (h : Reaches signals allowance ⟨session, [], earlier⟩ log)
    {steps : Nat} {action : Action} {turn : Turn} (hturn : session.turn? steps action = some turn) :
    ∃ further, Reaches signals allowance ⟨turn.session, [], earlier ++ turn.events⟩
      (log ++ further) := by
  obtain ⟨run, hfinish, rfl⟩ := Option.map_eq_some_iff.mp hturn
  obtain ⟨further, hend, hstack⟩ := (h.enter rfl action).finish hfinish
  refine ⟨session.deeds 0 action ++ further, ?_⟩
  rw [behind, hstack] at hend
  simpa using hend

/-- So are all its actions, one after the other. -/
theorem Reaches.turns {session : Session} (h : Reaches signals allowance ⟨session, [], earlier⟩ log)
    {steps : Nat} {script : List Action} {front back : List Turn} {turn : Turn}
    (hturns : Script.turns steps session script = front ++ turn :: back) :
    ∃ further, Reaches signals allowance
      ⟨turn.session, [], earlier ++ (front ++ [turn]).flatMap (·.events)⟩ (log ++ further) := by
  induction script generalizing session earlier log front with
  | nil => simp [Script.turns] at hturns
  | cons action script ih =>
      cases hfirst : session.turn? steps action with
      | none => simp [Script.turns, hfirst] at hturns
      | some first =>
          simp only [Script.turns, hfirst] at hturns
          obtain ⟨done, hdone⟩ := h.turn hfirst
          cases front with
          | nil =>
              obtain ⟨rfl, -⟩ := List.cons.inj hturns
              exact ⟨done, by simpa using hdone⟩
          | cons _ front =>
              obtain ⟨rfl, hrest⟩ := List.cons.inj hturns
              obtain ⟨further, hend⟩ := ih hdone hrest
              exact ⟨done ++ further, by simpa using hend⟩

end Run

end WidgetToolkit
