import WidgetToolkit.Proofs.Menu.Mirror
import WidgetToolkit.Proofs.Script.Reach

/-! # Menus and their peers in a run

What no move of a desk takes away holds at every point of a run. -/

namespace WidgetToolkit

def Event.notice? : Event → Option (PeerNotice Slot)
  | .peer notice => some notice
  | _ => none

theorem notice?_peer (notices : List (PeerNotice Slot)) :
    (notices.map Event.peer).filterMap Event.notice? = notices := by
  simp [List.filterMap_map, Function.comp_def, Event.notice?]

theorem peerCalls_eq (id : MenuId) (events : List Event) :
    Event.peerCalls id events = Desk.callsTo id (events.filterMap Event.notice?) := by
  rw [Event.peerCalls, Desk.callsTo, List.filterMap_filterMap]
  congr
  funext event
  cases event <;> rfl

theorem peerCalls_append (id : MenuId) (events further : List Event) :
    Event.peerCalls id (events ++ further) =
      Event.peerCalls id events ++ Event.peerCalls id further :=
  List.filterMap_append

theorem peerCalls_peer (id : MenuId) (notices : List (PeerNotice Slot)) :
    Event.peerCalls id (notices.map .peer) = Desk.callsTo id notices := by
  rw [peerCalls_eq, notice?_peer]

namespace Desk.Invariant

variable {property : List (PeerNotice Slot) → Desk Slot → Prop} {before : List (PeerNotice Slot)}
  {session : Session} {stack : List Frame} {events : List Event}

theorem setSignal (h : Invariant property) (hproperty : property before session.desk)
    (ref : SignalRef) (signal : Signal Slot) :
    property before (session.setSignal ref signal).desk := by
  cases ref with
  | plain => exact hproperty
  | click item => exact h.signal item signal hproperty

/-- The property holds when an action has come to its effect. -/
def HoldsAfter (property : List (PeerNotice Slot) → Desk Slot → Prop)
    (before : List (PeerNotice Slot)) : Effect → Prop
  | .done _ events session => property (before ++ events.filterMap Event.notice?) session.desk
  | .emission _ _ _ session => property before session.desk

theorem perform (h : Invariant property) (hproperty : property before session.desk) {depth : Nat}
    {effect : Effect} {deeds : List Deed} (houtcome : session.Outcome depth effect deeds) :
    HoldsAfter property before effect := by
  cases houtcome with
  | moved hdesk =>
      rw [HoldsAfter, notice?_peer]
      exact h.moves hdesk hproperty
  | connected | disconnected | cleared =>
      rw [HoldsAfter, List.filterMap_nil, List.append_nil]
      exact h.setSignal hproperty _ _
  | emission _ _ _ hdesk => simpa [HoldsAfter] using h.moves hdesk hproperty

/-- The property holds at a point of a run. -/
def HoldsAt (property : List (PeerNotice Slot) → Desk Slot → Prop) (run : Run) : Prop :=
  property (run.events.filterMap Event.notice?) run.session.desk

theorem act (h : Invariant property)
    (hproperty : property (events.filterMap Event.notice?) session.desk) (slot : String)
    (action : Action) : HoldsAt property (Run.act ⟨session, stack, events⟩ slot action) := by
  have hperform := h.perform hproperty (session.perform_outcome 0 action)
  simp only [Run.act]
  cases heffect : session.perform action with
  | done =>
      rw [heffect] at hperform
      simpa [HoldsAt, HoldsAfter, List.filterMap_cons, Event.notice?] using hperform
  | emission =>
      rw [heffect] at hperform
      exact h.setSignal hperform _ _

theorem enter (h : Invariant property) {run : Run} (hproperty : HoldsAt property run)
    (action : Action) : HoldsAt property (run.enter action) := by
  have hperform := h.perform hproperty (run.session.perform_outcome 0 action)
  simp only [Run.enter, Run.start]
  cases heffect : run.session.perform action with
  | done =>
      rw [heffect] at hperform
      simpa [HoldsAt, HoldsAfter] using hperform
  | emission =>
      rw [heffect] at hperform
      simpa [HoldsAt, Run.emit] using h.setSignal hperform _ _

theorem spend_desk (session : Session) : session.spend.2.desk = session.desk := by
  unfold Session.spend
  split <;> rfl

theorem advance (h : Invariant property)
    (hproperty : property (events.filterMap Event.notice?) session.desk) (ref : SignalRef)
    (value : Int) (emission : Emission Slot) :
    HoldsAt property (Run.advance ⟨session, stack, events⟩ ref value emission) := by
  unfold Run.advance
  split
  · exact h.setSignal hproperty ref _
  · simp only
    split
    · exact hproperty
    · simpa [HoldsAt, Run.call, List.filterMap_cons, Event.notice?, spend_desk] using hproperty

theorem next (h : Invariant property) {run run' : Run} (hproperty : HoldsAt property run)
    (hnext : run.next? = some run') : HoldsAt property run' := by
  obtain ⟨session, stack, events⟩ := run
  cases stack with
  | nil => cases hnext
  | cons frame below =>
      cases frame with
      | body slot acts =>
          cases acts with
          | nil =>
              obtain rfl := Option.some.inj hnext
              exact hproperty
          | cons action acts =>
              obtain rfl := Option.some.inj hnext
              exact h.act hproperty slot action
      | awaiting slot action answer =>
          obtain rfl := Option.some.inj hnext
          simpa [HoldsAt, List.filterMap_cons, Event.notice?] using hproperty
      | emission ref value emission =>
          obtain rfl := Option.some.inj hnext
          exact h.advance hproperty ref value emission

theorem reaches (h : Invariant property) {signals : Nat} {allowance : Option Nat} {run : Run}
    {log : List Deed} (hreaches : Run.Reaches signals allowance run log) :
    HoldsAt property run := by
  induction hreaches with
  | new => exact h.empty
  | enter _ _ action ih => exact h.enter ih action
  | next _ hnext ih => exact h.next ih hnext
  | revise _ _ _ ih => exact ih

end Desk.Invariant

end WidgetToolkit
