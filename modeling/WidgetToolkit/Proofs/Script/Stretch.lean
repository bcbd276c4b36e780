import WidgetToolkit.Proofs.Script.Ownership
import WidgetToolkit.Proofs.Script.Reports

/-! # While an action is performed

An action has returned when the stack is again what it was below the action. Until then the run is
on a stretch of which the action is the beginning, with all that slots do meanwhile. -/

namespace WidgetToolkit

namespace Run

/-- A run performs an action next, which a slot has come to or which comes from outside: what is on
the stack when the action returns, and the run after its first step. -/
inductive Asks (run : Run) (action : Action) : List Frame → Run → Prop
  | slot {tag : String} {acts : List Action} {below : List Frame}
      (hstack : run.stack = .body tag (action :: acts) :: below) :
      Asks run action (.body tag acts :: below)
        (act { run with stack := .body tag acts :: below } tag action)
  | outside (hstack : run.stack = []) : Asks run action [] (run.enter action)

/-- What a run comes to until the stack is a given one, if slots perform permitted actions only. As
ever, a slot may go on with other actions. -/
inductive Stretch (permits : Session → Action → Prop) (base : List Frame) (start : Run) : Run → Prop
  | here : Stretch permits base start start
  | next {run run' : Run} (h : Stretch permits base start run)
      (hbusy : base.length < run.stack.length) (hnext : run.next? = some run')
      (hpermits : ∀ tag action acts below, run.stack = .body tag (action :: acts) :: below →
        permits run.session action) :
      Stretch permits base start run'
  | revise {run : Run} {tag : String} {acts : List Action} {below : List Frame}
      (h : Stretch permits base start run) (hbusy : base.length < run.stack.length)
      (hstack : run.stack = .body tag acts :: below) (acts' : List Action) :
      Stretch permits base start { run with stack := .body tag acts' :: below }

/-- Something is true of the desk at a point of a run, and was at every call of a slot since an
earlier point. -/
def Throughout (start point : Run) (p : Desk Slot → Prop) : Prop :=
  p point.session.desk ∧ ∃ events, point.events = start.events ++ events ∧
    ∀ ref id slot value desk, .called ref id slot value desk ∈ events → p desk

/-! ## Events -/

/-- The events of a run go on with those of another one, in which slots are shown the desk as it
is. -/
def Continues (run run' : Run) : Prop :=
  ∃ events, run'.events = run.events ++ events ∧
    ∀ ref id slot value desk, .called ref id slot value desk ∈ events → desk = run'.session.desk

theorem continues_of_events_eq {run run' : Run} (h : run'.events = run.events) :
    run.Continues run' := ⟨[], by simpa using h, by simp⟩

theorem Throughout.continues {start run run' : Run} {p : Desk Slot → Prop}
    (h : start.Throughout run p) (hcontinues : run.Continues run') (hp : p run'.session.desk) :
    start.Throughout run' p := by
  obtain ⟨-, events, hevents, hcalls⟩ := h
  obtain ⟨further, hfurther, hshown⟩ := hcontinues
  refine ⟨hp, events ++ further, by rw [hfurther, hevents, List.append_assoc], ?_⟩
  intro ref id slot value desk hm
  rcases List.mem_append.mp hm with hm | hm
  · exact hcalls ref id slot value desk hm
  · rw [hshown ref id slot value desk hm]
    exact hp

theorem Throughout.mono {start point : Run} {p q : Desk Slot → Prop} (h : start.Throughout point p)
    (hpq : ∀ desk, p desk → q desk) : start.Throughout point q := by
  obtain ⟨hnow, events, hevents, hcalls⟩ := h
  refine ⟨hpq _ hnow, events, hevents, fun ref id slot value desk hm => ?_⟩
  exact hpq desk (hcalls ref id slot value desk hm)

/-- What an action comes to at once calls no slot. -/
theorem not_called_of_done {session session' : Session} {action : Action} {answer : Answer}
    {events : List Event} (h : session.perform action = .done answer events session')
    (ref : SignalRef) (id : SlotId) (slot : Slot) (value : Int) (desk : Desk Slot) :
    .called ref id slot value desk ∉ events := by
  have houtcome := session.perform_outcome 0 action
  rw [h] at houtcome
  exact houtcome.not_called

theorem events_act (run : Run) (tag : String) (action : Action) :
    ∃ events, (run.act tag action).events = run.events ++ events ∧
      ∀ ref id slot value desk, .called ref id slot value desk ∉ events := by
  simp only [act]
  cases heffect : run.session.perform action with
  | done answer events session =>
      refine ⟨events ++ [.did tag action answer], by simp, fun ref id slot value desk hm => ?_⟩
      simp [not_called_of_done heffect] at hm
  | emission ref value answer session => exact ⟨[], by simp [emit], by simp⟩

theorem events_enter (run : Run) (action : Action) :
    ∃ events, (run.enter action).events = run.events ++ events ∧
      ∀ ref id slot value desk, .called ref id slot value desk ∉ events := by
  simp only [enter, start]
  cases heffect : run.session.perform action with
  | done answer events session => exact ⟨events, rfl, not_called_of_done heffect⟩
  | emission ref value answer session => exact ⟨[], by simp [emit], by simp⟩

theorem continues_advance (run : Run) (ref : SignalRef) (value : Int) (emission : Emission Slot) :
    run.Continues (run.advance ref value emission) := by
  unfold advance
  split
  · exact continues_of_events_eq rfl
  · simp only
    split
    · exact continues_of_events_eq rfl
    · refine ⟨[_], rfl, fun ref id slot value desk hm => ?_⟩
      cases List.mem_singleton.mp hm
      rfl

theorem continues_next {run run' : Run} (hnext : run.next? = some run') : run.Continues run' := by
  obtain ⟨session, stack, events⟩ := run
  cases stack with
  | nil => cases hnext
  | cons frame below =>
      cases frame with
      | body tag acts =>
          cases acts with
          | nil =>
              obtain rfl := Option.some.inj hnext
              exact continues_of_events_eq rfl
          | cons action acts =>
              obtain rfl := Option.some.inj hnext
              obtain ⟨further, hevents, hnone⟩ :=
                events_act ⟨session, .body tag acts :: below, events⟩ tag action
              refine ⟨further, hevents, fun ref id slot value desk hm => ?_⟩
              exact absurd hm (hnone ref id slot value desk)
      | awaiting tag action answer =>
          obtain rfl := Option.some.inj hnext
          exact ⟨[.did tag action answer], rfl, by simp⟩
      | emission ref value emission =>
          obtain rfl := Option.some.inj hnext
          exact continues_advance ⟨session, below, events⟩ ref value emission

end Run

/-! ## Desks -/

/-- The slots of items are nothing to a property of desks. -/
def Desk.SlotFree (p : Desk Slot → Prop) : Prop :=
  ∀ (desk : Desk Slot) id signal, p desk →
    p (desk.modifyItem id fun entry => { entry with clicked := signal })

namespace Desk.SlotFree

variable {p : Desk Slot → Prop}

theorem setSignal (h : SlotFree p) {session : Session} (hp : p session.desk) (ref : SignalRef)
    (signal : Signal Slot) : p (session.setSignal ref signal).desk := by
  cases ref with
  | plain => exact hp
  | click item => exact h session.desk item signal hp

theorem start (h : SlotFree p) {session : Session} {action : Action}
    (hp : p (session.perform action).session.desk) :
    p (Run.start session action).2.session.desk := by
  rw [Run.start]
  cases heffect : session.perform action with
  | done => rwa [heffect] at hp
  | emission =>
      rw [heffect] at hp
      exact h.setSignal hp _ _

theorem advance (h : SlotFree p) {run : Run} (hp : p run.session.desk) (ref : SignalRef)
    (value : Int) (emission : Emission Slot) : p (run.advance ref value emission).session.desk := by
  unfold Run.advance
  split
  · exact h.setSignal hp ref _
  · simp only
    split
    · exact hp
    · rw [Run.call, Desk.Invariant.spend_desk]
      exact hp

/-- Nothing but what slots do matters to such a property. -/
theorem next (h : SlotFree p) {run run' : Run} (hnext : run.next? = some run')
    (hp : p run.session.desk)
    (hperform : ∀ tag action acts below, run.stack = .body tag (action :: acts) :: below →
      p (run.session.perform action).session.desk) : p run'.session.desk := by
  obtain ⟨session, stack, events⟩ := run
  cases stack with
  | nil => cases hnext
  | cons frame below =>
      cases frame with
      | body tag acts =>
          cases acts with
          | nil =>
              obtain rfl := Option.some.inj hnext
              exact hp
          | cons action acts =>
              obtain rfl := Option.some.inj hnext
              rw [Run.act_session]
              exact h.start (hperform tag action acts below rfl)
      | awaiting =>
          obtain rfl := Option.some.inj hnext
          exact hp
      | emission ref value emission =>
          obtain rfl := Option.some.inj hnext
          have hrest : p (Run.mk session below events).session.desk := hp
          exact h.advance hrest ref value emission

end Desk.SlotFree

namespace Run

variable {permits : Session → Action → Prop} {base : List Frame} {start point : Run}

/-- What permitted actions leave true is true throughout. -/
theorem Stretch.throughout {p : Desk Slot → Prop} (hslots : Desk.SlotFree p)
    (hperform : ∀ session action, permits session action → p session.desk →
      p (session.perform action).session.desk)
    (h : Stretch permits base start point) (hstart : p start.session.desk) :
    start.Throughout point p := by
  induction h with
  | here => exact ⟨hstart, [], by simp, by simp⟩
  | next _ _ hnext hpermits ih =>
      refine ih.continues (continues_next hnext) (hslots.next hnext ih.1 ?_)
      intro tag action acts below hstack
      exact hperform _ action (hpermits tag action acts below hstack) ih.1
  | revise _ _ _ _ ih => exact ih

/-! ## Stacks -/

theorem stack_act (run : Run) (tag : String) (action : Action) :
    ((run.act tag action).stack = run.stack ∧ ∃ events, (run.act tag action).events =
        events ++ [.did tag action (run.session.perform action).answer]) ∨
      ∃ frame, (run.act tag action).stack =
        frame :: .awaiting tag action (run.session.perform action).answer :: run.stack := by
  simp only [act]
  cases run.session.perform action with
  | done answer events session => exact .inl ⟨rfl, run.events ++ events, rfl⟩
  | emission ref value answer session => exact .inr ⟨_, rfl⟩

/-- A step takes the top of the stack away and may put something in its place. -/
theorem stack_next {run run' : Run} {frame : Frame} {rest : List Frame}
    (hstack : run.stack = frame :: rest) (hnext : run.next? = some run') :
    ∃ top, run'.stack = top ++ rest := by
  obtain ⟨session, stack, events⟩ := run
  obtain rfl : stack = frame :: rest := hstack
  cases frame with
  | body tag acts =>
      cases acts with
      | nil =>
          obtain rfl := Option.some.inj hnext
          exact ⟨[], rfl⟩
      | cons action acts =>
          obtain rfl := Option.some.inj hnext
          rcases stack_act ⟨session, .body tag acts :: rest, events⟩ tag action with
            ⟨hstack, -⟩ | ⟨frame, hstack⟩
          · exact ⟨[.body tag acts], hstack⟩
          · exact ⟨[frame, _, .body tag acts], hstack⟩
  | awaiting =>
      obtain rfl := Option.some.inj hnext
      exact ⟨[], rfl⟩
  | emission ref value emission =>
      obtain rfl := Option.some.inj hnext
      rw [advance]
      split
      · exact ⟨[], rfl⟩
      · simp only
        split
        · exact ⟨[_], rfl⟩
        · exact ⟨[_, _], rfl⟩

/-- An action of a slot has been done, or it waits for its answer somewhere on the stack. -/
theorem Stretch.did_or_waits {run : Run} {tag : String} {action : Action} {acts : List Action}
    {below : List Frame}
    (h : Stretch permits (.body tag acts :: below)
      (act { run with stack := .body tag acts :: below } tag action) point) :
    (point.stack = .body tag acts :: below ∧ ∃ events,
        point.events = events ++ [.did tag action (run.session.perform action).answer]) ∨
      ∃ top, point.stack = top ++
        .awaiting tag action (run.session.perform action).answer :: .body tag acts :: below := by
  induction h with
  | here =>
      rcases stack_act { run with stack := .body tag acts :: below } tag action with
        hdone | ⟨frame, hstack⟩
      · exact .inl hdone
      · exact .inr ⟨[frame], hstack⟩
  | next _ hbusy hnext _ ih =>
      rcases ih with ⟨hstack, -⟩ | ⟨top, hstack⟩
      · rw [hstack] at hbusy
        exact absurd hbusy (Nat.lt_irrefl _)
      · cases top with
        | nil =>
            rw [next?, hstack] at hnext
            obtain rfl := Option.some.inj hnext
            exact .inl ⟨rfl, _, rfl⟩
        | cons frame top =>
            obtain ⟨top', hstack'⟩ := stack_next hstack hnext
            exact .inr ⟨top' ++ top, hstack'.trans (List.append_assoc top' top _).symm⟩
  | revise _ hbusy hbody acts' ih =>
      rcases ih with ⟨hstack, -⟩ | ⟨top, hstack⟩
      · rw [hstack] at hbusy
        exact absurd hbusy (Nat.lt_irrefl _)
      · rw [hbody] at hstack
        cases top with
        | nil => cases hstack
        | cons frame top =>
            obtain ⟨-, rfl⟩ := List.cons.inj hstack
            exact .inr ⟨.body _ acts' :: top, rfl⟩

/-- When an action of a slot has returned, the slot has the answer that was settled at its first
step. -/
theorem Stretch.did {run : Run} {tag : String} {action : Action} {acts : List Action}
    {below : List Frame}
    (h : Stretch permits (.body tag acts :: below)
      (act { run with stack := .body tag acts :: below } tag action) point)
    (hreturned : point.stack = .body tag acts :: below) :
    ∃ events, point.events = events ++ [.did tag action (run.session.perform action).answer] := by
  rcases h.did_or_waits with ⟨-, hdid⟩ | ⟨top, hstack⟩
  · exact hdid
  · have hlength := congrArg List.length (hstack.symm.trans hreturned)
    simp only [List.length_append, List.length_cons] at hlength
    omega

end Run

/-! ## Actions from their first steps to their returns -/

namespace Run

variable {run after point : Run} {action : Action} {base : List Frame}

theorem start_fst (session : Session) (action : Action) :
    (start session action).1 = (session.perform action).answer := by
  rw [start]
  cases session.perform action <;> rfl

theorem Asks.session_eq (h : run.Asks action base after) :
    after.session = (start run.session action).2.session := by
  cases h with
  | slot => exact act_session _ _ action
  | outside => rfl

theorem Asks.events (h : run.Asks action base after) :
    ∃ events, after.events = run.events ++ events ∧
      ∀ ref id slot value desk, .called ref id slot value desk ∉ events := by
  cases h with
  | slot => exact events_act _ _ action
  | outside => exact events_enter run action

/-- What is true throughout since the first step of an action is so since the action was to come. -/
theorem Asks.throughout (h : run.Asks action base after) {p : Desk Slot → Prop}
    (hp : after.Throughout point p) : run.Throughout point p := by
  obtain ⟨hnow, events, hevents, hcalls⟩ := hp
  obtain ⟨first, hfirst, hnone⟩ := h.events
  refine ⟨hnow, first ++ events, by rw [hevents, hfirst, List.append_assoc], ?_⟩
  intro ref id slot value desk hm
  rcases List.mem_append.mp hm with hm | hm
  · exact absurd hm (hnone ref id slot value desk)
  · exact hcalls ref id slot value desk hm

/-- An action that is done at once has returned after its first step. -/
theorem Asks.stack_eq_of_done (h : run.Asks action base after) {answer : Answer}
    {events : List Event} {session : Session}
    (hdone : run.session.perform action = .done answer events session) : after.stack = base := by
  cases h with
  | slot => simp only [act, hdone]
  | outside => simp only [enter, start, hdone]

theorem Asks.filterMap_call? (h : run.Asks action base after) :
    after.events.filterMap Event.call? = run.events.filterMap Event.call? := by
  obtain ⟨events, hevents, hnone⟩ := h.events
  have hcalls : events.filterMap Event.call? = [] := by
    apply List.filterMap_eq_nil_iff.mpr
    intro event hm
    cases event with
    | called ref id slot value desk => exact absurd hm (hnone ref id slot value desk)
    | peer | did => rfl
  rw [hevents, List.filterMap_append, hcalls, List.append_nil]

/-- What an action itself makes true is true until slots change it. -/
theorem Asks.throughout_of_perform (h : run.Asks action base after) {p : Desk Slot → Prop}
    {permits : Session → Action → Prop} (hslots : Desk.SlotFree p)
    (hp : p (run.session.perform action).session.desk)
    (hperform : ∀ session action, permits session action → p session.desk →
      p (session.perform action).session.desk)
    (hstretch : Stretch permits base after point) : run.Throughout point p := by
  have hafter : p after.session.desk := by
    rw [h.session_eq]
    exact hslots.start hp
  exact h.throughout (hstretch.throughout hslots hperform hafter)

/-- A slot that performs an action has the answer of its first step in the end. -/
theorem Asks.did (h : run.Asks action base after) {permits : Session → Action → Prop} {tag : String}
    {acts : List Action} {below : List Frame} (hbase : base = .body tag acts :: below)
    (hstretch : Stretch permits base after point) (hreturned : point.stack = base) :
    ∃ events, point.events = events ++ [.did tag action (start run.session action).1] := by
  rw [start_fst]
  cases h with
  | outside => cases hbase
  | slot =>
      cases hbase
      exact hstretch.did hreturned

/-- An action that only answers has returned after its first step. It changes nothing and calls no
slot. -/
theorem Asks.idle (h : run.Asks action base after) {answer : Answer}
    (hreply : run.session.perform action = run.session.reply answer) :
    after.stack = base ∧ after.session = run.session ∧
      after.events.filterMap Event.call? = run.events.filterMap Event.call? := by
  refine ⟨h.stack_eq_of_done hreply, ?_, h.filterMap_call?⟩
  rw [h.session_eq, start, hreply]
  rfl

/-! ## Clicks -/

variable {clicked : ItemId} {desk? : Option (Desk Slot)}

/-- A click answers whether it gets through. -/
theorem start_fst_of_clicked {session : Session}
    (h : session.perform action = session.clicked clicked desk?) :
    (start session action).1 = .flag desk?.isSome := by
  rw [start_fst, h]
  cases desk? <;> rfl

/-- A click that does not get through changes nothing and calls no slot. -/
theorem Asks.refused (h : run.Asks action base after)
    (hclicked : run.session.perform action = run.session.clicked clicked desk?)
    (hnone : desk?.isSome = false) :
    after.stack = base ∧ after.session = run.session ∧
      after.events.filterMap Event.call? = run.events.filterMap Event.call? := by
  rw [Option.isSome_eq_false_iff, Option.isNone_iff_eq_none] at hnone
  rw [hnone] at hclicked
  exact h.idle hclicked

end Run

end WidgetToolkit
