import WidgetToolkit.Script.Session

/-!
# Runs

A run performs one action to its end. It keeps a stack: what the innermost slot has still to do, the
emission that called it, the action that waits for this emission, and so on outwards. A script performs
actions one after the other.
-/

namespace WidgetToolkit

inductive Frame where
  /-- The actions that a slot has still to perform. -/
  | body (slot : String) (acts : List Action)
  /-- An action of a slot that has its answer when the emission above it has ended. -/
  | awaiting (slot : String) (action : Action) (answer : Answer)
  | emission (signal : SignalRef) (value : Int) (emission : Emission Slot)

structure Run where
  session : Session
  /-- The innermost frame first. -/
  stack : List Frame
  events : List Event

namespace Run

/-- Begins an emission above the frames of a run. -/
def emit (run : Run) (ref : SignalRef) (value : Int) : Run :=
  let (emission, signal) := (run.session.signal ref).begin
  { run with
    session := run.session.setSignal ref signal
    stack := .emission ref value emission :: run.stack }

/-- Performs an action of a slot. -/
def act (run : Run) (slot : String) (action : Action) : Run :=
  match run.session.perform action with
  | .done answer events session =>
    { run with session := session, events := run.events ++ events ++ [.did slot action answer] }
  | .emission ref value answer session =>
    emit { run with session := session, stack := .awaiting slot action answer :: run.stack } ref value

/-- Calls a slot. -/
def call (run : Run) (ref : SignalRef) (value : Int) (id : SlotId) (slot : Slot) : Run :=
  let (allowed, session) := run.session.spend
  { session := session
    stack := .body slot.tag (if allowed then slot.body else []) :: run.stack
    events := run.events ++ [.called ref id slot value session.desk] }

/-- Continues an emission: calls the next slot unless it has been disconnected, or ends. -/
def advance (run : Run) (ref : SignalRef) (value : Int) (emission : Emission Slot) : Run :=
  match emission.waiting with
  | [] => { run with session := run.session.setSignal ref ((run.session.signal ref).finish emission) }
  | (id, slot) :: waiting =>
    let passed (slot : Slot) : Run :=
      let emission := { emission with past := emission.past ++ [(id, slot)], waiting := waiting }
      { run with stack := .emission ref value emission :: run.stack }
    if (run.session.signal ref).isRemoved id then passed slot
    else (passed slot.called).call ref value id slot

/-- One step. A run with nothing on its stack has ended. -/
def next? (run : Run) : Option Run :=
  match run.stack with
  | [] => none
  | .body _ [] :: stack => some { run with stack := stack }
  | .body slot (action :: acts) :: stack =>
    some (act { run with stack := .body slot acts :: stack } slot action)
  | .awaiting slot action answer :: stack =>
    some { run with stack := stack, events := run.events ++ [.did slot action answer] }
  | .emission ref value emission :: stack =>
    some (advance { run with stack := stack } ref value emission)

/-- Runs to the end, if that takes fewer than `steps` steps. -/
def finish? : Nat → Run → Option Run
  | 0, _ => none
  | steps + 1, run =>
    match run.next? with
    | none => some run
    | some next => finish? steps next

/-- An action at the bottom of a stack, with the answer that it will have. -/
def start (session : Session) (action : Action) : Answer × Run :=
  match session.perform action with
  | .done answer events session => (answer, ⟨session, [], events⟩)
  | .emission ref value answer session => (answer, emit ⟨session, [], []⟩ ref value)

end Run

/-- An action of a script with its answer, what happened meanwhile, and the session afterwards. -/
structure Turn where
  answer : Answer
  events : List Event
  session : Session

/-- Performs an action to its end, if that takes fewer than `steps` steps. -/
def Session.turn? (steps : Nat) (session : Session) (action : Action) : Option Turn :=
  let (answer, run) := Run.start session action
  (run.finish? steps).map fun run => ⟨answer, run.events, run.session⟩

namespace Script

/-- Performs actions in turn, up to one that takes more steps than allowed. -/
def turns (steps : Nat) : Session → List Action → List Turn
  | _, [] => []
  | session, action :: rest =>
    match session.turn? steps action with
    | none => []
    | some turn => turn :: turns steps turn.session rest

/-- More steps than any action of a script takes. With `n` actions in the script and an allowance of
`m` calls no more than `(m + 1) * n` actions are performed, so there are no more slots and emissions
than that, and an emission takes at most two steps for every slot. -/
def stepLimit (allowance : Nat) (script : List Action) : Nat :=
  let performed := (allowance + 1) * (Action.sizes script + 1)
  4 * performed * (performed + 2)

/-- Performs a script with so many signals and so many calls that run the actions of their slots. -/
def play (signals allowance : Nat) (script : List Action) : List Turn :=
  turns (stepLimit allowance script) (.new signals (some allowance)) script

end Script

end WidgetToolkit
