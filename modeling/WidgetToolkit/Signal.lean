/-!
# Signals

A signal is an ordered list of slots. An emission takes the slots out of the signal and calls them in
the order of their connection; it gives them back when it ends. Slots may connect and disconnect slots
of the same signal, and emit it again, while they are called: new slots wait for the next emission, and
disconnected ones are not called any more and are dropped when the outermost emission ends.
-/

namespace WidgetToolkit

/-- The identity of a slot within its signal. -/
structure SlotId where
  number : Nat
deriving DecidableEq, Repr

def SlotId.describe (id : SlotId) : String := "SlotId(" ++ toString id.number ++ ")"

structure Signal (σ : Type) where
  nextId : Nat
  /-- The slots that no emission holds. -/
  slots : List (SlotId × σ)
  /-- The slots disconnected during the present emissions. -/
  removed : List SlotId
  /-- The slots held by the present emissions, outermost first. -/
  running : List SlotId
  emitting : Bool

/-- An emission in progress. -/
structure Emission (σ : Type) where
  /-- The slots that have had their turn. -/
  past : List (SlotId × σ)
  /-- The slots whose turn is to come. -/
  waiting : List (SlotId × σ)
  /-- The number of slots held by the emissions around it. -/
  outer : Nat
  /-- Whether it is within another emission. -/
  nested : Bool

variable {σ : Type}

namespace Signal

def empty : Signal σ where
  nextId := 0
  slots := []
  removed := []
  running := []
  emitting := false

instance : Inhabited (Signal σ) := ⟨empty⟩

def holds (signal : Signal σ) (id : SlotId) : Bool :=
  signal.slots.any (·.1 == id) || signal.running.contains id

def isRemoved (signal : Signal σ) (id : SlotId) : Bool := signal.removed.contains id

/-- Connects a slot behind the others. -/
def connect (signal : Signal σ) (slot : σ) : SlotId × Signal σ :=
  let id : SlotId := ⟨signal.nextId⟩
  (id, { signal with nextId := signal.nextId + 1, slots := signal.slots ++ [(id, slot)] })

/-- Disconnects a slot. Tells whether it was connected. -/
def disconnect (signal : Signal σ) (id : SlotId) : Bool × Signal σ :=
  if signal.nextId ≤ id.number ∨ signal.isRemoved id then (false, signal)
  else if signal.emitting then
    if signal.holds id then (true, { signal with removed := signal.removed ++ [id] })
    else (false, signal)
  else
    (signal.slots.any (·.1 == id), { signal with slots := signal.slots.filter (·.1 != id) })

def disconnectAll (signal : Signal σ) : Signal σ :=
  if signal.emitting then
    { signal with removed := signal.removed ++ (signal.slots.map (·.1) ++ signal.running) }
  else { signal with slots := [] }

/-- The number of slots that no emission holds and that are not disconnected. -/
def length (signal : Signal σ) : Nat :=
  (signal.slots.filter fun slot => !signal.isRemoved slot.1).length

def isEmpty (signal : Signal σ) : Bool := signal.length == 0

/-- The text for diagnostics. -/
def describe (signal : Signal σ) : String :=
  "Signal \x7b slots: " ++ toString signal.length ++ " \x7d"

/-! ## Emissions -/

/-- Begins an emission. -/
def begin (signal : Signal σ) : Emission σ × Signal σ :=
  ({ past := [], waiting := signal.slots, outer := signal.running.length, nested := signal.emitting },
    { signal with
      slots := []
      running := signal.running ++ signal.slots.map (·.1)
      emitting := true })

/-- Ends an emission: its slots go in front of those connected meanwhile. The outermost emission drops
the disconnected ones. -/
def finish (signal : Signal σ) (emission : Emission σ) : Signal σ :=
  let slots := emission.past ++ emission.waiting ++ signal.slots
  let running := signal.running.take emission.outer
  if emission.nested then { signal with slots := slots, running := running }
  else
    { signal with
      slots := slots.filter fun slot => !signal.isRemoved slot.1
      removed := []
      running := running
      emitting := false }

end Signal

end WidgetToolkit
