/-!
# Results with notices

What an operation gives back, together with the notices it has sent to observers on its way, in their
order.
-/

namespace WidgetToolkit

structure Told (ν α : Type) where
  value : α
  notices : List ν

variable {ν α β : Type}

namespace Told

instance : Monad (Told ν) where
  pure a := ⟨a, []⟩
  bind told next := let further := next told.value; ⟨further.value, told.notices ++ further.notices⟩

def tell (notice : ν) : Told ν Unit := ⟨(), [notice]⟩

/-- Applies an operation to every element of a list in turn. -/
def each (operation : α → Told ν β) : List α → Told ν (List β)
  | [] => pure []
  | a :: rest => do return (← operation a) :: (← each operation rest)

/-- Applies an operation to one element of a list, if it is there. -/
def modifyNth (operation : α → Told ν α) : List α → Nat → Told ν (List α)
  | [], _ => pure []
  | a :: rest, 0 => do return (← operation a) :: rest
  | a :: rest, n + 1 => do return a :: (← modifyNth operation rest n)

end Told

end WidgetToolkit
