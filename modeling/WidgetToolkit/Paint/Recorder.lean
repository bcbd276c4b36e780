import WidgetToolkit.Paint.Call
import WidgetToolkit.Theme.Palette

/-!
# A recording painter

Keeps what is drawn, with absolute coordinates and with the colors of a palette. A restore without a
matching save is counted and otherwise ignored.
-/

namespace WidgetToolkit

inductive DrawCommand (K : Type) where
  | fill (rect : Rect K) (color : Color)
  | themed (part : ThemePart) (state : ControlState) (rect : Rect K) (style : PartStyle)
  | text (text : String) (rect : Rect K) (style : TextStyle)

/-- Where drawing goes: the origin, and the absolute rectangle it is restricted to. -/
structure PaintScope (K : Type) where
  origin : Offset K
  clip : Option (Rect K)

structure Recorder (K : Type) where
  palette : Palette
  scope : PaintScope K
  /-- The scopes that were saved, the last one first. -/
  saved : List (PaintScope K)
  commands : List (DrawCommand K)
  strayRestores : Nat

variable {K : Type} [Coord K]

namespace PaintScope

def initial : PaintScope K := ⟨.zero, none⟩

def absolute (scope : PaintScope K) (rect : Rect K) : Rect K := rect + scope.origin

def translate (scope : PaintScope K) (offset : Offset K) : PaintScope K :=
  { scope with origin := scope.origin + offset }

def restrict (scope : PaintScope K) (rect : Rect K) : PaintScope K :=
  let rect := scope.absolute rect
  { scope with
    clip := some (match scope.clip with
      | some clip => clip.intersect rect
      | none => rect) }

end PaintScope

namespace Recorder

def new (palette : Palette) : Recorder K where
  palette := palette
  scope := .initial
  saved := []
  commands := []
  strayRestores := 0

def record (recorder : Recorder K) (command : DrawCommand K) : Recorder K :=
  { recorder with commands := recorder.commands ++ [command] }

def apply (recorder : Recorder K) : PaintCall K → Recorder K
  | .save => { recorder with saved := recorder.scope :: recorder.saved }
  | .restore =>
    match recorder.saved with
    | scope :: saved => { recorder with scope := scope, saved := saved }
    | [] => { recorder with strayRestores := recorder.strayRestores + 1 }
  | .translate offset => { recorder with scope := recorder.scope.translate offset }
  | .clip rect => { recorder with scope := recorder.scope.restrict rect }
  | .fill rect color => recorder.record (.fill (recorder.scope.absolute rect) color)
  | .theme part state rect =>
    recorder.record
      (.themed part state (recorder.scope.absolute rect) (recorder.palette.partStyle part state))
  | .text text rect style => recorder.record (.text text (recorder.scope.absolute rect) style)

def run (recorder : Recorder K) (calls : List (PaintCall K)) : Recorder K :=
  calls.foldl apply recorder

/-- Forgets the commands. -/
def clear (recorder : Recorder K) : Recorder K := { recorder with commands := [] }

/-- The backgrounds drawn for a part. -/
def themed (recorder : Recorder K) (part : ThemePart) : List (ControlState × Rect K) :=
  recorder.commands.filterMap fun command =>
    match command with
    | .themed p state rect _ => if p = part then some (state, rect) else none
    | _ => none

def texts (recorder : Recorder K) : List (String × Rect K) :=
  recorder.commands.filterMap fun command =>
    match command with
    | .text text rect _ => some (text, rect)
    | _ => none

end Recorder

end WidgetToolkit
