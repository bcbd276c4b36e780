import Mathlib.Data.List.Forall2
import WidgetToolkit.Paint.Recorder
import WidgetToolkit.Proofs.Geometry.Rect

/-! # What is drawn over a point

A command is drawn over a point if the point is inside its rectangle and inside the clip that is in
force when the command is issued. -/

namespace WidgetToolkit

variable {K : Type} [Coord K]

/-! ## Commands -/

/-- What a command draws, wherever it draws it. -/
inductive DrawLook where
  | fill (color : Color)
  | themed (part : ThemePart) (state : ControlState) (style : PartStyle)
  | text (text : String) (style : TextStyle)

namespace DrawCommand

def rect : DrawCommand K → Rect K
  | .fill rect _ => rect
  | .themed _ _ rect _ => rect
  | .text _ rect _ => rect

def look : DrawCommand K → DrawLook
  | .fill _ color => .fill color
  | .themed part state _ style => .themed part state style
  | .text words _ style => .text words style

end DrawCommand

/-- Whether drawing may touch a point. -/
def PaintScope.admits (scope : PaintScope K) (p : Point K) : Bool :=
  scope.clip.all (·.contains p)

namespace Recorder

/-- The command that a call issues, if it is one that draws. -/
def command? (recorder : Recorder K) : PaintCall K → Option (DrawCommand K)
  | .fill rect color => some (.fill (recorder.scope.absolute rect) color)
  | .theme part state rect =>
    some (.themed part state (recorder.scope.absolute rect) (recorder.palette.partStyle part state))
  | .text text rect style => some (.text text (recorder.scope.absolute rect) style)
  | _ => none

/-- The commands that calls issue, each with the scope in force. -/
def issued (recorder : Recorder K) : List (PaintCall K) → List (PaintScope K × DrawCommand K)
  | [] => []
  | call :: rest =>
    (recorder.command? call).toList.map (recorder.scope, ·) ++ (recorder.apply call).issued rest

/-- The commands that calls issue over a point. -/
def touching (recorder : Recorder K) (p : Point K) (calls : List (PaintCall K)) :
    List (DrawCommand K) :=
  let hits := (recorder.issued calls).filter fun (scope, command) =>
    command.rect.contains p && scope.admits p
  hits.map fun (_, command) => command

/-- What calls draw over a point, in the order in which they draw it. -/
def covering (recorder : Recorder K) (p : Point K) (calls : List (PaintCall K)) : List DrawLook :=
  let hits := (recorder.issued calls).filter fun (scope, command) =>
    command.rect.contains p && scope.admits p
  hits.map fun (_, command) => command.look

theorem covering_eq (recorder : Recorder K) (p : Point K) (calls : List (PaintCall K)) :
    recorder.covering p calls = (recorder.touching p calls).map DrawCommand.look := by
  rw [touching, List.map_map]
  rfl

theorem apply_commands (recorder : Recorder K) (call : PaintCall K) :
    (recorder.apply call).commands = recorder.commands ++ (recorder.command? call).toList := by
  cases call with
  | restore =>
      cases hsaved : recorder.saved <;> simp [apply, hsaved, command?]
  | _ => simp [apply, command?, record]

/-- What is issued is what is recorded. -/
theorem run_commands (recorder : Recorder K) (calls : List (PaintCall K)) :
    (recorder.run calls).commands =
      recorder.commands ++ (recorder.issued calls).map Prod.snd := by
  induction calls generalizing recorder with
  | nil => simp [run, issued]
  | cons call rest ih =>
      rw [run, List.foldl_cons, ← run, ih, apply_commands, issued, List.map_append, List.map_map]
      simp [Function.comp_def]

@[simp] theorem run_nil (recorder : Recorder K) : recorder.run [] = recorder := rfl

@[simp] theorem run_append (recorder : Recorder K) (calls further : List (PaintCall K)) :
    recorder.run (calls ++ further) = (recorder.run calls).run further :=
  List.foldl_append

@[simp] theorem apply_palette (recorder : Recorder K) (call : PaintCall K) :
    (recorder.apply call).palette = recorder.palette := by
  cases call with
  | restore => cases hsaved : recorder.saved <;> simp [apply, hsaved]
  | _ => rfl

/-- Two recorders that go on alike, whatever they have recorded. -/
structure Alike (recorder recorder' : Recorder K) : Prop where
  palette_eq : recorder'.palette = recorder.palette
  scope_eq : recorder'.scope = recorder.scope
  saved_eq : recorder'.saved = recorder.saved

theorem Alike.apply {recorder recorder' : Recorder K} (h : recorder.Alike recorder')
    (call : PaintCall K) : (recorder.apply call).Alike (recorder'.apply call) := by
  obtain ⟨hpalette, hscope, hsaved⟩ := h
  cases call with
  | restore =>
      simp only [Recorder.apply, hsaved]
      split <;> constructor <;> simp_all
  | _ => constructor <;> simp [Recorder.apply, record, hpalette, hscope, hsaved]

theorem Alike.issued {recorder recorder' : Recorder K} (h : recorder.Alike recorder')
    (calls : List (PaintCall K)) : recorder'.issued calls = recorder.issued calls := by
  induction calls generalizing recorder recorder' with
  | nil => rfl
  | cons call rest ih =>
      have hcommand : recorder'.command? call = recorder.command? call := by
        cases call <;> simp [command?, h.scope_eq, h.palette_eq]
      rw [Recorder.issued, Recorder.issued, hcommand, h.scope_eq, ih (h.apply call)]

theorem Alike.touching {recorder recorder' : Recorder K} (h : recorder.Alike recorder')
    (p : Point K) (calls : List (PaintCall K)) :
    recorder'.touching p calls = recorder.touching p calls := by
  rw [Recorder.touching, Recorder.touching, h.issued]

@[simp] theorem covering_nil (recorder : Recorder K) (p : Point K) : recorder.covering p [] = [] :=
  rfl

theorem touching_singleton {recorder : Recorder K} {call : PaintCall K} {command : DrawCommand K}
    (hcommand : recorder.command? call = some command) (p : Point K) :
    recorder.touching p [call] =
      if command.rect.contains p && recorder.scope.admits p then [command] else [] := by
  rw [touching, issued, hcommand, Option.toList_some, List.map_singleton, issued, List.append_nil]
  dsimp only
  rw [List.filter_cons, List.filter_nil]
  split <;> rfl

theorem covering_singleton {recorder : Recorder K} {call : PaintCall K} {command : DrawCommand K}
    (hcommand : recorder.command? call = some command) (p : Point K) :
    recorder.covering p [call] =
      if command.rect.contains p && recorder.scope.admits p then [command.look] else [] := by
  rw [covering_eq, touching_singleton hcommand]
  split <;> rfl

theorem issued_append (recorder : Recorder K) (calls further : List (PaintCall K)) :
    recorder.issued (calls ++ further) =
      recorder.issued calls ++ (recorder.run calls).issued further := by
  induction calls generalizing recorder with
  | nil => rfl
  | cons call rest ih =>
      rw [List.cons_append, issued, issued, ih, List.append_assoc]
      rfl

theorem touching_append (recorder : Recorder K) (p : Point K) (calls further : List (PaintCall K)) :
    recorder.touching p (calls ++ further) =
      recorder.touching p calls ++ (recorder.run calls).touching p further := by
  simp only [touching, issued_append, List.filter_append, List.map_append]

omit [Coord K] in
theorem Alike.refl (recorder : Recorder K) : recorder.Alike recorder := ⟨rfl, rfl, rfl⟩

omit [Coord K] in
theorem Alike.trans {a b c : Recorder K} (hab : a.Alike b) (hbc : b.Alike c) : a.Alike c :=
  ⟨hbc.palette_eq.trans hab.palette_eq, hbc.scope_eq.trans hab.scope_eq,
    hbc.saved_eq.trans hab.saved_eq⟩

/-- A recorder inside a scope of its own. -/
def enter (recorder : Recorder K) (offset : Offset K) (bounds : Rect K) : Recorder K :=
  recorder.run [.save, .translate offset, .clip bounds]

theorem touching_scoped (recorder : Recorder K) (p : Point K) (offset : Offset K) (bounds : Rect K)
    (calls : List (PaintCall K)) :
    recorder.touching p ([.save, .translate offset, .clip bounds] ++ calls ++ [.restore]) =
      (recorder.enter offset bounds).touching p calls := by
  have hlast : ∀ recorder : Recorder K, recorder.touching p [.restore] = [] := fun _ => rfl
  rw [touching_append, touching_append, hlast, List.append_nil]
  rfl

theorem covering_scoped (recorder : Recorder K) (p : Point K) (offset : Offset K) (bounds : Rect K)
    (calls : List (PaintCall K)) :
    recorder.covering p ([.save, .translate offset, .clip bounds] ++ calls ++ [.restore]) =
      (recorder.enter offset bounds).covering p calls := by
  rw [covering_eq, covering_eq, touching_scoped]

end Recorder

/-! ## WellNested calls -/

def PaintCall.draws : PaintCall K → Bool
  | .fill .. | .theme .. | .text .. => true
  | _ => false

theorem Recorder.exists_command (recorder : Recorder K) {call : PaintCall K} (h : call.draws) :
    ∃ command, recorder.command? call = some command := by
  cases call <;> first | exact ⟨_, rfl⟩ | cases h

/-- Calls that leave the scope as they find it, and draw in scopes within it. -/
inductive WellNested : List (PaintCall K) → Prop
  | nil : WellNested []
  | draw {call : PaintCall K} (hcall : call.draws) : WellNested [call]
  | append {calls further : List (PaintCall K)} (hcalls : WellNested calls)
      (hfurther : WellNested further) : WellNested (calls ++ further)
  | inside (offset : Offset K) (bounds : Rect K) {calls : List (PaintCall K)}
      (hcalls : WellNested calls) :
      WellNested ([.save, .translate offset, .clip bounds] ++ calls ++ [.restore])

namespace WellNested

omit [Coord K] in
theorem flatMap {α : Type} {items : List α} {calls : α → List (PaintCall K)}
    (h : ∀ item ∈ items, WellNested (calls item)) : WellNested (items.flatMap calls) := by
  induction items with
  | nil => exact .nil
  | cons item rest ih =>
      obtain ⟨hitem, hrest⟩ := List.forall_mem_cons.mp h
      rw [List.flatMap_cons]
      exact .append hitem (ih hrest)

theorem alike {calls : List (PaintCall K)} (h : WellNested calls) (recorder : Recorder K) :
    recorder.Alike (recorder.run calls) := by
  induction h generalizing recorder with
  | nil => exact .refl recorder
  | @draw call hcall => cases call <;> first | exact ⟨rfl, rfl, rfl⟩ | cases hcall
  | append hcalls hfurther ih ihfurther =>
      rw [Recorder.run_append]
      exact (ih recorder).trans (ihfurther _)
  | @inside offset bounds calls hcalls ih =>
      rw [Recorder.run_append, Recorder.run_append]
      change recorder.Alike (((recorder.enter offset bounds).run calls).apply .restore)
      obtain ⟨hpalette, hscope, hsaved⟩ := ih (recorder.enter offset bounds)
      have hsaved : ((recorder.enter offset bounds).run calls).saved =
          recorder.scope :: recorder.saved := hsaved
      constructor
      · rw [Recorder.apply_palette, hpalette]
        rfl
      · simp [Recorder.apply, hsaved]
      · simp [Recorder.apply, hsaved]

/-- What comes after nested calls does not notice them. -/
theorem touching_append {calls : List (PaintCall K)} (h : WellNested calls) (recorder : Recorder K)
    (p : Point K) (further : List (PaintCall K)) :
    recorder.touching p (calls ++ further) =
      recorder.touching p calls ++ recorder.touching p further := by
  rw [Recorder.touching_append, (h.alike recorder).touching]

theorem covering_append {calls : List (PaintCall K)} (h : WellNested calls) (recorder : Recorder K)
    (p : Point K) (further : List (PaintCall K)) :
    recorder.covering p (calls ++ further) =
      recorder.covering p calls ++ recorder.covering p further := by
  simp only [Recorder.covering_eq, h.touching_append, List.map_append]

theorem touching_flatMap_congr {α : Type} {items items' : List α}
    {calls calls' : α → List (PaintCall K)}
    (h : ∀ item, WellNested (calls item)) (h' : ∀ item, WellNested (calls' item))
    {recorder : Recorder K} {p : Point K}
    (hsame : List.Forall₂ (fun item item' =>
      recorder.touching p (calls' item') = recorder.touching p (calls item)) items items') :
    recorder.touching p (items'.flatMap calls') = recorder.touching p (items.flatMap calls) := by
  induction hsame with
  | nil => rfl
  | cons hitem _ ih =>
      rw [List.flatMap_cons, List.flatMap_cons, (h _).touching_append, (h' _).touching_append,
        hitem, ih]

theorem covering_flatMap_congr {α : Type} {items : List α} {calls calls' : α → List (PaintCall K)}
    (h : ∀ item, WellNested (calls item)) (h' : ∀ item, WellNested (calls' item))
    {recorder : Recorder K} {p : Point K}
    (hsame : ∀ item, recorder.covering p (calls item) = recorder.covering p (calls' item)) :
    recorder.covering p (items.flatMap calls) = recorder.covering p (items.flatMap calls') := by
  induction items with
  | nil => rfl
  | cons item rest ih =>
      rw [List.flatMap_cons, List.flatMap_cons, (h item).covering_append,
        (h' item).covering_append, hsame, ih]

end WellNested

/-! ## Exact numbers -/

theorem PaintScope.admits_restrict (scope : PaintScope Rat) (rect : Rect Rat) (p : Point Rat) :
    (scope.restrict rect).admits p = (scope.admits p && (scope.absolute rect).contains p) := by
  obtain ⟨origin, clip⟩ := scope
  cases clip with
  | none => simp [restrict, admits]
  | some clip => simp [restrict, admits, absolute, Rect.contains_intersect]

/-- Inside a scope of its own, drawing is restricted to the bounds of the scope, too. -/
theorem Recorder.admits_enter (recorder : Recorder Rat) (offset : Offset Rat) (bounds : Rect Rat)
    (p : Point Rat) :
    (recorder.enter offset bounds).scope.admits p =
      (recorder.scope.admits p &&
        ((recorder.enter offset bounds).scope.absolute bounds).contains p) :=
  (recorder.scope.translate offset).admits_restrict bounds p

/-- Outside the clip nothing is drawn. -/
theorem WellNested.touching_eq_nil {calls : List (PaintCall Rat)} (h : WellNested calls)
    {recorder : Recorder Rat} {p : Point Rat} (hout : recorder.scope.admits p = false) :
    recorder.touching p calls = [] := by
  induction h generalizing recorder with
  | nil => rfl
  | draw hcall =>
      obtain ⟨command, hcommand⟩ := recorder.exists_command hcall
      rw [Recorder.touching_singleton hcommand, hout, Bool.and_false]
      rfl
  | append hcalls hfurther ih ihfurther =>
      rw [hcalls.touching_append, ih hout, ihfurther hout, List.append_nil]
  | inside offset bounds hcalls ih =>
      rw [Recorder.touching_scoped]
      apply ih
      rw [Recorder.admits_enter, hout, Bool.false_and]

theorem WellNested.covering_eq_nil {calls : List (PaintCall Rat)} (h : WellNested calls)
    {recorder : Recorder Rat} {p : Point Rat} (hout : recorder.scope.admits p = false) :
    recorder.covering p calls = [] := by
  rw [Recorder.covering_eq, h.touching_eq_nil hout, List.map_nil]

end WidgetToolkit
