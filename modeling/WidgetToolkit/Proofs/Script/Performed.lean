import WidgetToolkit.Proofs.Script.Stretch

/-! # What is performed in a run

Beside a run goes an account of the actions that are performed, at whatever depth, each with the
session that it finds. -/

namespace WidgetToolkit

namespace Run

variable {outset run run' after : Run} {action : Action} {base : List Frame}
  {performed : List (Session × Action)}

/-- The action that the next step performs. -/
def due? (run : Run) : Option Action :=
  match run.stack with
  | .body _ (action :: _) :: _ => some action
  | _ => none

/-- What a run comes to, with the actions that are performed on the way, each with the session that
it finds. As ever, a slot may go on with other actions. -/
inductive Performs (outset : Run) : Run → List (Session × Action) → Prop
  | here : Performs outset outset []
  | enter {run : Run} {performed : List (Session × Action)} (h : Performs outset run performed)
      (hstack : run.stack = []) (action : Action) :
      Performs outset (run.enter action) (performed ++ [(run.session, action)])
  | next {run run' : Run} {performed : List (Session × Action)} (h : Performs outset run performed)
      (hnext : run.next? = some run') :
      Performs outset run' (performed ++ run.due?.toList.map (run.session, ·))
  | revise {run : Run} {performed : List (Session × Action)} {tag : String} {acts : List Action}
      {below : List Frame} (h : Performs outset run performed)
      (hstack : run.stack = .body tag acts :: below) (acts' : List Action) :
      Performs outset { run with stack := .body tag acts' :: below } performed

theorem due?_eq_some_iff : run.due? = some action ↔
    ∃ tag acts below, run.stack = .body tag (action :: acts) :: below := by
  rw [due?]
  split <;> simp_all

theorem asks_of_due? (hdue : run.due? = some action) (hnext : run.next? = some run') :
    ∃ base, run.Asks action base run' := by
  obtain ⟨tag, acts, below, hstack⟩ := due?_eq_some_iff.mp hdue
  rw [next?, hstack] at hnext
  obtain rfl := Option.some.inj hnext
  exact ⟨_, .slot hstack⟩

theorem Performs.trans {point : Run} {further : List (Session × Action)}
    (h : outset.Performs run performed) (hfurther : run.Performs point further) :
    outset.Performs point (performed ++ further) := by
  induction hfurther with
  | here => simpa using h
  | enter _ hstack action ih =>
      rw [← List.append_assoc]
      exact ih.enter hstack action
  | next _ hnext ih =>
      rw [← List.append_assoc]
      exact ih.next hnext
  | revise _ hstack acts' ih => exact ih.revise hstack acts'

theorem Asks.performs (h : run.Asks action base after) :
    run.Performs after [(run.session, action)] := by
  cases h with
  | outside hstack => exact .enter .here hstack action
  | @slot tag acts below hstack =>
      have hdue : run.due? = some action := due?_eq_some_iff.mpr ⟨tag, acts, below, hstack⟩
      have hnext : run.next? =
          some (act { run with stack := .body tag acts :: below } tag action) := by
        rw [next?, hstack]
      simpa [hdue] using Performs.here.next hnext

/-- The runs of a session are the same ones, with an account of what is performed or of what happens
to the signals. -/
theorem exists_performs_iff {signals : Nat} {allowance : Option Nat} :
    (∃ performed, Performs ⟨.new signals allowance, [], []⟩ run performed) ↔
      ∃ log, Reaches signals allowance run log := by
  constructor
  · rintro ⟨performed, h⟩
    induction h with
    | here => exact ⟨[], .new⟩
    | enter _ hstack action ih =>
        obtain ⟨log, hreaches⟩ := ih
        exact ⟨_, hreaches.enter hstack action⟩
    | next _ hnext ih =>
        obtain ⟨log, hreaches⟩ := ih
        exact ⟨_, hreaches.next hnext⟩
    | revise _ hstack acts' ih =>
        obtain ⟨log, hreaches⟩ := ih
        exact ⟨log, hreaches.revise hstack acts'⟩
  · rintro ⟨log, h⟩
    induction h with
    | new => exact ⟨[], .here⟩
    | enter _ hstack action ih =>
        obtain ⟨performed, hperforms⟩ := ih
        exact ⟨_, hperforms.enter hstack action⟩
    | next _ hnext ih =>
        obtain ⟨performed, hperforms⟩ := ih
        exact ⟨_, hperforms.next hnext⟩
    | revise _ hstack acts' ih =>
        obtain ⟨performed, hperforms⟩ := ih
        exact ⟨performed, hperforms.revise hstack acts'⟩

end Run

end WidgetToolkit
