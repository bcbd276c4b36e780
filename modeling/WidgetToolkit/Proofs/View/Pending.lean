import WidgetToolkit.Proofs.Geometry.Hull
import WidgetToolkit.Proofs.View.Look

/-! # The region that waits to be repainted, through the history of a view

Every change of a view tells rectangles that are to be repainted. In exact numbers, what waits is the
smallest rectangle around those told since the last time that the region was taken. -/

namespace WidgetToolkit

/-- The rectangles of a step have their corners in order. -/
def CoreStep.Ordered : CoreStep Rat → Prop
  | .allocate rect | .invalidateRect rect => rect.Ordered
  | _ => True

instance : DecidablePred CoreStep.Ordered
  | .allocate rect | .invalidateRect rect => inferInstanceAs (Decidable rect.Ordered)
  | .setFont _ | .setColor _ | .setBackground _ | .setScale _ | .setState _ | .setEnabled _
  | .setVisible _ | .setFocusable _ | .setFocused _ | .setParent _ | .invalidate | .contains _
  | .takeDamage => .isTrue trivial

/-- In exact numbers, comparing rectangles tells whether they are equal. -/
theorem Rect.beq_eq_decide (r s : Rect Rat) : (r == s) = decide (r = s) := by
  have hsides : (r == s) = (r.x0 == s.x0 && (r.y0 == s.y0 && (r.x1 == s.x1 && r.y1 == s.y1))) := rfl
  rw [hsides, Bool.eq_iff_iff]
  cases r
  cases s
  simp

namespace ViewCore

/-! ## What a step asks for -/

/-- The rectangles that a step asks to repaint. -/
def marks (core : ViewCore Rat) : CoreStep Rat → List (Rect Rat)
  | .invalidateRect rect => [rect]
  | .setFont _ | .setColor _ | .setBackground _ | .setState _ | .setEnabled _ | .setVisible _
  | .invalidate => [core.rect]
  | .setFocused focused => if focused = core.focused then [] else [core.rect]
  | .allocate rect => if rect = core.rect then [] else [core.rect, rect]
  | .setScale _ | .setFocusable _ | .setParent _ | .contains _ | .takeDamage => []

/-- What is asked for and not yet taken, after a step. -/
def pendingAfter (core : ViewCore Rat) (pending : List (Rect Rat)) : CoreStep Rat → List (Rect Rat)
  | .takeDamage => []
  | step => pending ++ core.marks step

/-- What is asked for along a history, since the last time that the region was taken. -/
def pendingAlong (core : ViewCore Rat) (pending : List (Rect Rat)) :
    List (CoreStep Rat) → List (Rect Rat)
  | [] => pending
  | step :: steps => (core.step step).2.pendingAlong (core.pendingAfter pending step) steps

def run (core : ViewCore Rat) (steps : List (CoreStep Rat)) : ViewCore Rat :=
  steps.foldl (fun core step => (core.step step).2) core

/-- What waits is the hull of what was asked for. -/
structure Awaits (core : ViewCore Rat) (pending : List (Rect Rat)) : Prop where
  needsPaint_iff : core.needsPaint = true ↔ core.damage.isSome = true
  hull : ∀ damage, core.damage = some damage → damage.IsHull pending
  damage_eq_none_iff : core.damage = none ↔ ∀ rect ∈ pending, rect.isEmpty = true

variable {core core' : ViewCore Rat} {pending : List (Rect Rat)}

/-! ## One step -/

theorem awaits_nil (hpaint : core.needsPaint = false) (hdamage : core.damage = none) :
    core.Awaits [] := by
  refine ⟨by simp [hpaint, hdamage], fun damage h => ?_, by simp [hdamage]⟩
  rw [hdamage] at h
  contradiction

namespace Awaits

theorem congr (h : core.Awaits pending) (hpaint : core'.needsPaint = core.needsPaint)
    (hdamage : core'.damage = core.damage) : core'.Awaits pending := by
  constructor
  · rw [hpaint, hdamage]
    exact h.needsPaint_iff
  · rw [hdamage]
    exact h.hull
  · rw [hdamage]
    exact h.damage_eq_none_iff

theorem invalidateRect (h : core.Awaits pending) {rect : Rect Rat} (hrect : rect.Ordered) :
    (core.invalidateRect rect).Awaits (pending ++ [rect]) := by
  unfold ViewCore.invalidateRect
  split
  · rename_i hempty
    refine ⟨h.needsPaint_iff, fun damage hdamage => (h.hull damage hdamage).append_empty hempty, ?_⟩
    rw [h.damage_eq_none_iff]
    simp [or_imp, forall_and, hempty]
  · rename_i hempty
    have hnonempty : rect.isEmpty = false := Bool.eq_false_iff.mpr hempty
    refine ⟨by simp, fun damage hdamage => ?_, by simp [or_imp, forall_and, hnonempty]⟩
    cases hbefore : core.damage with
    | none =>
        rw [hbefore] at hdamage
        cases hdamage
        exact .single (h.damage_eq_none_iff.mp hbefore) hrect hnonempty
    | some before =>
        rw [hbefore] at hdamage
        cases hdamage
        exact (h.hull before hbefore).append hrect hnonempty

/-- A change of something else that asks to repaint the view. -/
theorem repaint (h : core.Awaits pending) (hordered : core.rect.Ordered)
    (hpaint : core'.needsPaint = core.needsPaint) (hdamage : core'.damage = core.damage)
    (hrect : core'.rect = core.rect) : core'.invalidate.Awaits (pending ++ [core.rect]) := by
  have hchanged : (core'.invalidateRect core'.rect).Awaits (pending ++ [core'.rect]) :=
    (h.congr hpaint hdamage).invalidateRect (hrect ▸ hordered)
  rw [hrect] at hchanged
  rw [ViewCore.invalidate, hrect]
  exact hchanged

theorem allocate (h : core.Awaits pending) (hold : core.rect.Ordered) {rect : Rect Rat}
    (hrect : rect.Ordered) :
    (core.allocate rect).2.Awaits (core.pendingAfter pending (.allocate rect)) := by
  simp only [ViewCore.allocate, pendingAfter, marks, Rect.beq_eq_decide, decide_eq_true_eq]
  split
  · rw [List.append_nil]
    exact h
  · have hmoved : ViewCore.Awaits { core.invalidateRect core.rect with rect := rect }
        (pending ++ [core.rect]) :=
      (h.invalidateRect hold).congr rfl rfl
    rw [List.append_cons]
    exact hmoved.invalidateRect hrect

theorem setFocused (h : core.Awaits pending) (hrect : core.rect.Ordered) (focused : Bool) :
    (core.setFocused focused).2.Awaits (core.pendingAfter pending (.setFocused focused)) := by
  simp only [ViewCore.setFocused, pendingAfter, marks, eq_comm]
  split
  · rw [List.append_nil]
    exact h
  · exact h.repaint hrect rfl rfl rfl

/-- A step leaves the hull of what it asked for besides. -/
theorem step (h : core.Awaits pending) (hrect : core.rect.Ordered) {step : CoreStep Rat}
    (hstep : step.Ordered) : (core.step step).2.Awaits (core.pendingAfter pending step) := by
  cases step with
  | allocate rect => exact h.allocate hrect hstep
  | invalidateRect rect => exact h.invalidateRect hstep
  | setFocused focused => exact h.setFocused hrect focused
  | setFont | setColor | setBackground | setState | setEnabled | setVisible | invalidate =>
      exact h.repaint hrect rfl rfl rfl
  | takeDamage => exact awaits_nil rfl rfl
  | setScale | setFocusable | setParent | contains =>
      simp only [pendingAfter, marks, List.append_nil]
      exact h.congr rfl rfl

end Awaits

theorem ordered_step (h : core.rect.Ordered) {step : CoreStep Rat} (hstep : step.Ordered) :
    (core.step step).2.rect.Ordered := by
  by_cases hkeeps : step.keepsLook
  · rw [(core.stays_step hkeeps).rect_eq]
    exact h
  · cases step with
    | allocate rect =>
        simp only [ViewCore.step, ViewCore.allocate]
        split
        · exact h
        · rw [(stays_invalidateRect _ rect).rect_eq]
          exact hstep
    | setFont font => simpa [ViewCore.step, (core.stays_setFont font).rect_eq] using h
    | setColor color => simpa [ViewCore.step, (core.stays_setColor color).rect_eq] using h
    | setVisible visible => simpa [ViewCore.step, (core.stays_setVisible visible).rect_eq] using h
    | setScale | setParent => exact h
    | _ => simp [CoreStep.keepsLook] at hkeeps

/-! ## A history -/

theorem Awaits.along (h : core.Awaits pending) (hrect : core.rect.Ordered)
    {steps : List (CoreStep Rat)} (hsteps : ∀ step ∈ steps, step.Ordered) :
    (core.run steps).Awaits (core.pendingAlong pending steps) := by
  induction steps generalizing core pending with
  | nil => exact h
  | cons step steps ih =>
      obtain ⟨hstep, hsteps⟩ := List.forall_mem_cons.mp hsteps
      exact ih (h.step hrect hstep) (ordered_step hrect hstep) hsteps

/-- Whatever is done to a new view, something is to be painted if a region waits, and the region is the
smallest rectangle around what was asked for since it was last taken. There is none if all of that is
empty. -/
theorem run_awaits {id : ViewId} {start : ViewCore Rat}
    (hstart : start = .new id ∨ ∃ settings, start = .ofSettings id settings)
    {steps : List (CoreStep Rat)} (hsteps : ∀ step ∈ steps, step.Ordered) :
    (start.run steps).Awaits (start.pendingAlong [] steps) := by
  rcases hstart with rfl | ⟨settings, rfl⟩
  · exact (awaits_nil rfl rfl).along ⟨le_rfl, le_rfl⟩ hsteps
  · exact (awaits_nil rfl rfl).along ⟨le_rfl, le_rfl⟩ hsteps

/-- An empty rectangle is asked for in between, and the view is moved last. -/
theorem run_awaits_moved :
    let start : ViewCore Rat := .new (.view 0)
    let steps : List (CoreStep Rat) := [.allocate ⟨0, 0, 10, 10⟩, .takeDamage,
      .invalidateRect ⟨2, 2, 4, 4⟩, .invalidateRect ⟨50, 5, 50, 9⟩, .allocate ⟨20, 0, 30, 10⟩]
    (∀ step ∈ steps, step.Ordered) ∧ (start.run steps).damage = some ⟨0, 0, 30, 10⟩ ∧
      Rect.IsHull ⟨0, 0, 30, 10⟩
        [⟨2, 2, 4, 4⟩, ⟨50, 5, 50, 9⟩, ⟨0, 0, 10, 10⟩, ⟨20, 0, 30, 10⟩] := by
  intro start steps
  have hordered : ∀ step ∈ steps, step.Ordered := by decide +kernel
  have hdamage : (start.run steps).damage = some ⟨0, 0, 30, 10⟩ := by decide +kernel
  have hpending : start.pendingAlong [] steps =
      [⟨2, 2, 4, 4⟩, ⟨50, 5, 50, 9⟩, ⟨0, 0, 10, 10⟩, ⟨20, 0, 30, 10⟩] := by decide +kernel
  have hawaits := run_awaits (.inl rfl : start = .new (.view 0) ∨ _) hordered
  rw [hpending] at hawaits
  exact ⟨hordered, hdamage, hawaits.hull _ hdamage⟩

end ViewCore

end WidgetToolkit
