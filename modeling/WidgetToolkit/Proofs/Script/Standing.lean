import WidgetToolkit.Proofs.Script.Reach

/-! # The signals of a session and the emissions underway

Every signal knows the slots that its emissions underway hold, and every emission knows how many of
them lie outside it. -/

namespace WidgetToolkit

open Run (Underway)

/-- The slots that emissions of a signal hold, outermost first. -/
def heldBy (ref : SignalRef) : List Underway → List SlotId
  | [] => []
  | frame :: below => heldBy ref below ++ if frame.signal = ref then frame.emission.ids else []

/-- Whether there is an emission of a signal. -/
def emits (ref : SignalRef) (frames : List Underway) : Bool := frames.any (·.signal == ref)

/-- Every emission is one of a signal that is there, and knows what is outside it. -/
inductive Nested (session : Session) : List Underway → Prop
  | nil : Nested session []
  | cons {frame : Underway} {below : List Underway} (hsignal : session.Has frame.signal)
      (houter : frame.emission.outer = (heldBy frame.signal below).length)
      (hnested : frame.emission.nested = emits frame.signal below) (hbelow : Nested session below) :
      Nested session (frame :: below)

/-- The signals of a session are in order, given the emissions underway. -/
structure Standing (session : Session) (frames : List Underway) : Prop where
  sound : ∀ ref, (session.signal ref).Sound
  running : ∀ ref, (session.signal ref).running = heldBy ref frames
  emitting : ∀ ref, (session.signal ref).emitting = emits ref frames
  nested : Nested session frames

theorem heldBy_eq_nil {ref : SignalRef} {frames : List Underway} (h : emits ref frames = false) :
    heldBy ref frames = [] := by
  induction frames with
  | nil => rfl
  | cons frame below ih =>
      simp only [emits, List.any_cons, Bool.or_eq_false_iff, beq_eq_false_iff_ne, ne_eq] at h
      rw [heldBy, if_neg h.1, ih h.2]
      rfl

theorem mem_heldBy {ref : SignalRef} {frames : List Underway} {id : SlotId} :
    id ∈ heldBy ref frames ↔ ∃ frame ∈ frames, frame.signal = ref ∧ id ∈ frame.emission.ids := by
  induction frames with
  | nil => simp [heldBy]
  | cons frame below ih =>
      rw [heldBy, List.mem_append, ih]
      split
      · rename_i hsignal
        simp [hsignal, or_comm]
      · rename_i hsignal
        simp [hsignal]

theorem Nested.mono {session session' : Session} {frames : List Underway}
    (h : Nested session frames) (hhas : ∀ ref, session.Has ref → session'.Has ref) :
    Nested session' frames := by
  induction h with
  | nil => exact .nil
  | cons hsignal houter hnested _ ih => exact .cons (hhas _ hsignal) houter hnested ih

theorem signal_new (signals : Nat) (allowance : Option Nat) (ref : SignalRef) :
    (Session.new signals allowance).signal ref = .empty := by
  cases ref with
  | plain index =>
      simp only [Session.new, Session.signal, List.getElem?_replicate]
      split <;> rfl
  | click item => simp [Session.new, Session.signal, Desk.item?, Desk.empty]

theorem standing_new (signals : Nat) (allowance : Option Nat) :
    Standing (.new signals allowance) [] := by
  refine ⟨fun ref => ?_, fun ref => ?_, fun ref => ?_, .nil⟩
  · rw [signal_new]
    exact Signal.sound_empty
  · rw [signal_new]
    rfl
  · rw [signal_new]
    rfl

namespace Standing

variable {session session' : Session} {frames : List Underway}

theorem steady (h : Standing session frames) (hsession : session.Steady session') :
    Standing session' frames := by
  refine ⟨fun ref => ?_, fun ref => ?_, fun ref => ?_, h.nested.mono hsession.has⟩
  · rw [hsession.signal_eq]
    exact h.sound ref
  · rw [hsession.signal_eq]
    exact h.running ref
  · rw [hsession.signal_eq]
    exact h.emitting ref

/-- Only one signal changes, and what emissions hold is the same for the others. -/
theorem setSignal {frames' : List Underway} {ref : SignalRef} (href : session.Has ref)
    {signal : Signal Slot} (h : Standing session frames)
    (hnested : Nested session frames')
    (hheld : ∀ other, other ≠ ref → heldBy other frames' = heldBy other frames)
    (hemits : ∀ other, other ≠ ref → emits other frames' = emits other frames)
    (hsound : signal.Sound) (hrunning : signal.running = heldBy ref frames')
    (hemitting : signal.emitting = emits ref frames') :
    Standing (session.setSignal ref signal) frames' := by
  refine ⟨fun other => ?_, fun other => ?_, fun other => ?_, ?_⟩
  · by_cases hne : other = ref
    · rw [hne, session.signal_setSignal ref signal href]
      exact hsound
    · rw [session.signal_setSignal_of_ne signal hne]
      exact h.sound other
  · by_cases hne : other = ref
    · rw [hne, session.signal_setSignal ref signal href, hrunning]
    · rw [session.signal_setSignal_of_ne signal hne, hheld other hne, h.running other]
  · by_cases hne : other = ref
    · rw [hne, session.signal_setSignal ref signal href, hemitting]
    · rw [session.signal_setSignal_of_ne signal hne, hemits other hne, h.emitting other]
  · exact hnested.mono fun other hother => (session.has_setSignal ref other signal).mpr hother

/-- A signal changes, but not in what emissions hold of it. -/
theorem changeSlots {ref : SignalRef} (href : session.Has ref) {signal : Signal Slot}
    (h : Standing session frames) (hsound : signal.Sound)
    (hrunning : signal.running = (session.signal ref).running)
    (hemitting : signal.emitting = (session.signal ref).emitting) :
    Standing (session.setSignal ref signal) frames :=
  h.setSignal href h.nested (fun _ _ => rfl) (fun _ _ => rfl) hsound
    (hrunning.trans (h.running ref)) (hemitting.trans (h.emitting ref))

theorem begin {ref : SignalRef} (href : session.Has ref) (h : Standing session frames)
    (value : Int) :
    Standing (session.setSignal ref (session.signal ref).begin.2)
      (⟨ref, value, (session.signal ref).begin.1⟩ :: frames) := by
  have hrunning := h.running ref
  have hemitting := h.emitting ref
  refine h.setSignal href ?_ ?_ ?_ (h.sound ref).begin ?_ ?_
  · refine .cons href ?_ ?_ h.nested
    · simp [Signal.begin, hrunning]
    · simp [Signal.begin, hemitting]
  · intro other hne
    rw [heldBy, if_neg (fun heq => hne heq.symm), List.append_nil]
  · intro other hne
    simp [emits, Ne.symm hne]
  · simp [heldBy, Signal.begin, hrunning, Emission.ids]
  · simp [emits, Signal.begin]

/-- The emission on top is the innermost of its signal. -/
theorem innermost {frame : Underway} {below : List Underway}
    (h : Standing session (frame :: below)) :
    (session.signal frame.signal).Innermost frame.emission (heldBy frame.signal below) := by
  cases h.nested with
  | cons _ houter hnested _ =>
      refine ⟨?_, ?_, houter, fun houtermost => ?_⟩
      · rw [h.running, heldBy, if_pos rfl]
      · simp [h.emitting, emits]
      · exact heldBy_eq_nil (hnested ▸ houtermost)

theorem finish {frame : Underway} {below : List Underway}
    (h : Standing session (frame :: below)) :
    Standing (session.setSignal frame.signal
      ((session.signal frame.signal).finish frame.emission)) below := by
  have hinnermost := h.innermost
  cases h.nested with
  | cons hsignal houter hnested hbelow =>
      refine h.setSignal hsignal hbelow ?_ ?_ (hinnermost.sound_finish (h.sound _))
        hinnermost.finish_running (hinnermost.finish_emitting.trans hnested)
      · intro other hne
        rw [heldBy, if_neg (fun heq => hne heq.symm), List.append_nil]
      · intro other hne
        simp [emits, Ne.symm hne]

theorem nodup_ids {frame : Underway} {below : List Underway}
    (h : Standing session (frame :: below)) : frame.emission.ids.Nodup := by
  have hnodup := (h.sound frame.signal).nodup_ids
  rw [Signal.ids, h.innermost.running] at hnodup
  exact (List.nodup_append.mp (List.nodup_append.mp hnodup).1).2.1

theorem has {frame : Underway} {below : List Underway} (h : Standing session (frame :: below)) :
    session.Has frame.signal := by
  cases h.nested with
  | cons hsignal => exact hsignal

/-- Only the outermost emission of a signal forgets what was disconnected. -/
theorem removed_subset_finish {frame other : Underway} {below : List Underway}
    (h : Standing session (frame :: below)) (hother : other ∈ below) :
    (session.signal other.signal).removed ⊆
      ((session.setSignal frame.signal
        ((session.signal frame.signal).finish frame.emission)).signal other.signal).removed := by
  by_cases hne : other.signal = frame.signal
  · have hnested : frame.emission.nested = true := by
      cases h.nested with
      | cons _ _ hnested _ =>
          rw [hnested, emits, List.any_eq_true]
          exact ⟨other, hother, by simp [hne]⟩
    rw [hne, session.signal_setSignal _ _ h.has, Signal.finish_removed_of_nested hnested]
    exact List.Subset.refl _
  · rw [session.signal_setSignal_of_ne _ hne]
    exact List.Subset.refl _

/-- A slot has its turn. -/
theorem advance {frame frame' : Underway} {below : List Underway}
    (h : Standing session (frame :: below)) (hsignal : frame'.signal = frame.signal)
    (hids : frame'.emission.ids = frame.emission.ids)
    (houter : frame'.emission.outer = frame.emission.outer)
    (hnested : frame'.emission.nested = frame.emission.nested) :
    Standing session (frame' :: below) := by
  refine ⟨h.sound, fun ref => ?_, fun ref => ?_, ?_⟩
  · rw [h.running, heldBy, heldBy, hsignal, hids]
  · rw [h.emitting]
    simp [emits, hsignal]
  · cases h.nested with
    | cons hsignal' houter' hnested' hbelow =>
        refine .cons (hsignal ▸ hsignal') ?_ ?_ hbelow
        · rw [houter, houter', hsignal]
        · rw [hnested, hnested', hsignal]

end Standing

end WidgetToolkit
