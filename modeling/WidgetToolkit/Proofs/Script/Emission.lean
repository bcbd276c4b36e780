import WidgetToolkit.Proofs.Script.Tracked

/-! # Emissions call their targets in turn -/

namespace WidgetToolkit

open Run (Underway)

namespace Run

/-- Whether a slot is being called, or has an action that waits for its answer. -/
def Busy (stack : List Frame) : Prop :=
  match stack with
  | [] => False
  | .emission .. :: _ => False
  | _ :: _ => True

theorem call?_peer (notices : List (PeerNotice Slot)) :
    (notices.map Event.peer).filterMap Event.call? = [] := by
  simp [List.filterMap_map, List.filterMap_eq_nil_iff, Event.call?]

theorem tracked_perform {session : Session} {frames : List Underway} {log : List Deed}
    {effect : Effect} {deeds : List Deed} (h : Tracked session frames True log)
    (houtcome : session.Outcome frames.length effect deeds) :
    (∃ answer events session', effect = .done answer events session' ∧
      Tracked session' frames True (log ++ deeds) ∧ events.filterMap Event.call? = []) ∨
    ∃ ref value answer session', effect = .emission ref value answer session' ∧
      Tracked (session'.setSignal ref (session'.signal ref).begin.2)
        (⟨ref, value, (session'.signal ref).begin.1⟩ :: frames) False (log ++ deeds) := by
  cases houtcome with
  | @moved notices _ hdesk answer =>
      refine .inl ⟨_, _, _, rfl, ?_, call?_peer notices⟩
      rw [List.append_nil]
      exact h.steady (session.steady_of_moves hdesk)
  | @connected ref href slot tags =>
      have hsound := h.standing.sound ref
      refine .inl ⟨_, _, _, rfl, ?_, rfl⟩
      have hconnected : Tracked (session.setSignal ref ((session.signal ref).connect slot).2) frames
          True (log ++ [.connected ref ((session.signal ref).connect slot).1]) := by
        refine h.change (· ++ [((session.signal ref).connect slot).1]) href (hsound.connect slot)
          rfl rfl (List.Subset.refl _) (fun _ => trivial) (fun _ _ _ heq => by cases heq) ?_
          (fun _ => rfl) (hsound.connected_connect slot)
        rintro other id ⟨⟩
        exact ⟨rfl, hsound.connect_not_mem slot⟩
      exact hconnected.steady ⟨fun _ h => h, fun _ => rfl⟩
  | @disconnected ref href id answer =>
      have hsound := h.standing.sound ref
      refine .inl ⟨_, _, _, rfl, ?_, rfl⟩
      exact h.change (·.filter (· != id)) href (hsound.disconnect id)
        (Signal.disconnect_running _ id) (Signal.disconnect_emitting _ id)
        (Signal.removed_subset_disconnect _ id) (fun _ => trivial)
        (fun _ _ _ heq => by cases heq) (fun _ _ heq => by cases heq) (fun _ => rfl)
        (hsound.connected_disconnect id)
  | @cleared ref href answer =>
      have hsound := h.standing.sound ref
      refine .inl ⟨_, _, _, rfl, ?_, rfl⟩
      exact h.change (fun _ => []) href hsound.disconnectAll (Signal.disconnectAll_running _)
        (Signal.disconnectAll_emitting _) (Signal.removed_subset_disconnectAll _)
        (fun _ => trivial) (fun _ _ _ heq => by cases heq) (fun _ _ heq => by cases heq)
        (fun _ => rfl) hsound.connected_disconnectAll
  | emission href value answer hdesk =>
      have hsession := session.steady_of_moves hdesk
      refine .inr ⟨_, _, _, _, rfl, ?_⟩
      exact (h.steady hsession).begin (hsession.has _ href) value

/-- The log gives account of the session and of the stack, and tells of every call. -/
structure Accounted (run : Run) (log : List Deed) : Prop where
  tracked : Tracked run.session (underway run.stack) (Busy run.stack) log
  calls : run.events.filterMap Event.call? = log.filterMap Deed.call?

theorem call?_deeds {session : Session} {depth : Nat} {effect : Effect} {deeds : List Deed}
    (h : session.Outcome depth effect deeds) : deeds.filterMap Deed.call? = [] := by
  cases h <;> rfl

theorem Accounted.act {session : Session} {stack : List Frame} {events : List Event}
    {log : List Deed} (h : Tracked session (underway stack) True log)
    (hcalls : events.filterMap Event.call? = log.filterMap Deed.call?) (slot : String)
    (action : Action) :
    Accounted (act ⟨session, stack, events⟩ slot action)
      (log ++ session.deeds (depth stack) action) := by
  have houtcome := session.perform_outcome (depth stack) action
  have hquiet := call?_deeds houtcome
  rcases tracked_perform h houtcome with
    ⟨answer, evs, session', heffect, htracked, hevents⟩ |
    ⟨ref, value, answer, session', heffect, htracked⟩
  · simp only [Run.act, heffect]
    refine ⟨htracked.mono fun _ => trivial, ?_⟩
    simp [hcalls, hquiet, hevents, List.filterMap_cons, Event.call?]
  · simp only [Run.act, heffect]
    refine ⟨htracked, ?_⟩
    simpa [emit, hquiet] using hcalls

theorem Accounted.enter {run : Run} {log : List Deed} (h : run.Accounted log)
    (hstack : run.stack = []) (action : Action) :
    (run.enter action).Accounted (log ++ run.session.deeds 0 action) := by
  have htracked := h.tracked
  rw [hstack] at htracked
  have houtcome := run.session.perform_outcome 0 action
  have hquiet := call?_deeds houtcome
  rcases tracked_perform htracked.idle houtcome with
    ⟨answer, evs, session', heffect, htracked, hevents⟩ |
    ⟨ref, value, answer, session', heffect, htracked⟩
  · simp only [Run.enter, start, heffect]
    refine ⟨htracked.mono fun _ => trivial, ?_⟩
    simp [h.calls, hquiet, hevents]
  · simp only [Run.enter, start, heffect]
    refine ⟨htracked, ?_⟩
    simpa [emit, hquiet] using h.calls

theorem Accounted.advance {session : Session} {ref : SignalRef} {value : Int}
    {emission : Emission Slot} {below : List Frame} {events : List Event} {log : List Deed}
    (h : Accounted ⟨session, .emission ref value emission :: below, events⟩ log) :
    Accounted (Run.advance ⟨session, below, events⟩ ref value emission)
      (log ++ deeds ⟨session, .emission ref value emission :: below, events⟩) := by
  have htracked : Tracked session (⟨ref, value, emission⟩ :: underway below) False log := h.tracked
  have hcalls : events.filterMap Event.call? = log.filterMap Deed.call? := h.calls
  cases hwaiting : emission.waiting with
  | nil =>
      simp only [Run.advance, Run.deeds, hwaiting]
      refine ⟨(htracked.finish hwaiting).mono fun _ => trivial, ?_⟩
      simpa [List.filterMap_cons, Deed.call?] using hcalls
  | cons next waiting =>
      obtain ⟨id, slot⟩ := next
      by_cases hid : id ∈ (session.signal ref).removed
      · simp only [Run.advance, Run.deeds, hwaiting, Signal.isRemoved_eq, hid, decide_true, if_true,
          List.append_nil]
        exact ⟨htracked.pass hwaiting hid, hcalls⟩
      · simp only [Run.advance, Run.deeds, hwaiting, Signal.isRemoved_eq, hid, decide_false,
          Bool.false_eq_true, if_false]
        refine ⟨?_, ?_⟩
        · exact (htracked.call hwaiting hid).steady session.steady_spend
        · simp [Run.call, hcalls, Event.call?, Deed.call?]

theorem Accounted.next {run run' : Run} {log : List Deed} (h : run.Accounted log)
    (hnext : run.next? = some run') : run'.Accounted (log ++ run.deeds) := by
  obtain ⟨session, stack, events⟩ := run
  cases stack with
  | nil => cases hnext
  | cons frame below =>
      cases frame with
      | body slot acts =>
          have htracked : Tracked session (underway below) True log := h.tracked
          cases acts with
          | nil =>
              obtain rfl := Option.some.inj hnext
              refine ⟨?_, ?_⟩
              · rw [show deeds _ = [] from rfl, List.append_nil]
                exact htracked.mono fun _ => trivial
              · simpa [deeds] using h.calls
          | cons action acts =>
              obtain rfl := Option.some.inj hnext
              have hbody : Tracked session (underway (.body slot acts :: below)) True log :=
                htracked
              exact Accounted.act hbody h.calls slot action
      | awaiting slot action answer =>
          have htracked : Tracked session (underway below) True log := h.tracked
          obtain rfl := Option.some.inj hnext
          refine ⟨?_, ?_⟩
          · rw [show deeds _ = [] from rfl, List.append_nil]
            exact htracked.mono fun _ => trivial
          · simpa [deeds, List.filterMap_cons, Event.call?] using h.calls
      | emission ref value emission =>
          obtain rfl := Option.some.inj hnext
          exact h.advance

theorem Reaches.accounted {signals : Nat} {allowance : Option Nat} {run : Run} {log : List Deed}
    (h : Reaches signals allowance run log) : run.Accounted log := by
  induction h with
  | new => exact ⟨(Tracked.new signals allowance).idle, rfl⟩
  | enter h hstack action ih => exact ih.enter hstack action
  | next h hnext ih => exact ih.next hnext
  | revise h hstack acts ih =>
      refine ⟨?_, ih.calls⟩
      have htracked := ih.tracked
      rw [hstack] at htracked
      exact htracked

/-- In a run that has come to its end, every emission has ended. Its targets were the slots that
were connected when it began and not held by an emission around it. Those still connected when their
turn came were called, each once and in the order of connection. What was connected meanwhile was not
called, and what was done to other signals made no difference. -/
theorem emission_turns {signals : Nat} {allowance : Option Nat} {run : Run} {log : List Deed}
    (h : Reaches signals allowance run log) (hstack : run.stack = []) {before later : List Deed}
    {depth : Nat} {ref : SignalRef} {value : Int}
    (hlog : log = before ++ .began depth ref value :: later) :
    run.events.filterMap Event.call? = log.filterMap Deed.call? ∧
      ((Account.after before).targets ref).Nodup ∧
      ∃ meanwhile further, later = meanwhile ++ .ended depth ref :: further ∧
        Turns depth ref value (Account.after (before ++ [.began depth ref value]))
          ((Account.after before).targets ref) meanwhile ∧
        Turns depth ref value (Account.after (before ++ [.began depth ref value]))
          ((Account.after before).targets ref) (meanwhile.filter (·.signal = ref)) ∧
        ∀ id, .connected ref id ∈ meanwhile →
          ∀ other value', .called depth other id value' ∉ meanwhile := by
  have haccounted := h.accounted
  have htracked := haccounted.tracked
  rw [hstack] at htracked
  let b : Beginning := ⟨before, depth, ref, value⟩
  rcases htracked.history b later hlog with ⟨above, frame, below, hframes, _⟩ | hended
  · simp [underway] at hframes
  · obtain ⟨meanwhile, further, hlater, hclosed⟩ := hended
    refine ⟨haccounted.calls, hclosed.nodup, meanwhile, further, hlater, hclosed.turns,
      hclosed.turns.restrict, fun id hconnected other value' hcalled => ?_⟩
    exact hclosed.fresh id hconnected (hclosed.turns.of_called hcalled).2.2

/-- The first of two slots disconnects both of them, so the second one is not called. -/
theorem emission_turns_clearing :
    ∃ run log before, Reaches 1 none run log ∧ run.stack = [] ∧
      log = before ++ .began 0 (.plain 0) 7 ::
        [.called 0 (.plain 0) ⟨0⟩ 7, .cleared (.plain 0), .ended 0 (.plain 0)] ∧
      run.events.filterMap Event.call? = [(.plain 0, ⟨0⟩, 7)] ∧
      (Account.after before).targets (.plain 0) = [⟨0⟩, ⟨1⟩] ∧
      Turns 0 (.plain 0) 7 (Account.after (before ++ [.began 0 (.plain 0) 7])) [⟨0⟩, ⟨1⟩]
        [.called 0 (.plain 0) ⟨0⟩ 7, .cleared (.plain 0)] := by
  have hnew : Reaches 1 none ⟨.new 1 none, [], []⟩ [] := .new
  have hfirst := hnew.enter rfl (.connect (.plain 0) "first" [.disconnectAll (.plain 0)] none)
  have hsecond := hfirst.enter rfl (.connect (.plain 0) "second" [] none)
  have hbegun := hsecond.enter rfl (.emit (.plain 0) 7)
  have hended := ((((hbegun.next rfl).next rfl).next rfl).next rfl).next rfl
  have hlog : _ = [.connected (.plain 0) ⟨0⟩, .connected (.plain 0) ⟨1⟩] ++
      Deed.began 0 (.plain 0) 7 ::
        [.called 0 (.plain 0) ⟨0⟩ 7, .cleared (.plain 0), .ended 0 (.plain 0)] := rfl
  obtain ⟨hcalls, -, meanwhile, further, hlater, hturns, -⟩ := emission_turns hended rfl hlog
  obtain rfl : meanwhile = [.called 0 (.plain 0) ⟨0⟩ 7, .cleared (.plain 0)] := by
    rcases meanwhile with _ | ⟨_, _ | ⟨_, _ | _⟩⟩ <;> simp_all
  exact ⟨_, _, _, hended, rfl, hlog, hcalls, rfl, hturns⟩

end Run

end WidgetToolkit
