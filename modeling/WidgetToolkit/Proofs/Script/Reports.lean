import WidgetToolkit.Proofs.Script.Emission

/-! # Logs with answers

What has happened to the signals, with what the actions that did it have answered. Such a log is
lawful: slots are numbered anew, disconnecting tells whether the slot was connected, and only
connected slots are called. -/

namespace WidgetToolkit

open Run (Underway)

/-- A deed, and the answer of the action that did it. -/
structure Report where
  deed : Deed
  answer : Answer
deriving DecidableEq

namespace Effect

def answer : Effect → Answer
  | .done answer _ _ => answer
  | .emission _ _ answer _ => answer

def session : Effect → Session
  | .done _ _ session => session
  | .emission _ _ _ session => session

/-- What happens before any slot is called. -/
def events : Effect → List Event
  | .done _ events _ => events
  | .emission .. => []

end Effect

/-- What an action does to the signals when it is performed at a depth, and what it answers. -/
def Session.reports (session : Session) (depth : Nat) (action : Action) : List Report :=
  (session.deeds depth action).map (⟨·, (session.perform action).answer⟩)

namespace Run

/-- The answer of the action that the next step performs. -/
def answer (run : Run) : Answer :=
  match run.stack with
  | .body _ (action :: _) :: _ => (run.session.perform action).answer
  | _ => .nothing

/-- What the next step of a run does to the signals, and what it answers. -/
def reports (run : Run) : List Report := run.deeds.map (⟨·, run.answer⟩)

/-- The runs of a session, with what has happened to the signals and what was answered. -/
inductive Reported (signals : Nat) (allowance : Option Nat) : Run → List Report → Prop
  | new : Reported signals allowance ⟨.new signals allowance, [], []⟩ []
  | enter {run : Run} {reports : List Report} (h : Reported signals allowance run reports)
      (hstack : run.stack = []) (action : Action) :
      Reported signals allowance (run.enter action) (reports ++ run.session.reports 0 action)
  | next {run run' : Run} {reports : List Report} (h : Reported signals allowance run reports)
      (hnext : run.next? = some run') : Reported signals allowance run' (reports ++ run.reports)
  /-- A slot goes on with other actions. -/
  | revise {run : Run} {reports : List Report} {slot : String} {acts : List Action}
      {below : List Frame} (h : Reported signals allowance run reports)
      (hstack : run.stack = .body slot acts :: below) (acts' : List Action) :
      Reported signals allowance { run with stack := .body slot acts' :: below } reports

variable {signals : Nat} {allowance : Option Nat} {run : Run} {log : List Deed}
  {reports : List Report}

theorem Reported.reaches (h : Reported signals allowance run reports) :
    Reaches signals allowance run (reports.map (·.deed)) := by
  induction h with
  | new => exact .new
  | enter h hstack action ih =>
      simpa [Session.reports, Function.comp_def] using ih.enter hstack action
  | next h hnext ih => simpa [Run.reports, Function.comp_def] using ih.next hnext
  | revise h hstack acts ih => exact ih.revise hstack acts

/-- Every run has its reports. -/
theorem Reaches.reported (h : Reaches signals allowance run log) :
    ∃ reports, Reported signals allowance run reports ∧ reports.map (·.deed) = log := by
  induction h with
  | new => exact ⟨[], .new, rfl⟩
  | enter h hstack action ih =>
      obtain ⟨reports, hreported, rfl⟩ := ih
      refine ⟨_, hreported.enter hstack action, ?_⟩
      simp [Session.reports, Function.comp_def]
  | next h hnext ih =>
      obtain ⟨reports, hreported, rfl⟩ := ih
      refine ⟨_, hreported.next hnext, ?_⟩
      simp [Run.reports, Function.comp_def]
  | revise h hstack acts ih =>
      obtain ⟨reports, hreported, rfl⟩ := ih
      exact ⟨_, hreported.revise hstack acts, rfl⟩

end Run

/-! ## The law -/

/-- The slots of a signal that are connected after what has been reported. -/
def connectedAfter (reports : List Report) (ref : SignalRef) : List SlotId :=
  (Account.after (reports.map (·.deed))).connected ref

/-- What may be reported next: a slot gets a number that was not given before, disconnecting tells
whether the slot was connected, and a slot that is called is connected. -/
inductive Allows (reports : List Report) : Report → Prop
  | connected {ref : SignalRef} {id : SlotId}
      (hnew : ∀ answer, ⟨.connected ref id, answer⟩ ∉ reports) :
      Allows reports ⟨.connected ref id, .slot id⟩
  | disconnected {ref : SignalRef} {id : SlotId} {was : Bool}
      (hwas : was = true ↔ id ∈ connectedAfter reports ref) :
      Allows reports ⟨.disconnected ref id, .flag was⟩
  | cleared (ref : SignalRef) (answer : Answer) : Allows reports ⟨.cleared ref, answer⟩
  | began (depth : Nat) (ref : SignalRef) (value : Int) (answer : Answer) :
      Allows reports ⟨.began depth ref value, answer⟩
  | called (depth : Nat) {ref : SignalRef} {id : SlotId} (value : Int) (answer : Answer)
      (hid : id ∈ connectedAfter reports ref) : Allows reports ⟨.called depth ref id value, answer⟩
  | ended (depth : Nat) (ref : SignalRef) (answer : Answer) :
      Allows reports ⟨.ended depth ref, answer⟩

/-- Every report was allowed after those before it. -/
inductive Lawful : List Report → Prop
  | nil : Lawful []
  | append {reports : List Report} {report : Report} (h : Lawful reports)
      (hallowed : Allows reports report) : Lawful (reports ++ [report])

theorem Lawful.split {reports before since : List Report} {report : Report} (h : Lawful reports)
    (hsplit : reports = before ++ report :: since) : Lawful before ∧ Allows before report := by
  induction h generalizing since with
  | nil => simp at hsplit
  | append h hallowed ih =>
      rcases append_singleton_eq_append_cons_iff.mp hsplit with ⟨rest, -, hrest⟩ | ⟨-, rfl, rfl⟩
      · exact ih hrest
      · exact ⟨h, hallowed⟩

/-! ## Numbers of slots -/

/-- The numbers that were given to slots are not given again. -/
def Numbered (session : Session) (reports : List Report) : Prop :=
  ∀ ref id answer, ⟨.connected ref id, answer⟩ ∈ reports → id.number < (session.signal ref).nextId

/-- No number that one session has given is free in the other. -/
def Session.Grows (session session' : Session) : Prop :=
  ∀ ref, (session.signal ref).nextId ≤ (session'.signal ref).nextId

namespace Session

variable {session session' session'' : Session}

theorem Grows.trans (h : session.Grows session') (h' : session'.Grows session'') :
    session.Grows session'' := fun ref => Nat.le_trans (h ref) (h' ref)

theorem Steady.grows (h : session.Steady session') : session.Grows session' :=
  fun ref => Nat.le_of_eq (congrArg Signal.nextId (h.signal_eq ref).symm)

theorem grows_setSignal {ref : SignalRef} (href : session.Has ref) {signal : Signal Slot}
    (h : (session.signal ref).nextId ≤ signal.nextId) :
    session.Grows (session.setSignal ref signal) := by
  intro other
  by_cases hne : other = ref
  · rw [hne, session.signal_setSignal ref signal href]
    exact h
  · have hsame := session.signal_setSignal_of_ne signal hne
    exact Nat.le_of_eq (congrArg Signal.nextId hsame.symm)

theorem Outcome.grows {depth : Nat} {effect : Effect} {deeds : List Deed}
    (h : session.Outcome depth effect deeds) : session.Grows effect.session := by
  cases h with
  | moved hdesk answer => exact (session.steady_of_moves hdesk).grows
  | @connected ref href slot tags =>
      have hset : session.Grows (session.setSignal ref ((session.signal ref).connect slot).2) :=
        grows_setSignal href (Nat.le_succ _)
      exact hset.trans fun other => Nat.le_refl _
  | disconnected href id answer => exact grows_setSignal href (by simp)
  | cleared href answer => exact grows_setSignal href (by simp)
  | emission href value answer hdesk => exact (session.steady_of_moves hdesk).grows

/-- A new slot has the number that was free. -/
theorem Outcome.connected_lt {depth : Nat} {effect : Effect} {deeds : List Deed}
    (h : session.Outcome depth effect deeds) {ref : SignalRef} {id : SlotId}
    (hm : .connected ref id ∈ deeds) : id.number < (effect.session.signal ref).nextId := by
  cases h with
  | moved | disconnected | cleared | emission => simp at hm
  | @connected ref' href slot tags =>
      obtain ⟨rfl, rfl⟩ := Deed.connected.inj (List.mem_singleton.mp hm)
      have hsignal := session.signal_setSignal ref ((session.signal ref).connect slot).2 href
      change _ < ((session.setSignal ref ((session.signal ref).connect slot).2).signal ref).nextId
      rw [hsignal]
      exact Nat.lt_succ_self _

/-- Disconnecting tells what the signal tells. -/
theorem answer_of_disconnected_mem {depth : Nat} {action : Action} {ref : SignalRef} {id : SlotId}
    (hm : .disconnected ref id ∈ session.deeds depth action) :
    (session.perform action).answer = .flag ((session.signal ref).disconnect id).1 := by
  rw [deeds] at hm
  cases heffect : session.perform action with
  | emission => simp [heffect, Effect.deeds] at hm
  | done answer events session' =>
      rw [heffect, Effect.deeds] at hm
      cases action with
      | disconnect name tag =>
          simp only [changes, Option.mem_toList] at hm
          obtain ⟨ref', href, hm⟩ := Option.bind_eq_some_iff.mp hm
          obtain ⟨id', hid, hm⟩ := Option.map_eq_some_iff.mp hm
          obtain ⟨rfl, rfl⟩ := Deed.disconnected.inj hm
          rw [← heffect, perform, perform?]
          simp [href, hid, Effect.answer]
      | connect => cases answer <;> simp [changes] at hm
      | disconnectAll => simp [changes] at hm
      | _ => cases hm

end Session

/-! ## Reports are lawful -/

/-- The reports of a session are lawful, and numbers are not given twice. -/
structure Kept (session : Session) (reports : List Report) : Prop where
  lawful : Lawful reports
  numbered : Numbered session reports

namespace Kept

variable {session session' : Session} {reports : List Report}

theorem grow (h : Kept session reports) (hgrows : session.Grows session') :
    Kept session' reports :=
  ⟨h.lawful, fun ref id answer hm => Nat.lt_of_lt_of_le (h.numbered ref id answer hm) (hgrows ref)⟩

/-- Something is reported that is no new slot. -/
theorem append (h : Kept session reports) {report : Report}
    (hallowed : Allows reports report) (hdeed : ∀ ref id, report.deed ≠ .connected ref id) :
    Kept session (reports ++ [report]) := by
  refine ⟨h.lawful.append hallowed, fun ref id answer hm => ?_⟩
  rcases List.mem_append.mp hm with hm | hm
  · exact h.numbered ref id answer hm
  · rw [← List.mem_singleton.mp hm] at hdeed
    exact absurd rfl (hdeed ref id)

theorem perform {frames : List Underway} {busy : Prop}
    (htracked : Tracked session frames busy (reports.map (·.deed))) (h : Kept session reports)
    (depth : Nat) (action : Action) :
    Kept (session.perform action).session (reports ++ session.reports depth action) := by
  have houtcome := session.perform_outcome depth action
  have hanswer : ∀ ref id, .disconnected ref id ∈ session.deeds depth action →
      (session.perform action).answer = .flag ((session.signal ref).disconnect id).1 :=
    fun ref id => Session.answer_of_disconnected_mem
  have hgrown := h.grow houtcome.grows
  have hlt : ∀ ref id, .connected ref id ∈ session.deeds depth action →
      id.number < ((session.perform action).session.signal ref).nextId :=
    fun ref id => houtcome.connected_lt
  rw [Session.reports]
  generalize session.perform action = effect at houtcome hanswer hgrown hlt ⊢
  generalize session.deeds depth action = deeds at houtcome hanswer hlt ⊢
  cases houtcome with
  | moved hdesk answer => simpa using hgrown
  | @connected ref href slot tags =>
      have hnew : ∀ answer, ⟨.connected ref ((session.signal ref).connect slot).1, answer⟩ ∉
          reports := fun answer hm => Nat.lt_irrefl _ (h.numbered _ _ answer hm)
      refine ⟨h.lawful.append (.connected hnew), fun other id answer hm => ?_⟩
      rcases List.mem_append.mp hm with hm | hm
      · exact hgrown.numbered other id answer hm
      · obtain ⟨hdeed, -⟩ := Report.mk.inj (List.mem_singleton.mp hm)
        exact hlt other id (hdeed ▸ List.mem_singleton_self _)
  | disconnected href id answer =>
      rename_i ref
      have hwas : ((session.signal ref).disconnect id).1 = true ↔ id ∈ connectedAfter reports ref := by
        rw [(htracked.standing.sound ref).disconnect_fst, connectedAfter, htracked.connected]
      obtain rfl : answer = .flag ((session.signal ref).disconnect id).1 :=
        hanswer ref id (List.mem_singleton_self _)
      exact hgrown.append (.disconnected hwas) fun _ _ heq => by cases heq
  | cleared href answer => exact hgrown.append (.cleared _ answer) fun _ _ heq => by cases heq
  | emission href value answer hdesk =>
      exact hgrown.append (.began depth _ value answer) fun _ _ heq => by cases heq

end Kept

namespace Run

variable {signals : Nat} {allowance : Option Nat} {reports : List Report}

/-- The emission that an action comes to gives no numbers. -/
theorem grows_start (session : Session) (action : Action) :
    (session.perform action).session.Grows (start session action).2.session := by
  have houtcome := session.perform_outcome 0 action
  simp only [start]
  generalize session.perform action = effect at houtcome ⊢
  generalize session.deeds 0 action = deeds at houtcome
  cases houtcome with
  | moved | connected | disconnected | cleared => exact fun _ => Nat.le_refl _
  | emission href value answer hdesk =>
      exact Session.grows_setSignal ((session.steady_of_moves hdesk).has _ href) (Nat.le_refl _)

theorem act_session (run : Run) (slot : String) (action : Action) :
    (run.act slot action).session = (start run.session action).2.session := by
  simp only [act, start]
  split <;> rfl

theorem grows_advance (run : Run) {ref : SignalRef} {value : Int} {emission : Emission Slot}
    (href : run.session.Has ref) :
    run.session.Grows (run.advance ref value emission).session := by
  simp only [advance]
  split
  · exact Session.grows_setSignal href (by simp)
  · split
    · exact fun _ => Nat.le_refl _
    · exact run.session.steady_spend.grows

/-- An emission that comes to a slot that is still connected calls it, and passes over another. -/
theorem deeds_of_waiting {session : Session} {ref : SignalRef} {value : Int}
    {emission : Emission Slot} {below : List Frame} {events : List Event} {log : List Deed}
    (h : Accounted ⟨session, .emission ref value emission :: below, events⟩ log) {id : SlotId}
    {slot : Slot} {waiting : List (SlotId × Slot)} (hwaiting : emission.waiting = (id, slot) :: waiting) :
    deeds ⟨session, .emission ref value emission :: below, events⟩ =
      if id ∈ (Account.after log).connected ref then [.called (depth below) ref id value] else [] := by
  have hheld : id ∈ (session.signal ref).ids := by
    refine List.mem_append_left _ ?_
    rw [h.tracked.standing.running, mem_heldBy]
    exact ⟨⟨ref, value, emission⟩, List.mem_cons_self, rfl, by simp [Emission.ids, hwaiting]⟩
  have hconnected : id ∈ (Account.after log).connected ref ↔ id ∉ (session.signal ref).removed := by
    rw [h.tracked.connected, Signal.mem_connected]
    exact and_iff_right hheld
  by_cases hremoved : id ∈ (session.signal ref).removed
  · simp [deeds, hwaiting, hremoved, hconnected]
  · simp [deeds, hwaiting, hremoved, hconnected]

theorem kept_advance {session : Session} {ref : SignalRef} {value : Int}
    {emission : Emission Slot} {below : List Frame} {events : List Event}
    (haccounted : Accounted ⟨session, .emission ref value emission :: below, events⟩
      (reports.map (·.deed)))
    (h : Kept session reports) :
    Kept (advance ⟨session, below, events⟩ ref value emission).session
      (reports ++ Run.reports ⟨session, .emission ref value emission :: below, events⟩) := by
  have hgrows : session.Grows (advance ⟨session, below, events⟩ ref value emission).session :=
    grows_advance ⟨session, below, events⟩ haccounted.tracked.standing.has
  have hgrown := h.grow hgrows
  cases hwaiting : emission.waiting with
  | nil =>
      simp only [Run.reports, deeds, hwaiting]
      exact hgrown.append (.ended _ ref _) fun _ _ heq => by cases heq
  | cons next waiting =>
      obtain ⟨id, slot⟩ := next
      rw [Run.reports, deeds_of_waiting haccounted hwaiting]
      by_cases hid : id ∈ (Account.after (reports.map (·.deed))).connected ref
      · rw [if_pos hid]
        exact hgrown.append (.called _ value _ hid) fun _ _ heq => by cases heq
      · rw [if_neg hid]
        simpa using hgrown

theorem kept_next {run run' : Run} (haccounted : run.Accounted (reports.map (·.deed)))
    (h : Kept run.session reports) (hnext : run.next? = some run') :
    Kept run'.session (reports ++ run.reports) := by
  obtain ⟨session, stack, events⟩ := run
  cases stack with
  | nil => cases hnext
  | cons frame below =>
      cases frame with
      | body slot acts =>
          cases acts with
          | nil =>
              obtain rfl := Option.some.inj hnext
              simpa [Run.reports, deeds] using h
          | cons action acts =>
              obtain rfl := Option.some.inj hnext
              rw [act_session]
              exact (h.perform haccounted.tracked (depth below) action).grow
                (grows_start session action)
      | awaiting slot action answer =>
          obtain rfl := Option.some.inj hnext
          simpa [Run.reports, deeds] using h
      | emission ref value emission =>
          obtain rfl := Option.some.inj hnext
          exact kept_advance haccounted h

theorem Reported.kept {run : Run} (h : Reported signals allowance run reports) :
    Kept run.session reports := by
  induction h with
  | new => exact ⟨.nil, by simp [Numbered]⟩
  | @enter run reports h hstack action ih =>
      exact (ih.perform h.reaches.accounted.tracked 0 action).grow (grows_start run.session action)
  | next h hnext ih => exact kept_next h.reaches.accounted ih hnext
  | revise h hstack acts ih => exact ih

end Run

end WidgetToolkit
