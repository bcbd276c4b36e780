import Mathlib.Data.Finset.Card
import Mathlib.Data.Set.Finite.Basic
import WidgetToolkit.Proofs.Script.Calling

/-! # Emissions end if slots do not connect slots

An emission within an emission of the same signal finds no slots to call. So emissions that call slots
can be nested only as deep as there are signals with slots. -/

namespace WidgetToolkit

open Run (underway)

/-! ## Slots that do not connect slots -/

def Action.connects : Action → Bool
  | .connect .. => true
  | _ => false

/-- A slot does a number of things when it is called, but connects no slot. -/
def Slot.NeverConnects (slot : Slot) : Prop := ∀ action ∈ slot.acts, action.connects = false

def Session.NeverConnects (session : Session) : Prop :=
  ∀ ref, ∀ entry ∈ (session.signal ref).slots, entry.2.NeverConnects

theorem Slot.NeverConnects.body {slot : Slot} (h : slot.NeverConnects) :
    ∀ action ∈ slot.body, action.connects = false := by
  unfold Slot.body
  split
  · exact h
  · simp

theorem Session.connected_not_mem_deeds {session : Session} {depth : Nat} {action : Action}
    (h : action.connects = false) (ref : SignalRef) (id : SlotId) :
    .connected ref id ∉ session.deeds depth action := by
  rw [deeds]
  cases session.perform action with
  | emission => simp [Effect.deeds]
  | done answer events session' =>
      rw [Effect.deeds]
      cases action with
      | connect => cases h
      | disconnect name tag =>
          intro hm
          obtain ⟨_, _, hm⟩ := Option.bind_eq_some_iff.mp (Option.mem_toList.mp hm)
          obtain ⟨_, _, hdeed⟩ := Option.map_eq_some_iff.mp hm
          cases hdeed
      | disconnectAll => simp [changes]
      | _ => exact List.not_mem_nil

/-- There are finitely many signals. -/
theorem Session.finite_has (session : Session) : {ref | session.Has ref}.Finite := by
  have hplain := (Set.finite_lt_nat session.signals.length).image SignalRef.plain
  have hclick := (Set.finite_lt_nat session.desk.items.length).image fun n => SignalRef.click ⟨n⟩
  refine (hplain.union hclick).subset fun ref href => ?_
  cases ref with
  | plain index => exact .inl ⟨index, href, rfl⟩
  | click item => exact .inr ⟨item.number, href, rfl⟩

theorem Session.neverConnects_iff {session : Session} :
    session.NeverConnects ↔
      (∀ signal ∈ session.signals, ∀ entry ∈ signal.slots, entry.2.NeverConnects) ∧
        ∀ item ∈ session.desk.items, ∀ entry ∈ item.clicked.slots, entry.2.NeverConnects := by
  constructor
  · intro h
    constructor
    · intro signal hsignal entry hm
      obtain ⟨index, hget⟩ := List.mem_iff_getElem?.mp hsignal
      apply h (.plain index) entry
      simpa [Session.signal, hget] using hm
    · intro item hitem entry hm
      obtain ⟨index, hget⟩ := List.mem_iff_getElem?.mp hitem
      apply h (.click ⟨index⟩) entry
      simpa [Session.signal, Desk.item?, hget] using hm
  · rintro ⟨hplain, hclick⟩ (index | item) entry hm
    · cases hget : session.signals[index]? with
      | none => simp [signal, hget, Signal.empty] at hm
      | some signal =>
          apply hplain signal (List.mem_of_getElem? hget) entry
          simpa [Session.signal, hget] using hm
    · cases hget : session.desk.items[item.number]? with
      | none => simp [signal, Desk.item?, hget, Signal.empty] at hm
      | some item =>
          apply hclick item (List.mem_of_getElem? hget) entry
          simpa [Session.signal, Desk.item?, hget] using hm

instance (slot : Slot) : Decidable slot.NeverConnects :=
  inferInstanceAs (Decidable (∀ action ∈ slot.acts, action.connects = false))

instance (session : Session) : Decidable session.NeverConnects :=
  decidable_of_iff _ session.neverConnects_iff.symm

theorem Session.has_of_mem_slots {session : Session} {ref : SignalRef} {entry : SlotId × Slot}
    (h : entry ∈ (session.signal ref).slots) : session.Has ref := by
  by_contra hnone
  cases ref with
  | plain index =>
      rw [signal, List.getElem?_eq_none (Nat.le_of_not_lt hnone)] at h
      cases h
  | click item =>
      rw [signal, Desk.item?, List.getElem?_eq_none (Nat.le_of_not_lt hnone)] at h
      cases h

/-! ## What a run keeps -/

/-- Only an outermost emission holds slots, and then it is one of these signals. -/
def Emission.Calm (refs : Finset SignalRef) (ref : SignalRef) (emission : Emission Slot) : Prop :=
  ∀ entry ∈ emission.past ++ emission.waiting,
    entry.2.NeverConnects ∧ ref ∈ refs ∧ emission.nested = false

/-- An emission after the turn of a slot. -/
def Emission.turned (emission : Emission Slot) (id : SlotId) (slot : Slot)
    (waiting : List (SlotId × Slot)) : Emission Slot :=
  { emission with past := emission.past ++ [(id, slot)], waiting := waiting }

def Frame.Calm (refs : Finset SignalRef) : Frame → Prop
  | .body _ acts => ∀ action ∈ acts, action.connects = false
  | .awaiting _ _ _ => True
  | .emission ref _ begun => begun.Calm refs ref

/-- No slot connects slots, and of these signals only those without emissions have slots. -/
structure Calm (refs : Finset SignalRef) (session : Session) (stack : List Frame) : Prop where
  standing : Standing session (underway stack)
  slots : ∀ ref, ∀ entry ∈ (session.signal ref).slots,
    entry.2.NeverConnects ∧ ref ∈ refs ∧ emits ref (underway stack) = false
  frames : ∀ frame ∈ stack, frame.Calm refs

namespace Calm

variable {refs : Finset SignalRef} {session session' : Session} {below : List Frame} {frame : Frame}
  {ref : SignalRef}

theorem steady (h : Calm refs session below) (hsession : session.Steady session') :
    Calm refs session' below := by
  refine ⟨h.standing.steady hsession, fun ref entry hm => ?_, h.frames⟩
  rw [hsession.signal_eq] at hm
  exact h.slots ref entry hm

/-- What a slot has to do, or waits for, comes on top of a stack or goes. -/
theorem push (h : Calm refs session below) (hframe : frame.Calm refs)
    (hunderway : underway (frame :: below) = underway below) : Calm refs session (frame :: below) := by
  refine ⟨hunderway ▸ h.standing, ?_, List.forall_mem_cons.mpr ⟨hframe, h.frames⟩⟩
  rw [hunderway]
  exact h.slots

theorem pop (h : Calm refs session (frame :: below))
    (hunderway : underway (frame :: below) = underway below) : Calm refs session below := by
  refine ⟨hunderway ▸ h.standing, ?_, (List.forall_mem_cons.mp h.frames).2⟩
  rw [← hunderway]
  exact h.slots

/-- A signal loses slots. -/
theorem lose (h : Calm refs session below) (href : session.Has ref) {signal : Signal Slot}
    (hsound : signal.Sound) (hrunning : signal.running = (session.signal ref).running)
    (hemitting : signal.emitting = (session.signal ref).emitting)
    (hslots : signal.slots ⊆ (session.signal ref).slots) :
    Calm refs (session.setSignal ref signal) below := by
  refine ⟨h.standing.changeSlots href hsound hrunning hemitting, fun other entry hm => ?_, h.frames⟩
  by_cases hne : other = ref
  · rw [hne, session.signal_setSignal ref signal href] at hm
    rw [hne]
    exact h.slots ref entry (hslots hm)
  · rw [session.signal_setSignal_of_ne signal hne] at hm
    exact h.slots other entry hm

theorem begin (h : Calm refs session below) (href : session.Has ref) (value : Int) :
    Calm refs (session.setSignal ref (session.signal ref).begin.2)
      (.emission ref value (session.signal ref).begin.1 :: below) := by
  refine ⟨h.standing.begin href value, fun other entry hm => ?_, ?_⟩
  · by_cases hne : other = ref
    · rw [hne, session.signal_setSignal ref _ href] at hm
      cases hm
    · rw [session.signal_setSignal_of_ne _ hne] at hm
      simpa [underway, emits, Ne.symm hne] using h.slots other entry hm
  · have hcalm : (session.signal ref).begin.1.Calm refs ref := by
      intro entry hm
      obtain ⟨hnever, hmem, hfree⟩ := h.slots ref entry hm
      exact ⟨hnever, hmem, (h.standing.emitting ref).trans hfree⟩
    exact List.forall_mem_cons.mpr ⟨hcalm, h.frames⟩

section

variable {value : Int} {emission : Emission Slot}

theorem outermost (h : Calm refs session (.emission ref value emission :: below))
    {entry : SlotId × Slot} (hm : entry ∈ emission.past ++ emission.waiting) :
    entry.2.NeverConnects ∧ ref ∈ refs ∧ emits ref (underway below) = false := by
  have hcalm : emission.Calm refs ref := h.frames _ List.mem_cons_self
  obtain ⟨hnever, hmem, hfirst⟩ := hcalm entry hm
  cases h.standing.nested with
  | cons hsignal houter hnested hbelow => exact ⟨hnever, hmem, hnested.symm.trans hfirst⟩

theorem finish (h : Calm refs session (.emission ref value emission :: below)) :
    Calm refs (session.setSignal ref ((session.signal ref).finish emission)) below := by
  have hhas : session.Has ref := h.standing.has
  refine ⟨h.standing.finish, fun other entry hm => ?_, (List.forall_mem_cons.mp h.frames).2⟩
  by_cases hne : other = ref
  · rw [hne, session.signal_setSignal ref _ hhas] at hm
    rw [hne]
    have hslots : entry ∈ emission.past ++ emission.waiting ++ (session.signal ref).slots := by
      unfold Signal.finish at hm
      split at hm
      · exact hm
      · exact List.mem_of_mem_filter hm
    rcases List.mem_append.mp hslots with hheld | hnew
    · exact h.outermost hheld
    · simpa [underway, emits] using (h.slots ref entry hnew).2.2
  · rw [session.signal_setSignal_of_ne _ hne] at hm
    simpa [underway, emits, Ne.symm hne] using h.slots other entry hm

/-- A slot has its turn. -/
theorem turn (h : Calm refs session (.emission ref value emission :: below)) {id : SlotId}
    {slot slot' : Slot} {waiting : List (SlotId × Slot)}
    (hwaiting : emission.waiting = (id, slot) :: waiting)
    (hslot : slot.NeverConnects → slot'.NeverConnects) :
    Calm refs session (.emission ref value (emission.turned id slot' waiting) :: below) := by
  have hcalm : emission.Calm refs ref := h.frames _ List.mem_cons_self
  have hturned : (emission.turned id slot' waiting).Calm refs ref := by
    intro entry hm
    have hcases : entry = (id, slot') ∨ entry ∈ emission.past ++ emission.waiting := by
      simp only [Emission.turned, List.mem_append, List.mem_singleton] at hm
      simp only [hwaiting, List.mem_append, List.mem_cons]
      tauto
    rcases hcases with rfl | hm
    · obtain ⟨hnever, hrest⟩ := hcalm (id, slot) (by simp [hwaiting])
      exact ⟨hslot hnever, hrest⟩
    · exact hcalm entry hm
  refine ⟨Tracked.standing_turned h.standing hwaiting, h.slots, ?_⟩
  exact List.forall_mem_cons.mpr ⟨hturned, (List.forall_mem_cons.mp h.frames).2⟩

end

/-- An action that connects no slot is done, or comes to an emission. -/
theorem perform (h : Calm refs session below) {action : Action} (haction : action.connects = false) :
    (∃ answer events session', session.perform action = .done answer events session' ∧
      Calm refs session' below) ∨
    ∃ ref value answer session', session.perform action = .emission ref value answer session' ∧
      Calm refs session' below ∧ session'.Has ref := by
  have houtcome := session.perform_outcome 0 action
  have hnone : ∀ ref id, .connected ref id ∉ session.deeds 0 action :=
    Session.connected_not_mem_deeds haction
  generalize session.perform action = effect at houtcome ⊢
  generalize session.deeds 0 action = deeds at houtcome hnone
  cases houtcome with
  | moved hdesk answer =>
      exact .inl ⟨answer, _, _, rfl, h.steady (session.steady_of_moves hdesk)⟩
  | connected => exact absurd (List.mem_singleton_self _) (hnone _ _)
  | @disconnected ref href id answer =>
      refine .inl ⟨answer, [], _, rfl, ?_⟩
      exact h.lose href ((h.standing.sound ref).disconnect id) (Signal.disconnect_running _ id)
        (Signal.disconnect_emitting _ id) (Signal.disconnect_slots_subset _ id)
  | @cleared ref href answer =>
      refine .inl ⟨answer, [], _, rfl, ?_⟩
      exact h.lose href (h.standing.sound ref).disconnectAll (Signal.disconnectAll_running _)
        (Signal.disconnectAll_emitting _) (Signal.disconnectAll_slots_subset _)
  | emission href value answer hdesk =>
      have hsession := session.steady_of_moves hdesk
      exact .inr ⟨_, value, answer, _, rfl, h.steady hsession, hsession.has _ href⟩

end Calm

namespace Run

/-- A step of a run. A slot that is called may do something else than it did on other calls, but
connects no slot. -/
inductive GoesOn : Run → Run → Prop
  | next {run run' : Run} (hnext : run.next? = some run') : GoesOn run run'
  | call {run : Run} {depth : Nat} {ref : SignalRef} {id : SlotId} {value : Int} {session : Session}
      {slot : String} {acts acts' : List Action} {below : List Frame} {events : List Event}
      (hcalled : .called depth ref id value ∈ run.deeds)
      (hnext : run.next? = some ⟨session, .body slot acts :: below, events⟩)
      (hacts : ∀ action ∈ acts', action.connects = false) :
      GoesOn run ⟨session, .body slot acts' :: below, events⟩

/-- A run cannot go on forever. -/
def Halts (run : Run) : Prop := Acc (fun later earlier => GoesOn earlier later) run

theorem halts_of_next {run run' : Run} (hnext : run.next? = some run')
    (hnone : ∀ depth ref id value, .called depth ref id value ∉ run.deeds) (h : run'.Halts) :
    run.Halts := by
  constructor
  intro later hstep
  cases hstep with
  | next hnext' =>
      rw [hnext, Option.some.injEq] at hnext'
      exact hnext' ▸ h
  | call hcalled => exact absurd hcalled (hnone _ _ _ _)

theorem halts_of_stack_eq_nil {run : Run} (h : run.stack = []) : run.Halts := by
  have hnone : run.next? = none := by rw [next?, h]
  constructor
  intro later hstep
  cases hstep with
  | next hnext | call _ hnext => simp [hnone] at hnext

theorem Halts.finish? {run : Run} (h : run.Halts) :
    ∃ steps run', run.finish? steps = some run' := by
  induction h with
  | intro run _ ih =>
      cases hnext : run.next? with
      | none => exact ⟨1, run, by simp [Run.finish?, hnext]⟩
      | some next =>
          obtain ⟨steps, run', hfinish⟩ := ih next (.next hnext)
          exact ⟨steps + 1, run', by simpa [Run.finish?, hnext] using hfinish⟩

/-! ## Stacks come down -/

/-- A run comes to an end from this stack on, whatever has become of the signals meanwhile. -/
def Ends (refs : Finset SignalRef) (stack : List Frame) : Prop :=
  ∀ session events, Calm refs session stack → Halts ⟨session, stack, events⟩

/-- The number of signals without emissions on a stack. -/
def spare (refs : Finset SignalRef) (stack : List Frame) : Nat :=
  (refs.filter fun ref => emits ref (underway stack) = false).card

variable {refs : Finset SignalRef} {below : List Frame}

theorem spare_lt {ref : SignalRef} (href : ref ∈ refs) (hfree : emits ref (underway below) = false)
    (value : Int) (emission : Emission Slot) :
    spare refs (.emission ref value emission :: below) < spare refs below := by
  have hsub : refs.filter (emits · (underway (.emission ref value emission :: below)) = false) ⊆
      refs.filter (emits · (underway below) = false) := by
    apply Finset.monotone_filter_right
    intro other _ hnone
    rw [underway, emits, List.any_cons, Bool.or_eq_false_iff] at hnone
    exact hnone.2
  apply Finset.card_lt_card
  apply (Finset.ssubset_iff_of_subset hsub).mpr
  exact ⟨ref, by simp [href, hfree], by simp [underway, emits]⟩

theorem ends_nil : Ends refs [] := fun _ _ _ => halts_of_stack_eq_nil rfl

theorem ends_awaiting (h : Ends refs below) (slot : String) (action : Action) (answer : Answer) :
    Ends refs (.awaiting slot action answer :: below) := by
  intro session events hcalm
  apply halts_of_next rfl
  · simp [deeds]
  · exact h session _ (hcalm.pop rfl)

theorem next?_of_connected {session : Session} {ref : SignalRef} {emission : Emission Slot}
    {id : SlotId} {slot : Slot} {waiting : List (SlotId × Slot)}
    (hwaiting : emission.waiting = (id, slot) :: waiting)
    (hkept : id ∉ (session.signal ref).removed) (value : Int) (below : List Frame)
    (events : List Event) :
    next? ⟨session, .emission ref value emission :: below, events⟩ =
      some ⟨session.spend.2,
        .body slot.tag (if session.spend.1 then slot.body else []) ::
          .emission ref value (emission.turned id slot.called waiting) :: below,
        events ++ [.called ref id slot value session.spend.2.desk]⟩ := by
  simp [next?, advance, hwaiting, hkept, call, Emission.turned]

/-- Slots come to their end if they are called with fewer signals to spare than so many. -/
def SlotsEnd (refs : Finset SignalRef) (bound : Nat) : Prop :=
  ∀ stack slot acts, spare refs stack < bound → Ends refs stack → Ends refs (.body slot acts :: stack)

/-- An emission calls its slots one after the other, each with one signal less to spare. -/
theorem ends_emission (h : Ends refs below) (hslots : SlotsEnd refs (spare refs below))
    (ref : SignalRef) (value : Int) (emission : Emission Slot) :
    Ends refs (.emission ref value emission :: below) := by
  induction hwaiting : emission.waiting generalizing emission with
  | nil =>
      intro session events hcalm
      apply halts_of_next rfl
      · simp [deeds, hwaiting]
      · simp only [advance, hwaiting]
        exact h _ events hcalm.finish
  | cons next waiting ih =>
      obtain ⟨id, slot⟩ := next
      intro session events hcalm
      by_cases hremoved : id ∈ (session.signal ref).removed
      · apply halts_of_next rfl
        · simp [deeds, hwaiting, hremoved]
        · simp only [advance, hwaiting, Signal.isRemoved_eq, hremoved, decide_true, if_true]
          exact ih (emission.turned id slot waiting) rfl session events (hcalm.turn hwaiting fun h => h)
      · have hturned : Calm refs session
            (.emission ref value (emission.turned id slot.called waiting) :: below) :=
          hcalm.turn hwaiting fun h => h
        have hmem : (id, slot) ∈ emission.past ++ emission.waiting := by simp [hwaiting]
        obtain ⟨hnever, href, hfree⟩ := hcalm.outermost hmem
        have hbody : ∀ acts events', (∀ action ∈ acts, action.connects = false) →
            Halts ⟨session.spend.2, .body slot.tag acts ::
              .emission ref value (emission.turned id slot.called waiting) :: below, events'⟩ := by
          intro acts events' hacts
          apply hslots _ slot.tag acts (spare_lt href hfree value _) (ih _ rfl)
          exact (hturned.steady session.steady_spend).push hacts rfl
        have hcalls := next?_of_connected hwaiting hremoved value below events
        constructor
        intro later hstep
        cases hstep with
        | next hnext =>
            rw [hcalls, Option.some.injEq] at hnext
            subst hnext
            apply hbody
            split
            · exact hnever.body
            · exact List.forall_mem_nil _
        | call _ hnext hacts =>
            rw [hcalls, Option.some.injEq] at hnext
            cases hnext
            exact hbody _ _ hacts

/-- A slot performs one action after the other. -/
theorem ends_act {slot : String} {acts : List Action} (h : Ends refs (.body slot acts :: below))
    (hslots : SlotsEnd refs (spare refs below)) (action : Action) :
    Ends refs (.body slot (action :: acts) :: below) := by
  intro session events hcalm
  obtain ⟨haction, hacts⟩ := List.forall_mem_cons.mp (hcalm.frames _ List.mem_cons_self)
  have hrest : Calm refs session (.body slot acts :: below) := (hcalm.pop rfl).push hacts rfl
  apply halts_of_next rfl
  · exact called_not_mem_deeds session (depth below) action
  rcases hrest.perform haction with
    ⟨answer, evs, session', heffect, hdone⟩ | ⟨ref, value, answer, session', heffect, hbegins, href⟩
  · simp only [act, heffect]
    exact h session' _ hdone
  · simp only [act, heffect]
    have hemission : Ends refs (.emission ref value (session'.signal ref).begin.1 ::
        .awaiting slot action answer :: .body slot acts :: below) :=
      ends_emission (ends_awaiting h slot action answer) hslots ref value _
    have hwaits : Calm refs session' (.awaiting slot action answer :: .body slot acts :: below) :=
      hbegins.push trivial rfl
    exact hemission _ events (hwaits.begin href value)

theorem ends_body (h : Ends refs below) (slot : String) (acts : List Action) :
    Ends refs (.body slot acts :: below) := by
  -- on the signals to spare, and within on the actions that are left
  induction hspare : spare refs below using Nat.strong_induction_on generalizing below slot acts with
  | _ n ih =>
    subst hspare
    have hslots : SlotsEnd refs (spare refs below) :=
      fun stack slot acts hlt hstack => ih _ hlt hstack slot acts rfl
    induction acts with
    | nil =>
        intro session events hcalm
        apply halts_of_next rfl
        · simp [deeds]
        · exact h session events (hcalm.pop rfl)
    | cons action acts ihacts => exact ends_act ihacts hslots action

/-! ## Actions from outside -/

theorem calm_of_neverConnects {session : Session} (hstanding : Standing session [])
    (h : session.NeverConnects) : Calm session.finite_has.toFinset session [] := by
  refine ⟨hstanding, fun ref entry hm => ⟨h ref entry hm, ?_, rfl⟩, by simp⟩
  exact (Set.Finite.mem_toFinset _).mpr (Session.has_of_mem_slots hm)

theorem halts_start {session : Session} (hstanding : Standing session [])
    (h : session.NeverConnects) (action : Action) (events : List Event) :
    Halts ⟨(start session action).2.session, (start session action).2.stack, events⟩ := by
  have hcalm := calm_of_neverConnects hstanding h
  have houtcome := session.perform_outcome 0 action
  simp only [start]
  generalize session.perform action = effect at houtcome ⊢
  generalize session.deeds 0 action = deeds at houtcome
  cases houtcome with
  | moved | connected | disconnected | cleared => exact halts_of_stack_eq_nil rfl
  | @emission ref href value answer desk hdesk =>
      have hsession := session.steady_of_moves hdesk
      apply ends_emission ends_nil fun stack slot acts _ hstack => ends_body hstack slot acts
      exact (hcalm.steady hsession).begin (hsession.has ref href) value

theorem exists_turn {session : Session} (hstanding : Standing session [])
    (h : session.NeverConnects) (action : Action) :
    ∃ steps turn, session.turn? steps action = some turn := by
  have hhalts := halts_start hstanding h action (start session action).2.events
  obtain ⟨steps, run, hfinish⟩ := hhalts.finish?
  have hstarted : (start session action).2.finish? steps = some run := hfinish
  exact ⟨steps, ⟨(start session action).1, run.events, run.session⟩, by
    simp [Session.turn?, hstarted]⟩

variable {signals : Nat} {allowance : Option Nat} {run : Run} {log : List Deed}

theorem Reaches.nodup_calling (h : Reaches signals allowance run log) :
    (calling run.stack).Nodup :=
  Run.nodup_calling h.accounted.tracked.standing.nodup_heldBy

/-- A slot that is called is not being called already. -/
theorem Reaches.not_calling (h : Reaches signals allowance run log) {depth : Nat} {ref : SignalRef}
    {id : SlotId} {value : Int} (hcalled : .called depth ref id value ∈ run.deeds) :
    (ref, id) ∉ calling run.stack ∧
      ∃ run', run.next? = some run' ∧ calling run'.stack = (ref, id) :: calling run.stack := by
  obtain ⟨run', hnext⟩ := exists_next_of_called hcalled
  have hafter := (h.next hnext).nodup_calling
  rcases calling_next hnext with ⟨_, _, _, _, hdeeds, hcalling⟩ | ⟨hnone, -⟩
  · obtain ⟨-, rfl, rfl, -⟩ := Deed.called.inj (List.mem_singleton.mp (hdeeds ▸ hcalled))
    rw [hcalling] at hafter
    exact ⟨(List.nodup_cons.mp hafter).1, run', hnext, hcalling⟩
  · exact absurd hcalled (hnone _ _ _ _)

/-- At every moment of a run, the calls that have not ended are of different slots: whatever slots
do, a slot that is called is not being called already, and it is being called until it has nothing
left to do. If no slot connects slots, then every action from outside comes to an end, emissions as
any other, also if slots do something else at every call. -/
theorem slots_are_not_reentered (h : Reaches signals allowance run log) :
    run.events.filterMap Event.call? = log.filterMap Deed.call? ∧
      (calling run.stack).Nodup ∧
      (∀ depth ref id value, .called depth ref id value ∈ run.deeds →
        (ref, id) ∉ calling run.stack ∧
          ∃ run', run.next? = some run' ∧ calling run'.stack = (ref, id) :: calling run.stack) ∧
      (∀ run', run.next? = some run' →
        calling run.stack <:+ calling run'.stack ∨
          ∃ slot below, run.stack = .body slot [] :: below ∧
            calling run.stack = (callee? below).toList ++ calling run'.stack) ∧
      (run.stack = [] → run.session.NeverConnects → ∀ action,
        (run.enter action).Halts ∧
          ∃ steps turn, run.session.turn? steps action = some turn) := by
  refine ⟨h.accounted.calls, h.nodup_calling, fun _ _ _ _ => h.not_calling, fun run' hnext => ?_,
    fun hstack hnever action => ?_⟩
  · rcases calling_next hnext with ⟨_, _, _, _, -, hcalling⟩ | ⟨-, hcalling | hended⟩
    · exact .inl (hcalling ▸ List.suffix_cons _ _)
    · exact .inl (hcalling ▸ List.suffix_refl _)
    · exact .inr hended
  · have hstanding := h.accounted.tracked.standing
    rw [hstack] at hstanding
    exact ⟨halts_start hstanding hnever action _, exists_turn hstanding hnever action⟩

/-- Two slots emit each other's signals. The second is called while the first is being called. -/
theorem slots_are_not_reentered_in_circle :
    ∃ run log within log', Reaches 2 none run log ∧ run.session.NeverConnects ∧
      (run.enter (.emit (.plain 0) 7)).Halts ∧
      (∃ steps turn, run.session.turn? steps (.emit (.plain 0) 7) = some turn) ∧
      Reaches 2 none within log' ∧ calling within.stack = [(.plain 0, ⟨0⟩)] ∧
      .called 1 (.plain 1) ⟨0⟩ 8 ∈ within.deeds ∧ (.plain 1, ⟨0⟩) ∉ calling within.stack := by
  have hnew : Reaches 2 none ⟨.new 2 none, [], []⟩ [] := .new
  have hthere := hnew.enter rfl (.connect (.plain 0) "there" [.emit (.plain 1) 8] none)
  have hback := hthere.enter rfl (.connect (.plain 1) "back" [.emit (.plain 0) 9] none)
  have hwithin := ((hback.enter rfl (.emit (.plain 0) 7)).next rfl).next rfl
  obtain ⟨-, -, -, -, hends⟩ := slots_are_not_reentered hback
  obtain ⟨hhalts, hturn⟩ := hends rfl (by decide) (.emit (.plain 0) 7)
  obtain ⟨-, -, hcalls, -⟩ := slots_are_not_reentered hwithin
  have hcalled := hcalls 1 (.plain 1) ⟨0⟩ 8 (List.mem_singleton_self _)
  exact ⟨_, _, _, _, hback, by decide, hhalts, hturn, hwithin, rfl, List.mem_singleton_self _,
    hcalled.1⟩

end Run

end WidgetToolkit
