import Mathlib.Data.Set.Card
import WidgetToolkit.Proofs.Script.Reports

/-! # Which slots are connected

A slot is connected from the moment it gets its number until it is disconnected or all are. This can
be read off what has been reported, wherever the slot is kept, and after that nothing comes of it. -/

namespace WidgetToolkit

open Run (Underway)

/-! ## In a log -/

/-- The number was given to a slot of the signal, and since then the slot has not been disconnected
and the signal has not been cleared. -/
def IsConnected (reports : List Report) (ref : SignalRef) (id : SlotId) : Prop :=
  ∃ before since, reports = before ++ ⟨.connected ref id, .slot id⟩ :: since ∧
    ⟨.disconnected ref id, .flag true⟩ ∉ since ∧ ∀ answer, ⟨.cleared ref, answer⟩ ∉ since

/-- The connection of a slot ends: the slot is disconnected, or it was connected once and all are. -/
def Cuts (before : List Report) (cut : Report) (ref : SignalRef) (id : SlotId) : Prop :=
  cut = ⟨.disconnected ref id, .flag true⟩ ∨
    cut.deed = .cleared ref ∧ ⟨.connected ref id, .slot id⟩ ∈ before

section

variable {reports : List Report} {ref : SignalRef} {id : SlotId}

theorem isConnected_append_singleton {report : Report} :
    IsConnected (reports ++ [report]) ref id ↔
      report = ⟨.connected ref id, .slot id⟩ ∨
        IsConnected reports ref id ∧ report ≠ ⟨.disconnected ref id, .flag true⟩ ∧
          report.deed ≠ .cleared ref := by
  constructor
  · rintro ⟨before, since, hsplit, hdisconnected, hcleared⟩
    rcases append_singleton_eq_append_cons_iff.mp hsplit with ⟨rest, rfl, hrest⟩ | ⟨_, hnew, _⟩
    · simp only [List.mem_append, List.mem_singleton, not_or] at hdisconnected hcleared
      refine .inr ⟨⟨before, rest, hrest, hdisconnected.1, fun answer => (hcleared answer).1⟩, ?_, ?_⟩
      · exact fun heq => hdisconnected.2 heq.symm
      · rintro hdeed
        exact (hcleared report.answer).2 (hdeed ▸ rfl)
    · exact .inl hnew.symm
  · rintro (rfl | ⟨⟨before, since, rfl, hdisconnected, hcleared⟩, hdeed, hclear⟩)
    · exact ⟨reports, [], rfl, List.not_mem_nil, fun _ => List.not_mem_nil⟩
    · refine ⟨before, since ++ [report], by simp, ?_, fun answer => ?_⟩
      · simpa [hdisconnected] using Ne.symm hdeed
      · have hanswer : report ≠ ⟨.cleared ref, answer⟩ := fun heq => hclear (heq ▸ rfl)
        simpa [hcleared] using Ne.symm hanswer

theorem connectedAfter_append_singleton (reports : List Report) (report : Report) (ref : SignalRef) :
    connectedAfter (reports ++ [report]) ref =
      ((Account.after (reports.map (·.deed))).record report.deed).connected ref := by
  rw [connectedAfter, List.map_append, Account.after_append]
  rfl

/-- What is connected can be read off a lawful log. -/
theorem Lawful.isConnected_iff (h : Lawful reports) :
    IsConnected reports ref id ↔ id ∈ connectedAfter reports ref := by
  induction h with
  | nil => simp [IsConnected, connectedAfter, Account.after, Account.empty]
  | append h hallowed ih =>
      rw [isConnected_append_singleton, connectedAfter_append_singleton, ih]
      cases hallowed with
      | @connected ref' id' hnew =>
          by_cases href : ref = ref'
          · subst href
            simp [Account.record, Account.update, connectedAfter, eq_comm, or_comm]
          · simp [Account.record, Account.update, connectedAfter, href, Ne.symm href]
      | @disconnected ref' id' was hwas =>
          by_cases href : ref = ref'
          · subst href
            by_cases hid : id = id'
            · subst hid
              cases was with
              | true => simp [Account.record, Account.update]
              | false => simp [Account.record, Account.update, ← hwas]
            · simp [Account.record, Account.update, connectedAfter, hid, Ne.symm hid]
          · simp [Account.record, Account.update, connectedAfter, href, Ne.symm href]
      | cleared ref' answer =>
          by_cases href : ref = ref'
          · simp [Account.record, Account.update, href]
          · simp [Account.record, Account.update, connectedAfter, href, Ne.symm href]
      | began | called | ended => simp [Account.record, connectedAfter]

theorem IsConnected.mem (h : IsConnected reports ref id) :
    ⟨.connected ref id, .slot id⟩ ∈ reports := by
  obtain ⟨before, since, rfl, -⟩ := h
  simp

/-- Disconnecting tells whether the slot was connected. -/
theorem Lawful.disconnected_answer (h : Lawful reports) {before since : List Report}
    {answer : Answer} (hsplit : reports = before ++ ⟨.disconnected ref id, answer⟩ :: since) :
    ∃ was, answer = .flag was ∧ (was = true ↔ IsConnected before ref id) := by
  obtain ⟨hbefore, hallowed⟩ := h.split hsplit
  cases hallowed with
  | disconnected hwas => exact ⟨_, rfl, hwas.trans hbefore.isConnected_iff.symm⟩

/-- The connection of a slot ends only if the slot was connected once. -/
theorem Lawful.mem_of_cuts (h : Lawful reports) {before since : List Report} {cut : Report}
    (hsplit : reports = before ++ cut :: since) (hcut : Cuts before cut ref id) :
    ⟨.connected ref id, .slot id⟩ ∈ before := by
  rcases hcut with rfl | ⟨-, hm⟩
  · obtain ⟨was, hanswer, hwas⟩ := h.disconnected_answer hsplit
    exact (hwas.mp (Answer.flag.inj hanswer).symm).mem
  · exact hm

theorem Cuts.not_isConnected {before : List Report} {cut : Report} (h : Cuts before cut ref id) :
    ¬IsConnected (before ++ [cut]) ref id := by
  rw [isConnected_append_singleton]
  rintro (rfl | ⟨-, hdisconnected, hcleared⟩)
  · rcases h with hcut | ⟨hcut, -⟩ <;> simp at hcut
  · rcases h with hcut | ⟨hcut, -⟩
    · exact hdisconnected hcut
    · exact hcleared hcut

/-- What is left of a slot whose connection has ended: it is not connected again, it is not called,
and it cannot be disconnected again. -/
structure Gone (ref : SignalRef) (id : SlotId) (reports since : List Report) : Prop where
  not_connected : ¬IsConnected reports ref id
  not_called : ∀ depth value answer, ⟨.called depth ref id value, answer⟩ ∉ since
  answer : ∀ answer, ⟨.disconnected ref id, answer⟩ ∈ since → answer = .flag false

theorem Gone.append {since : List Report} {report : Report} (h : Gone ref id reports since)
    (hlawful : Lawful reports) (hm : ⟨.connected ref id, .slot id⟩ ∈ reports)
    (hallowed : Allows reports report) : Gone ref id (reports ++ [report]) (since ++ [report]) := by
  have hgone : id ∉ connectedAfter reports ref := hlawful.isConnected_iff.not.mp h.not_connected
  constructor
  · rw [isConnected_append_singleton]
    rintro (rfl | ⟨hconnected, -⟩)
    · cases hallowed with
      | connected hnew => exact hnew _ hm
    · exact h.not_connected hconnected
  · intro depth value answer hcalled
    rcases List.mem_append.mp hcalled with hcalled | hcalled
    · exact h.not_called depth value answer hcalled
    · obtain rfl := List.mem_singleton.mp hcalled
      cases hallowed with
      | called _ _ _ hid => exact hgone hid
  · intro answer hdisconnected
    rcases List.mem_append.mp hdisconnected with hdisconnected | hdisconnected
    · exact h.answer answer hdisconnected
    · obtain rfl := List.mem_singleton.mp hdisconnected
      cases hallowed with
      | @disconnected _ _ was hwas => simpa [hgone] using hwas

/-- A slot whose connection has ended stays away. -/
theorem Lawful.gone (h : Lawful reports) {before since : List Report} {cut : Report}
    (hsplit : reports = before ++ cut :: since) (hcut : Cuts before cut ref id) :
    Gone ref id reports since := by
  have hm := h.mem_of_cuts hsplit hcut
  induction h generalizing since with
  | nil => simp at hsplit
  | append h hallowed ih =>
      rcases append_singleton_eq_append_cons_iff.mp hsplit with ⟨rest, rfl, rfl⟩ | ⟨rfl, rfl, rfl⟩
      · exact (ih rfl).append h (by simp [hm]) hallowed
      · exact ⟨hcut.not_isConnected, by simp, by simp⟩

end

/-! ## In a run -/

namespace Run

variable {signals : Nat} {allowance : Option Nat} {run : Run} {reports : List Report}
  {ref : SignalRef} {id : SlotId}

theorem Reported.isConnected_iff (h : Reported signals allowance run reports) :
    IsConnected reports ref id ↔ id ∈ (run.session.signal ref).connected := by
  rw [h.kept.lawful.isConnected_iff, connectedAfter, h.reaches.accounted.tracked.connected]

theorem Reported.disconnect_iff (h : Reported signals allowance run reports) :
    ((run.session.signal ref).disconnect id).1 = true ↔ IsConnected reports ref id := by
  rw [(h.reaches.accounted.tracked.standing.sound ref).disconnect_fst, h.isConnected_iff]

/-- A connected slot is held by an emission, or is there for the next one. -/
theorem Reported.mem_begin_or_held (h : Reported signals allowance run reports)
    (hconnected : IsConnected reports ref id) :
    id ∈ (run.session.signal ref).begin.1.ids ∨
      ∃ frame ∈ underway run.stack, frame.signal = ref ∧ id ∈ frame.emission.ids := by
  have hids := (Signal.mem_connected.mp (h.isConnected_iff.mp hconnected)).1
  rcases List.mem_append.mp hids with hrunning | hfree
  · rw [h.reaches.accounted.tracked.standing.running, mem_heldBy] at hrunning
    exact .inr hrunning
  · exact .inl hfree

/-- The emission on top calls the slot that comes next if it is connected, and passes over it
otherwise. -/
theorem Reported.deeds_of_waiting (h : Reported signals allowance run reports) {value : Int}
    {emission : Emission Slot} {below : List Frame} {slot : Slot} {waiting : List (SlotId × Slot)}
    (hstack : run.stack = .emission ref value emission :: below)
    (hwaiting : emission.waiting = (id, slot) :: waiting) :
    (IsConnected reports ref id → run.deeds = [.called (depth below) ref id value]) ∧
      (¬IsConnected reports ref id → run.deeds = []) := by
  have haccounted := h.reaches.accounted
  rw [h.kept.lawful.isConnected_iff]
  obtain ⟨session, stack, events⟩ := run
  obtain rfl : stack = _ := hstack
  rw [Run.deeds_of_waiting haccounted hwaiting]
  exact ⟨fun hid => if_pos hid, fun hid => if_neg hid⟩

theorem Reported.calls (h : Reported signals allowance run reports) :
    run.events.filterMap Event.call? = reports.filterMap (·.deed.call?) := by
  rw [h.reaches.accounted.calls, List.filterMap_map]
  rfl

/-- At every moment of a run, exactly the connected slots can be disconnected, and every action that
was to disconnect a slot has told whether it was connected. When a connection has ended, the slot is
never called again and cannot be disconnected again. It makes no difference to other slots: what the
signal has of them is the same, those that are connected are called when their turn comes, and they
have a turn in an emission underway or in the next one. -/
theorem disconnecting_is_final (h : Reported signals allowance run reports) (ref : SignalRef)
    (id : SlotId) :
    ((((run.session.signal ref).disconnect id).1 = true ↔ IsConnected reports ref id) ∧
      ∀ before answer since, reports = before ++ ⟨.disconnected ref id, answer⟩ :: since →
        ∃ was, answer = .flag was ∧ (was = true ↔ IsConnected before ref id)) ∧
    (run.events.filterMap Event.call? = reports.filterMap (·.deed.call?) ∧
      ∀ before cut since, reports = before ++ cut :: since → Cuts before cut ref id →
        Gone ref id reports since ∧ ((run.session.signal ref).disconnect id).1 = false) ∧
    ((run.session.signal ref).disconnect id).2.without id = (run.session.signal ref).without id ∧
    ∀ other, IsConnected reports ref other →
      (∀ value emission below slot waiting, run.stack = .emission ref value emission :: below →
        emission.waiting = (other, slot) :: waiting →
          run.deeds = [.called (depth below) ref other value]) ∧
      (other ∈ (run.session.signal ref).begin.1.ids ∨
        ∃ frame ∈ underway run.stack, frame.signal = ref ∧ other ∈ frame.emission.ids) := by
  refine ⟨⟨h.disconnect_iff, ?_⟩, ⟨h.calls, ?_⟩, Signal.without_disconnect _ id, ?_⟩
  · intro before answer since hsplit
    exact h.kept.lawful.disconnected_answer hsplit
  · intro before cut since hsplit hcut
    have hgone := h.kept.lawful.gone hsplit hcut
    exact ⟨hgone, Bool.eq_false_iff.mpr (h.disconnect_iff.not.mpr hgone.not_connected)⟩
  · intro other hother
    refine ⟨fun value emission below slot waiting hstack hwaiting => ?_, h.mem_begin_or_held hother⟩
    exact (h.deeds_of_waiting hstack hwaiting).1 hother

/-- A slot is disconnected from within another emission while it waits for its turn. -/
theorem disconnecting_is_final_before_turn :
    ∃ run reports, Reported 2 none run reports ∧ IsConnected reports (.plain 0) ⟨0⟩ ∧
      Gone (.plain 0) ⟨1⟩ reports
        [⟨.ended 1 (.plain 1), .nothing⟩, ⟨.ended 0 (.plain 0), .nothing⟩] ∧
      ((run.session.signal (.plain 0)).disconnect ⟨1⟩).1 = false := by
  have hnew : Reported 2 none ⟨.new 2 none, [], []⟩ [] := .new
  have hfirst := hnew.enter rfl (.connect (.plain 0) "first" [.emit (.plain 1) 8] none)
  have hsecond := hfirst.enter rfl (.connect (.plain 0) "second" [] none)
  have hcutter := hsecond.enter rfl
    (.connect (.plain 1) "cutter" [.disconnect (.plain 0) "second"] none)
  have hbegun := hcutter.enter rfl (.emit (.plain 0) 7)
  have hcut := (((hbegun.next rfl).next rfl).next rfl).next rfl
  have hended := (((((hcut.next rfl).next rfl).next rfl).next rfl).next rfl).next rfl
  have hreports : _ =
      [⟨.connected (.plain 0) ⟨0⟩, .slot ⟨0⟩⟩, ⟨.connected (.plain 0) ⟨1⟩, .slot ⟨1⟩⟩,
        ⟨.connected (.plain 1) ⟨0⟩, .slot ⟨0⟩⟩, ⟨.began 0 (.plain 0) 7, .nothing⟩,
        ⟨.called 0 (.plain 0) ⟨0⟩ 7, .nothing⟩, ⟨.began 1 (.plain 1) 8, .nothing⟩,
        ⟨.called 1 (.plain 1) ⟨0⟩ 8, .nothing⟩] ++
      Report.mk (.disconnected (.plain 0) ⟨1⟩) (.flag true) ::
        [⟨.ended 1 (.plain 1), .nothing⟩, ⟨.ended 0 (.plain 0), .nothing⟩] := rfl
  obtain ⟨-, ⟨-, hfinal⟩, -⟩ := disconnecting_is_final hended (.plain 0) ⟨1⟩
  obtain ⟨hgone, hanswer⟩ := hfinal _ _ _ hreports (.inl rfl)
  have hstays := (disconnecting_is_final hended (.plain 0) ⟨0⟩).1.1.mp rfl
  exact ⟨_, _, hended, hstays, hgone, hanswer⟩

end Run

/-! ## Counting -/

namespace Signal

/-- The slots that can be disconnected. -/
def disconnectable (signal : Signal Slot) : Set SlotId := {id | (signal.disconnect id).1 = true}

theorem ncard_setOf_mem {ids : List SlotId} (h : ids.Nodup) :
    {id | id ∈ ids}.ncard = ids.length := by
  rw [← List.coe_toFinset, Set.ncard_coe_finset, List.toFinset_card_of_nodup h]

variable {signal : Signal Slot}

theorem Sound.disconnectable_eq (h : signal.Sound) :
    signal.disconnectable = {id | id ∈ signal.connected} := by
  ext id
  exact h.disconnect_fst

theorem Sound.disconnectable_finite (h : signal.Sound) : signal.disconnectable.Finite := by
  rw [h.disconnectable_eq]
  exact signal.connected.finite_toSet

/-- Of the slots that can be disconnected, those that no emission holds are counted. -/
theorem Sound.ncard_disconnectable (h : signal.Sound) :
    signal.disconnectable.ncard =
      signal.length + (signal.disconnectable ∩ {id | id ∈ signal.running}).ncard := by
  have hheld : signal.disconnectable ∩ {id | id ∈ signal.running} =
      {id | id ∈ signal.running.filter (!signal.isRemoved ·)} := by
    ext id
    have hids : id ∈ signal.running → id ∈ signal.ids := List.mem_append_left _
    simp only [h.disconnectable_eq, Set.mem_inter_iff, Set.mem_ofPred_eq, mem_connected,
      List.mem_filter, isRemoved_eq, Bool.not_eq_true', decide_eq_false_iff_not]
    tauto
  have hconnected : signal.connected.Nodup := h.nodup_ids.filter _
  have hrunning : signal.running.Nodup := (List.nodup_append.mp h.nodup_ids).1
  rw [hheld, h.disconnectable_eq, ncard_setOf_mem hconnected, ncard_setOf_mem (hrunning.filter _),
    length_connected]

theorem Sound.length_eq_iff (h : signal.Sound) :
    signal.length = signal.disconnectable.ncard ↔
      ∀ id ∈ signal.running, id ∉ signal.disconnectable := by
  have hsum := h.ncard_disconnectable
  have hzero : signal.length = signal.disconnectable.ncard ↔
      (signal.disconnectable ∩ {id | id ∈ signal.running}).ncard = 0 := by omega
  rw [hzero, Set.ncard_eq_zero (h.disconnectable_finite.inter_of_left _), ← Set.disjoint_iff_inter_eq_empty,
    Set.disjoint_right]
  rfl

theorem Sound.isEmpty_iff (h : signal.Sound) :
    signal.isEmpty = true ↔ ∀ id ∈ signal.disconnectable, id ∈ signal.running := by
  have hsum := h.ncard_disconnectable
  have hempty : signal.isEmpty = true ↔ signal.length = 0 := beq_iff_eq
  rw [hempty]
  constructor
  · intro hlength
    have hall : signal.disconnectable ∩ {id | id ∈ signal.running} = signal.disconnectable :=
      Set.eq_of_subset_of_ncard_le Set.inter_subset_left (by omega) h.disconnectable_finite
    exact fun id hid => (hall ▸ hid : id ∈ signal.disconnectable ∩ _).2
  · intro hall
    have hsub : signal.disconnectable ⊆ {id | id ∈ signal.running} := hall
    rw [Set.inter_eq_left.mpr hsub] at hsum
    omega

end Signal

namespace Run

variable {signals : Nat} {allowance : Option Nat} {run : Run} {log : List Deed}

/-- At every moment of a run, the length of a signal is the number of its connected slots without
those that emissions underway hold. So it is the number of connected slots if and only if no such
emission holds one, and always when there is no emission of the signal. -/
theorem length_counts_free (h : Reaches signals allowance run log) (ref : SignalRef) :
    (run.session.signal ref).disconnectable.ncard =
        (run.session.signal ref).length +
          ((run.session.signal ref).disconnectable ∩
            {id | id ∈ heldBy ref (underway run.stack)}).ncard ∧
      ((run.session.signal ref).length = (run.session.signal ref).disconnectable.ncard ↔
        ∀ id ∈ heldBy ref (underway run.stack), id ∉ (run.session.signal ref).disconnectable) ∧
      ((run.session.signal ref).isEmpty = true ↔
        ∀ id ∈ (run.session.signal ref).disconnectable, id ∈ heldBy ref (underway run.stack)) ∧
      (emits ref (underway run.stack) = false →
        (run.session.signal ref).length = (run.session.signal ref).disconnectable.ncard ∧
          ((run.session.signal ref).isEmpty = true ↔
            (run.session.signal ref).disconnectable = ∅)) := by
  have hstanding := h.accounted.tracked.standing
  have hsound := hstanding.sound ref
  have hcount := hsound.ncard_disconnectable
  have hlength := hsound.length_eq_iff
  have hempty := hsound.isEmpty_iff
  rw [hstanding.running] at hcount hlength hempty
  refine ⟨hcount, hlength, hempty, fun hidle => ?_⟩
  rw [heldBy_eq_nil hidle] at hlength hempty
  refine ⟨hlength.mpr fun id hid => absurd hid List.not_mem_nil, ?_⟩
  rw [hempty, Set.eq_empty_iff_forall_notMem]
  exact forall_congr' fun id => by simp

/-- A slot that is called disconnects the one after it, which the emission holds like itself, and
connects a third one, which is the only one that counts. -/
theorem length_counts_free_during_call :
    ∃ run log, Reaches 1 none run log ∧ heldBy (.plain 0) (underway run.stack) = [⟨0⟩, ⟨1⟩] ∧
      (run.session.signal (.plain 0)).disconnectable = {⟨0⟩, ⟨2⟩} ∧
      (run.session.signal (.plain 0)).length = 1 ∧
      ((run.session.signal (.plain 0)).disconnectable ∩
        {id | id ∈ heldBy (.plain 0) (underway run.stack)}).ncard = 1 := by
  have hnew : Reaches 1 none ⟨.new 1 none, [], []⟩ [] := .new
  have hfirst := hnew.enter rfl (.connect (.plain 0) "first"
    [.disconnect (.plain 0) "second", .connect (.plain 0) "third" [] none] none)
  have hsecond := hfirst.enter rfl (.connect (.plain 0) "second" [] none)
  have hbegun := hsecond.enter rfl (.emit (.plain 0) 7)
  have hthird := ((hbegun.next rfl).next rfl).next rfl
  have hsound := hthird.accounted.tracked.standing.sound (.plain 0)
  have hset : _ = ({⟨0⟩, ⟨2⟩} : Set SlotId) :=
    hsound.disconnectable_eq.trans (Set.ext fun id => List.mem_pair)
  have htwo : ({⟨0⟩, ⟨2⟩} : Set SlotId).ncard = 2 := Set.ncard_pair (by decide)
  have hcount := (length_counts_free hthird (.plain 0)).1
  refine ⟨_, _, hthird, rfl, hset, rfl, ?_⟩
  rw [hset, htwo] at hcount
  rw [hset]
  exact Nat.add_left_cancel hcount.symm

/-- While its only slot is called, a signal is empty by its own count, though the slot is connected. -/
theorem length_misses_called :
    ∃ run log, Reaches 1 none run log ∧
      (run.session.signal (.plain 0)).disconnectable = {⟨0⟩} ∧
      (run.session.signal (.plain 0)).length ≠
        (run.session.signal (.plain 0)).disconnectable.ncard ∧
      (run.session.signal (.plain 0)).isEmpty = true := by
  have hnew : Reaches 1 none ⟨.new 1 none, [], []⟩ [] := .new
  have honly := hnew.enter rfl (.connect (.plain 0) "only" [] none)
  have hcalled := (honly.enter rfl (.emit (.plain 0) 7)).next rfl
  have hsound := hcalled.accounted.tracked.standing.sound (.plain 0)
  have hset : _ = ({⟨0⟩} : Set SlotId) :=
    hsound.disconnectable_eq.trans (Set.ext fun id => List.mem_singleton)
  refine ⟨_, _, hcalled, hset, ?_, rfl⟩
  rw [hset, Set.ncard_singleton]
  exact Nat.zero_ne_one

end Run

end WidgetToolkit
