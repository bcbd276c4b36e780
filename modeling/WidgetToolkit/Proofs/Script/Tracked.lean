import WidgetToolkit.Proofs.Script.Beginning

/-! # Logs give account of signals -/

namespace WidgetToolkit

open Run (Underway)

/-- A log gives account of a session with emissions underway. `busy` tells that the innermost of
them is calling a slot. -/
structure Tracked (session : Session) (frames : List Underway) (busy : Prop) (log : List Deed) :
    Prop where
  standing : Standing session frames
  connected : ∀ ref, (Account.after log).connected ref = (session.signal ref).connected
  holding : List.Forall₂ (fun frame held => held.1 = frame.signal ∧
    Covers (session.signal frame.signal) frame.emission held.2) frames (Account.after log).holding
  history : ∀ (b : Beginning) deeds, log = b.before ++ b.deed :: deeds →
    b.Unfinished session frames busy deeds ∨ b.Ended deeds

namespace Tracked

variable {session session' : Session} {frames below : List Underway} {frame : Underway}
  {busy busy' : Prop} {log : List Deed}

theorem new (signals : Nat) (allowance : Option Nat) :
    Tracked (.new signals allowance) [] True [] := by
  have hstanding := standing_new signals allowance
  refine ⟨hstanding, fun ref => ?_, .nil, fun b deeds heq => by simp at heq⟩
  rw [signal_new]
  rfl

theorem mono (h : Tracked session frames busy log) (himp : busy' → busy) :
    Tracked session frames busy' log := by
  refine ⟨h.standing, h.connected, h.holding, fun b deeds heq => ?_⟩
  exact (h.history b deeds heq).imp_left fun hunfinished => hunfinished.mono himp

/-- Without emissions nothing is called. -/
theorem idle (h : Tracked session [] busy log) : Tracked session [] busy' log := by
  refine ⟨h.standing, h.connected, h.holding, fun b deeds heq => ?_⟩
  exact .inr ((h.history b deeds heq).resolve_left Beginning.Unfinished.not_idle)

/-! ## What an emission is to call -/

theorem holds_iff (h : Tracked session frames busy log) {ref : SignalRef} {id : SlotId}
    (hid : id ∉ (session.signal ref).removed) :
    (Account.after log).Holds ref id ↔ id ∈ (session.signal ref).running := by
  rw [h.standing.running, mem_heldBy]
  constructor
  · rintro ⟨held, hheld, rfl, hmem⟩
    obtain ⟨frame, hframe, hsignal, hcovers⟩ := exists_left_of_forall₂ h.holding hheld
    exact ⟨frame, hframe, hsignal.symm, hcovers.mem hmem⟩
  · rintro ⟨frame, hframe, rfl, hmem⟩
    obtain ⟨held, hheld, hsignal, hcovers⟩ := exists_right_of_forall₂ h.holding hframe
    refine ⟨held, hheld, hsignal, ?_⟩
    by_contra htarget
    exact hid (hcovers.dropped id hmem htarget)

/-- The targets of an emission that begins now are the slots that no emission holds, without the
disconnected ones. -/
theorem targets_eq (h : Tracked session frames busy log) (ref : SignalRef) :
    (Account.after log).targets ref =
      ((session.signal ref).slots.map (·.1)).filter
        fun id => id ∉ (session.signal ref).removed := by
  have hnodup := (h.standing.sound ref).nodup_ids
  rw [Account.targets, h.connected, Signal.connected, Signal.ids, List.filter_filter,
    List.filter_append]
  have hrunning : ((session.signal ref).running.filter fun id =>
      (decide ¬(Account.after log).Holds ref id) && !(session.signal ref).isRemoved id) = [] := by
    rw [List.filter_eq_nil_iff]
    intro id hid
    by_cases hremoved : id ∈ (session.signal ref).removed
    · simp [hremoved]
    · simp [(h.holds_iff hremoved).mpr hid]
  rw [hrunning, List.nil_append]
  refine List.filter_congr fun id hid => ?_
  have hfree : id ∉ (session.signal ref).running := fun hrun =>
    (List.nodup_append.mp hnodup).2.2 id hrun id hid rfl
  by_cases hremoved : id ∈ (session.signal ref).removed
  · simp [hremoved]
  · simp [hremoved, (h.holds_iff hremoved).not.mpr hfree]

theorem covers_begin (h : Tracked session frames busy log) (ref : SignalRef) :
    Covers (session.signal ref).begin.2 (session.signal ref).begin.1
      ((Account.after log).targets ref) := by
  rw [h.targets_eq]
  constructor
  · rw [Signal.begin_ids]
    refine List.filter_congr fun id hid => ?_
    simp [List.mem_filter, hid]
  · intro id hid htarget
    rw [Signal.begin_ids] at hid
    by_contra hremoved
    exact htarget (List.mem_filter.mpr ⟨hid, by simpa using hremoved⟩)

/-! ## Steps -/

theorem steady (h : Tracked session frames busy log) (hsession : session.Steady session') :
    Tracked session' frames busy log := by
  refine ⟨h.standing.steady hsession, fun ref => ?_, ?_, fun b deeds heq => ?_⟩
  · rw [hsession.signal_eq, h.connected]
  · refine h.holding.imp fun frame held hheld => ?_
    rw [hsession.signal_eq]
    exact hheld
  · exact (h.history b deeds heq).imp_left fun hunfinished => hunfinished.steady hsession

/-- The slots of a signal change while a slot is being called, or outside all emissions. -/
theorem change (h : Tracked session frames True log) (slots : List SlotId → List SlotId)
    {ref : SignalRef} (href : session.Has ref) {signal : Signal Slot} (hsound : signal.Sound)
    (hrunning : signal.running = (session.signal ref).running)
    (hemitting : signal.emitting = (session.signal ref).emitting)
    (hremoved : (session.signal ref).removed ⊆ signal.removed) {deed : Deed}
    (hwithin : ∀ depth, deed.Within depth)
    (hdeed : ∀ depth ref value, deed ≠ .began depth ref value)
    (hfresh : ∀ other id, deed = .connected other id → other = ref ∧ id ∉ (session.signal ref).ids)
    (hrecord : ∀ account : Account, account.record deed = account.update ref slots)
    (hconnected : signal.connected = slots (session.signal ref).connected) :
    Tracked (session.setSignal ref signal) frames True (log ++ [deed]) := by
  have hkeep := session.removed_subset_setSignal href hremoved
  refine ⟨h.standing.changeSlots href hsound hrunning hemitting, fun other => ?_, ?_, ?_⟩
  · rw [Account.after_append, List.foldl_cons, List.foldl_nil, hrecord, Account.update]
    by_cases hne : other = ref
    · rw [hne, session.signal_setSignal ref signal href, hconnected, h.connected]
      exact if_pos rfl
    · rw [session.signal_setSignal_of_ne signal hne, ← h.connected]
      exact if_neg hne
  · rw [Account.after_append, List.foldl_cons, List.foldl_nil, hrecord]
    exact h.holding.imp fun frame held hheld => ⟨hheld.1, hheld.2.mono (hkeep _)⟩
  · refine Beginning.of_append hdeed fun b deeds hlog => ?_
    rcases h.history b deeds hlog with hunfinished | hended
    · refine .inl (hunfinished.carry (fun _ _ => hkeep _) (fun _ _ => hwithin _) fun id heq => ?_)
      obtain ⟨hsignal, hid⟩ := hfresh _ id heq
      exact fun htarget => hid (hsignal ▸ hunfinished.mem_ids h.standing htarget)
    · exact .inr (hended.append _)

theorem begin (h : Tracked session frames True log) {ref : SignalRef} (href : session.Has ref)
    (value : Int) :
    Tracked (session.setSignal ref (session.signal ref).begin.2)
      (⟨ref, value, (session.signal ref).begin.1⟩ :: frames) False
      (log ++ [.began frames.length ref value]) := by
  have hsignal := session.signal_setSignal ref (session.signal ref).begin.2 href
  have hkeep : ∀ other, (session.signal other).removed ⊆
      ((session.setSignal ref (session.signal ref).begin.2).signal other).removed :=
    session.removed_subset_setSignal href (List.Subset.refl _)
  have hcovers : Covers ((session.setSignal ref (session.signal ref).begin.2).signal ref)
      (session.signal ref).begin.1 ((Account.after log).targets ref) := by
    rw [hsignal]
    exact h.covers_begin ref
  refine ⟨h.standing.begin href value, fun other => ?_, ?_, fun b deeds hlog => ?_⟩
  · rw [Account.after_append]
    by_cases hne : other = ref
    · rw [hne, hsignal, Signal.connected_begin]
      exact h.connected ref
    · rw [session.signal_setSignal_of_ne _ hne]
      exact h.connected other
  · rw [Account.after_append]
    refine .cons ⟨rfl, hcovers⟩ ?_
    exact h.holding.imp fun frame held hheld => ⟨hheld.1, hheld.2.mono (hkeep _)⟩
  · rcases append_singleton_eq_append_cons_iff.mp hlog with
      ⟨rest, rfl, hrest⟩ | ⟨rfl, hdeed, hbefore⟩
    · rcases h.history b rest hrest with hunfinished | hended
      · refine .inl (Beginning.Unfinished.beneath ?_)
        exact hunfinished.carry (fun _ _ => hkeep _) (fun _ hdepth => hdepth) fun _ heq => by
          cases heq
      · exact .inr (hended.append _)
    · obtain ⟨before, depth, signal, value'⟩ := b
      obtain ⟨rfl, rfl, rfl⟩ := Deed.began.inj hdeed
      obtain rfl : log = before := hbefore
      exact .inl (.here rfl ⟨rfl, rfl, hcovers, by simp, .nil, by simp⟩)

/-! ### Turns -/

section

variable {id : SlotId} {slot slot' : Slot} {waiting : List (SlotId × Slot)}

/-- The emission on top, of which a slot has had its turn. -/
def turned (frame : Underway) (id : SlotId) (slot : Slot) (waiting : List (SlotId × Slot)) :
    Underway :=
  { frame with
    emission := { frame.emission with
      past := frame.emission.past ++ [(id, slot)]
      waiting := waiting } }

theorem turned_ids (hwaiting : frame.emission.waiting = (id, slot) :: waiting) :
    (turned frame id slot' waiting).emission.ids = frame.emission.ids := by
  simp [turned, Emission.ids, hwaiting]

theorem standing_turned (h : Standing session (frame :: below))
    (hwaiting : frame.emission.waiting = (id, slot) :: waiting) :
    Standing session (turned frame id slot' waiting :: below) :=
  h.advance rfl (turned_ids hwaiting) rfl rfl

theorem covers_turned {signal : Signal Slot} {targets : List SlotId}
    (h : Covers signal frame.emission targets)
    (hwaiting : frame.emission.waiting = (id, slot) :: waiting) :
    Covers signal (turned frame id slot' waiting).emission targets := by
  have hids : (turned frame id slot' waiting).emission.ids = frame.emission.ids :=
    turned_ids hwaiting
  exact ⟨by rw [hids]; exact h.targets_eq, by rw [hids]; exact h.dropped⟩

end

/-- A slot that was disconnected before its turn is passed over. -/
theorem pass (h : Tracked session (frame :: below) False log) {id : SlotId} {slot slot' : Slot}
    {waiting : List (SlotId × Slot)} (hwaiting : frame.emission.waiting = (id, slot) :: waiting)
    (hid : id ∈ (session.signal frame.signal).removed) :
    Tracked session (turned frame id slot' waiting :: below) False log := by
  refine ⟨standing_turned h.standing hwaiting, h.connected, ?_, fun b deeds hlog => ?_⟩
  · obtain ⟨held, holding, hheld, hholding, heq⟩ := List.forall₂_cons_left_iff.mp h.holding
    rw [heq]
    exact .cons ⟨hheld.1, covers_turned hheld.2 hwaiting⟩ hholding
  · rcases h.history b deeds hlog with hunfinished | hended
    · rcases hunfinished.here_or_beneath with ⟨hdepth, hopen⟩ | hbeneath
      · have hgone : id ∉ (deeds.foldl Account.record b.start).connected b.signal := by
          rw [Beginning.foldl_start hlog, h.connected, Signal.mem_connected, ← hopen.signal_eq]
          exact fun hm => hm.2 hid
        refine .inl (.here hdepth ⟨hopen.signal_eq, hopen.value_eq,
          covers_turned hopen.covers hwaiting, hopen.fresh, ?_, False.elim⟩)
        simp only [turned, List.map_append, List.map_cons, List.map_nil, List.filter_append]
        by_cases htarget : id ∈ b.targets
        · simpa [htarget] using hopen.turns.passed hgone
        · simpa [htarget] using hopen.turns
      · exact .inl hbeneath.beneath
    · exact .inr hended

/-- A slot that is still connected when its turn comes is called. -/
theorem call (h : Tracked session (frame :: below) False log) {id : SlotId} {slot slot' : Slot}
    {waiting : List (SlotId × Slot)} (hwaiting : frame.emission.waiting = (id, slot) :: waiting)
    (hid : id ∉ (session.signal frame.signal).removed) :
    Tracked session (turned frame id slot' waiting :: below) True
      (log ++ [.called below.length frame.signal id frame.value]) := by
  have hheld : id ∈ frame.emission.ids := by simp [Emission.ids, hwaiting]
  have hconnected : id ∈ (session.signal frame.signal).connected := by
    refine Signal.mem_connected.mpr ⟨List.mem_append_left _ ?_, hid⟩
    rw [h.standing.running, mem_heldBy]
    exact ⟨frame, List.mem_cons_self, rfl, hheld⟩
  have hafter : Account.after (log ++ [.called below.length frame.signal id frame.value]) =
      Account.after log := Account.after_append _ _
  refine ⟨standing_turned h.standing hwaiting, ?_, ?_, ?_⟩
  · rw [hafter]
    exact h.connected
  · rw [hafter]
    obtain ⟨held, holding, hheld, hholding, heq⟩ := List.forall₂_cons_left_iff.mp h.holding
    rw [heq]
    exact .cons ⟨hheld.1, covers_turned hheld.2 hwaiting⟩ hholding
  · refine Beginning.of_append (fun _ _ _ heq => by cases heq) fun b deeds hlog => ?_
    rcases h.history b deeds hlog with hunfinished | hended
    · rcases hunfinished.here_or_beneath with ⟨hdepth, hopen⟩ | hbeneath
      · have htarget : id ∈ b.targets := by
          by_contra htarget
          exact hid (hopen.signal_eq ▸ hopen.covers.dropped id hheld htarget)
        have hstill : id ∈ (deeds.foldl Account.record b.start).connected b.signal := by
          rw [Beginning.foldl_start hlog, h.connected, ← hopen.signal_eq]
          exact hconnected
        have hpast : ((turned frame id slot' waiting).emission.past.map (·.1)).filter
            (· ∈ b.targets) = (frame.emission.past.map (·.1)).filter (· ∈ b.targets) ++ [id] := by
          simp [turned, htarget]
        have hcalling := hopen.turns.call hstill
        rw [← hpast] at hcalling
        rw [hdepth, hopen.signal_eq, hopen.value_eq]
        refine .inl (.here hdepth ⟨hopen.signal_eq, hopen.value_eq,
          covers_turned hopen.covers hwaiting, ?_, hcalling.turns, fun _ => hcalling⟩)
        simpa using hopen.fresh
      · refine .inl (Beginning.Unfinished.beneath ?_)
        exact hbeneath.carry (fun _ _ => List.Subset.refl _) (fun _ hdepth => hdepth) fun _ heq => by
          cases heq
    · exact .inr (hended.append _)

/-- An emission ends when all its slots have had their turns. -/
theorem finish (h : Tracked session (frame :: below) False log)
    (hwaiting : frame.emission.waiting = []) :
    Tracked (session.setSignal frame.signal
      ((session.signal frame.signal).finish frame.emission)) below True
      (log ++ [.ended below.length frame.signal]) := by
  have hsignal := session.signal_setSignal frame.signal
    ((session.signal frame.signal).finish frame.emission) h.standing.has
  have hkeep : ∀ other ∈ below, (session.signal other.signal).removed ⊆
      ((session.setSignal frame.signal
        ((session.signal frame.signal).finish frame.emission)).signal other.signal).removed :=
    fun other hother => h.standing.removed_subset_finish hother
  refine ⟨h.standing.finish, fun other => ?_, ?_, ?_⟩
  · rw [Account.after_append]
    by_cases hne : other = frame.signal
    · rw [hne, hsignal, h.standing.innermost.connected_finish]
      exact h.connected _
    · rw [session.signal_setSignal_of_ne _ hne]
      exact h.connected other
  · rw [Account.after_append]
    obtain ⟨held, holding, _, hholding, heq⟩ := List.forall₂_cons_left_iff.mp h.holding
    simp only [List.foldl_cons, List.foldl_nil, Account.record, heq, List.tail_cons]
    refine ((List.forall₂_and_left _ _).mpr ⟨hkeep, hholding⟩).imp fun frame held hheld => ?_
    exact ⟨hheld.2.1, hheld.2.2.mono hheld.1⟩
  · refine Beginning.of_append (fun _ _ _ heq => by cases heq) fun b deeds hlog => ?_
    rcases h.history b deeds hlog with hunfinished | hended
    · rcases hunfinished.here_or_beneath with ⟨hdepth, hopen⟩ | hbeneath
      · refine .inr ⟨deeds, [], by rw [hdepth, hopen.signal_eq], ?_, ?_, hopen.fresh⟩
        · have hall : b.targets = (frame.emission.past.map (·.1)).filter (· ∈ b.targets) := by
            simpa [Emission.ids, hwaiting] using hopen.covers.targets_eq
          rw [hall]
          exact hopen.turns
        · rw [hopen.covers.targets_eq]
          exact h.standing.nodup_ids.filter _
      · exact .inl (hbeneath.carry hkeep (fun _ hdepth => hdepth) fun _ heq => by cases heq)
    · exact .inr (hended.append _)

end Tracked

end WidgetToolkit
