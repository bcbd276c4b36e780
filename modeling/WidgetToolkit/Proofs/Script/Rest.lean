import WidgetToolkit.Proofs.Script.Connection

/-! # Signals come to rest

When no emission of a signal is underway, nothing is left of those that were. The signal then keeps
the slots that are connected, in the order in which they were connected. -/

namespace WidgetToolkit

open Run (Underway)

/-! ## At rest -/

namespace Signal

variable {σ : Type} {signal : Signal σ}

/-- Nothing is left of an emission. -/
structure AtRest (signal : Signal σ) : Prop where
  removed : signal.removed = []
  running : signal.running = []
  emitting : signal.emitting = false

theorem Sound.atRest (h : signal.Sound) (hidle : signal.emitting = false) : signal.AtRest :=
  ⟨(h.idle hidle).2, (h.idle hidle).1, hidle⟩

/-- All slots that a signal at rest has are connected. -/
theorem AtRest.connected_eq (h : signal.AtRest) : signal.connected = signal.slots.map (·.1) := by
  simp [connected, ids, isRemoved, h.running, h.removed]

end Signal

/-! ## The order of connection -/

/-- The slot of a signal that gets connected. -/
def Deed.connects? (ref : SignalRef) : Deed → Option SlotId
  | .connected other id => if other = ref then some id else none
  | _ => none

/-- Slots go when they are disconnected, but the others keep their order. -/
theorem Account.sublist_connects (log : List Deed) (ref : SignalRef) :
    ((Account.after log).connected ref).Sublist (log.filterMap (Deed.connects? ref)) := by
  induction log using List.reverseRecOn with
  | nil => exact List.nil_sublist _
  | append_singleton log deed ih =>
      rw [Account.after_append, List.foldl_cons, List.foldl_nil, List.filterMap_append]
      have hkept : ((Account.after log).connected ref).Sublist
          (log.filterMap (Deed.connects? ref) ++ [deed].filterMap (Deed.connects? ref)) :=
        ih.trans (List.sublist_append_left _ _)
      cases deed with
      | connected other id =>
          by_cases hother : other = ref
          · simpa [record, update, Deed.connects?, hother] using ih
          · simpa [record, update, Ne.symm hother] using hkept
      | disconnected other id =>
          by_cases hother : other = ref
          · simpa [record, update, hother] using List.filter_sublist.trans hkept
          · simpa [record, update, Ne.symm hother] using hkept
      | cleared other =>
          by_cases hother : other = ref
          · simp [record, update, hother]
          · simpa [record, update, Ne.symm hother] using hkept
      | began | called | ended => exact hkept

/-! ## In a run -/

namespace Run

variable {signals : Nat} {allowance : Option Nat} {run : Run} {reports : List Report}
  {ref : SignalRef}

/-- Whenever no emission of a signal is underway, however those before were nested and whatever was
connected and disconnected meanwhile, nothing is left of them. The signal has the connected slots
and no others, each of them once, by increasing numbers and in the order of their connection. -/
theorem comes_to_rest (h : Reported signals allowance run reports)
    (hidle : emits ref (underway run.stack) = false) :
    (run.session.signal ref).AtRest ∧
      (∀ id, id ∈ (run.session.signal ref).slots.map (·.1) ↔ IsConnected reports ref id) ∧
      ((run.session.signal ref).slots.map (·.1)).Pairwise (·.number < ·.number) ∧
      ((run.session.signal ref).slots.map (·.1)).Sublist
        (reports.filterMap (·.deed.connects? ref)) := by
  have htracked := h.reaches.accounted.tracked
  have hsound := htracked.standing.sound ref
  have hrest := hsound.atRest ((htracked.standing.emitting ref).trans hidle)
  rw [← hrest.connected_eq]
  refine ⟨hrest, fun id => h.isConnected_iff.symm, hsound.ascending.filter _, ?_⟩
  have hsublist := Account.sublist_connects (reports.map (·.deed)) ref
  rw [htracked.connected, List.filterMap_map] at hsublist
  exact hsublist

/-- A slot connects another one, emits the signal again and disconnects the slot after it. -/
theorem comes_to_rest_after_nested :
    ∃ run reports, Reported 1 none run reports ∧
      ⟨.began 1 (.plain 0) 8, .nothing⟩ ∈ reports ∧
      ⟨.disconnected (.plain 0) ⟨1⟩, .flag true⟩ ∈ reports ∧
      (run.session.signal (.plain 0)).AtRest ∧
      (run.session.signal (.plain 0)).slots.map (·.1) = [⟨0⟩, ⟨2⟩] ∧
      IsConnected reports (.plain 0) ⟨2⟩ := by
  have hnew : Reported 1 none ⟨.new 1 none, [], []⟩ [] := .new
  have hfirst := hnew.enter rfl (.connect (.plain 0) "first"
    [.connect (.plain 0) "third" [] none, .emit (.plain 0) 8, .disconnect (.plain 0) "second"] none)
  have hsecond := hfirst.enter rfl (.connect (.plain 0) "second" [] none)
  have hbegun := hsecond.enter rfl (.emit (.plain 0) 7)
  have hnested := (((hbegun.next rfl).next rfl).next rfl).next rfl
  have hback := ((hnested.next rfl).next rfl).next rfl
  have hended := (((hback.next rfl).next rfl).next rfl).next rfl
  obtain ⟨hrest, hslots, -⟩ := comes_to_rest hended (show emits (.plain 0) _ = false from rfl)
  exact ⟨_, _, hended, by decide, by decide, hrest, rfl, (hslots ⟨2⟩).mp (by decide)⟩

end Run

end WidgetToolkit
