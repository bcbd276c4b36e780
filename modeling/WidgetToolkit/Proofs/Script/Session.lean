import WidgetToolkit.Proofs.Menu.Moves
import WidgetToolkit.Proofs.Signal
import WidgetToolkit.Script.Session

/-! # What actions do to the signals of a session -/

namespace WidgetToolkit

namespace Session

/-! ## Getting and setting signals -/

/-- There is such a signal. -/
def Has (session : Session) : SignalRef → Prop
  | .plain index => index < session.signals.length
  | .click item => item.number < session.desk.items.length

theorem signal_setSignal (session : Session) (ref : SignalRef) (signal : Signal Slot)
    (h : session.Has ref) : (session.setSignal ref signal).signal ref = signal := by
  cases ref with
  | plain index =>
      have hi : index < session.signals.length := h
      simp [setSignal, Session.signal, List.getElem?_set_self hi]
  | click item =>
      have hi : item.number < session.desk.items.length := h
      simp only [setSignal, Session.signal, Desk.item?_modifyItem, if_true]
      rw [Desk.item?, List.getElem?_eq_getElem hi]
      rfl

theorem signal_setSignal_of_ne (session : Session) {ref other : SignalRef} (signal : Signal Slot)
    (hne : other ≠ ref) : (session.setSignal ref signal).signal other = session.signal other := by
  cases ref with
  | plain index =>
      cases other with
      | plain index' =>
          have hindex : index ≠ index' := fun h => hne (h ▸ rfl)
          simp [setSignal, Session.signal, List.getElem?_set_ne hindex]
      | click item => rfl
  | click item =>
      cases other with
      | plain index => rfl
      | click item' =>
          have hitem : item ≠ item' := fun h => hne (h ▸ rfl)
          simp [setSignal, Session.signal, Desk.item?_modifyItem, hitem]

@[simp] theorem has_setSignal (session : Session) (ref other : SignalRef) (signal : Signal Slot) :
    (session.setSignal ref signal).Has other ↔ session.Has other := by
  cases ref <;> cases other <;> simp [setSignal, Has, Desk.modifyItem]

theorem removed_subset_setSignal (session : Session) {ref : SignalRef} (href : session.Has ref)
    {signal : Signal Slot} (hremoved : (session.signal ref).removed ⊆ signal.removed)
    (other : SignalRef) :
    (session.signal other).removed ⊆ ((session.setSignal ref signal).signal other).removed := by
  by_cases hne : other = ref
  · rw [hne, session.signal_setSignal ref signal href]
    exact hremoved
  · rw [session.signal_setSignal_of_ne signal hne]
    exact List.Subset.refl _

/-- No signal is lost, and none has changed. -/
structure Steady (session session' : Session) : Prop where
  has : ∀ ref, session.Has ref → session'.Has ref
  signal_eq : ∀ ref, session'.signal ref = session.signal ref

theorem Steady.refl (session : Session) : session.Steady session := ⟨fun _ h => h, fun _ => rfl⟩

theorem steady_of_moves (session : Session) {notices : List (PeerNotice Slot)} {desk : Desk Slot}
    (h : session.desk.Moves notices desk) : session.Steady { session with desk := desk } := by
  have hkeeps := h.keepsClicks
  constructor
  · intro ref href
    cases ref with
    | plain index => exact href
    | click item => exact Nat.lt_of_lt_of_le href hkeeps.length_le
  · intro ref
    cases ref with
    | plain index => rfl
    | click item => exact hkeeps.clicks_eq item

theorem steady_spend (session : Session) : session.Steady session.spend.2 := by
  unfold spend
  split
  · exact .refl session
  · exact .refl session
  · exact ⟨fun _ h => h, fun _ => rfl⟩

theorem resolve?_has {session : Session} {name : SignalName} {ref : SignalRef}
    (h : session.resolve? name = some ref) : session.Has ref := by
  cases name with
  | plain index =>
      simp only [resolve?, Option.ite_none_right_eq_some, Option.some.injEq] at h
      obtain ⟨hi, rfl⟩ := h
      exact hi
  | click item =>
      obtain ⟨id, hid, rfl⟩ := Option.map_eq_some_iff.mp h
      exact Desk.itemNamed?_lt hid

end Session

end WidgetToolkit
