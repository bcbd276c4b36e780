import WidgetToolkit.Proofs.Script.Emission

/-! # No slot is called while it is being called

An emission takes its slots out of the signal, so none that is called within it can find them there. -/

namespace WidgetToolkit

open Run (Underway)

/-- The slots that emissions of a signal hold are all different. -/
theorem Standing.nodup_heldBy {session : Session} {frames : List Underway}
    (h : Standing session frames) (ref : SignalRef) : (heldBy ref frames).Nodup := by
  have hnodup := (h.sound ref).nodup_ids
  rw [Signal.ids, h.running] at hnodup
  exact (List.nodup_append.mp hnodup).1

namespace Run

/-- The slot that was called last by the emission on top of a stack. -/
def callee? : List Frame → Option (SignalRef × SlotId)
  | .emission ref _ emission :: _ => emission.past.getLast?.map fun entry => (ref, entry.1)
  | _ => none

/-- The slots whose calls have not ended, innermost first. What such a slot has still to do lies on
the emission that called it. -/
def calling : List Frame → List (SignalRef × SlotId)
  | [] => []
  | .body .. :: below => (callee? below).toList ++ calling below
  | _ :: below => calling below

/-! ## Calls that have not ended are of different slots -/

theorem eq_emission_of_callee? {below : List Frame} {ref : SignalRef} {id : SlotId}
    (h : callee? below = some (ref, id)) :
    ∃ value emission rest, below = .emission ref value emission :: rest ∧ id ∈ emission.ids := by
  cases below with
  | nil => cases h
  | cons frame rest =>
      cases frame with
      | body | awaiting => cases h
      | emission signal value emission =>
          obtain ⟨entry, hlast, hentry⟩ := Option.map_eq_some_iff.mp h
          obtain ⟨rfl, rfl⟩ := Prod.mk.inj hentry
          have hpast : entry ∈ emission.past := List.mem_of_getLast? hlast
          exact ⟨value, emission, rest, rfl, List.mem_map_of_mem (List.mem_append_left _ hpast)⟩

theorem mem_heldBy_of_calling {stack : List Frame} {ref : SignalRef} {id : SlotId}
    (h : (ref, id) ∈ calling stack) : id ∈ heldBy ref (underway stack) := by
  induction stack with
  | nil => cases h
  | cons frame below ih =>
      cases frame with
      | awaiting slot action answer => exact ih h
      | emission signal value emission => exact List.mem_append_left _ (ih h)
      | body slot acts =>
          rcases List.mem_append.mp h with h | h
          · obtain ⟨value, emission, rest, rfl, hid⟩ := eq_emission_of_callee? (Option.mem_toList.mp h)
            exact mem_heldBy.mpr ⟨_, List.mem_cons_self, rfl, hid⟩
          · exact ih h

theorem nodup_calling {stack : List Frame} (h : ∀ ref, (heldBy ref (underway stack)).Nodup) :
    (calling stack).Nodup := by
  induction stack with
  | nil => exact List.nodup_nil
  | cons frame below ih =>
      cases frame with
      | awaiting slot action answer => exact ih h
      | emission signal value emission =>
          apply ih
          intro ref
          exact (List.nodup_append.mp (h ref)).1
      | body slot acts =>
          have hbelow : (calling below).Nodup := ih h
          rw [calling]
          cases hcallee : callee? below with
          | none => exact hbelow
          | some callee =>
              obtain ⟨ref, id⟩ := callee
              obtain ⟨value, emission, rest, rfl, hid⟩ := eq_emission_of_callee? hcallee
              -- the emission holds the slot, so no emission below it does
              apply List.nodup_cons.mpr
              refine ⟨fun hm => ?_, hbelow⟩
              have hheld : (heldBy ref (underway (.emission ref value emission :: rest))).Nodup := h ref
              rw [underway, heldBy, if_pos rfl] at hheld
              exact (List.nodup_append.mp hheld).2.2 id (mem_heldBy_of_calling hm) id hid rfl

/-! ## When calls begin and end -/

/-- An action calls no slot before the emission that it comes to. -/
theorem called_not_mem_deeds (session : Session) (depth : Nat) (action : Action) (depth' : Nat)
    (ref : SignalRef) (id : SlotId) (value : Int) :
    .called depth' ref id value ∉ session.deeds depth action := by
  intro hm
  have hquiet := call?_deeds (session.perform_outcome depth action)
  cases List.filterMap_eq_nil_iff.mp hquiet _ hm

theorem calling_act (run : Run) (slot : String) (action : Action) :
    calling (run.act slot action).stack = calling run.stack := by
  simp only [act]
  split <;> rfl

/-- A step lets the calls that have not ended be, except that it may call one more slot, or end the
innermost call when its slot has nothing left to do. -/
theorem calling_next {run run' : Run} (hnext : run.next? = some run') :
    (∃ depth ref id value, run.deeds = [.called depth ref id value] ∧
        calling run'.stack = (ref, id) :: calling run.stack) ∨
      ((∀ depth ref id value, .called depth ref id value ∉ run.deeds) ∧
        (calling run'.stack = calling run.stack ∨
          ∃ slot below, run.stack = .body slot [] :: below ∧
            calling run.stack = (callee? below).toList ++ calling run'.stack)) := by
  obtain ⟨session, stack, events⟩ := run
  cases stack with
  | nil => cases hnext
  | cons frame below =>
      cases frame with
      | awaiting slot action answer =>
          obtain rfl := Option.some.inj hnext
          exact .inr ⟨by simp [deeds], .inl rfl⟩
      | body slot acts =>
          cases acts with
          | nil =>
              obtain rfl := Option.some.inj hnext
              exact .inr ⟨by simp [deeds], .inr ⟨slot, below, rfl, rfl⟩⟩
          | cons action acts =>
              obtain rfl := Option.some.inj hnext
              exact .inr ⟨called_not_mem_deeds session (depth below) action,
                .inl (calling_act _ slot action)⟩
      | emission ref value emission =>
          obtain rfl := Option.some.inj hnext
          cases hwaiting : emission.waiting with
          | nil => exact .inr ⟨by simp [deeds, hwaiting], .inl (by simp [advance, hwaiting, calling])⟩
          | cons next waiting =>
              by_cases hremoved : next.1 ∈ (session.signal ref).removed
              · refine .inr ⟨by simp [deeds, hwaiting, hremoved], .inl ?_⟩
                simp [advance, hwaiting, hremoved, calling]
              · refine .inl ⟨depth below, ref, next.1, value, by simp [deeds, hwaiting, hremoved], ?_⟩
                simp [advance, hwaiting, hremoved, call, calling, callee?]

theorem exists_next_of_called {run : Run} {depth : Nat} {ref : SignalRef} {id : SlotId} {value : Int}
    (h : .called depth ref id value ∈ run.deeds) : ∃ run', run.next? = some run' := by
  cases hnext : run.next? with
  | some run' => exact ⟨run', rfl⟩
  | none =>
      have hstack := stack_eq_nil hnext
      simp [deeds, hstack] at h

end Run

end WidgetToolkit
