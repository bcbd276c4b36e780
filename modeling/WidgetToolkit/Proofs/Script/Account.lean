import WidgetToolkit.Proofs.Script.Reach

/-! # The account of a log

Which slots an emission is to call follows from what has happened before, and which of them it calls
follows from what happens meanwhile. Neither depends on how signals keep their slots. -/

namespace WidgetToolkit

/-- The slots that are connected and not disconnected, in the order of connection, and those that
the unfinished emissions hold, innermost first. -/
structure Account where
  connected : SignalRef → List SlotId
  holding : List (SignalRef × List SlotId)

namespace Account

def empty : Account := ⟨fun _ => [], []⟩

/-- Whether an unfinished emission of a signal holds a slot. -/
def Holds (account : Account) (ref : SignalRef) (id : SlotId) : Prop :=
  ∃ held ∈ account.holding, held.1 = ref ∧ id ∈ held.2

instance (account : Account) (ref : SignalRef) (id : SlotId) : Decidable (account.Holds ref id) :=
  inferInstanceAs (Decidable (∃ held ∈ account.holding, held.1 = ref ∧ id ∈ held.2))

/-- The slots that an emission is to call if it begins now. -/
def targets (account : Account) (ref : SignalRef) : List SlotId :=
  (account.connected ref).filter fun id => ¬account.Holds ref id

/-- Changes the slots of one signal. -/
def update (account : Account) (ref : SignalRef) (change : List SlotId → List SlotId) : Account :=
  { account with
    connected := fun other => if other = ref then change (account.connected ref)
      else account.connected other }

def record (account : Account) : Deed → Account
  | .connected ref id => account.update ref (· ++ [id])
  | .disconnected ref id => account.update ref (·.filter (· != id))
  | .cleared ref => account.update ref fun _ => []
  | .began _ ref _ => { account with holding := (ref, account.targets ref) :: account.holding }
  | .called .. => account
  | .ended .. => { account with holding := account.holding.tail }

/-- The account after a log. -/
def after (log : List Deed) : Account := log.foldl record empty

theorem after_append (log deeds : List Deed) :
    after (log ++ deeds) = deeds.foldl record (after log) :=
  List.foldl_append

end Account

/-! ## The turns of an emission -/

/-- It happens during a call of a slot by an emission at a depth. -/
def Deed.Within (depth : Nat) : Deed → Prop
  | .began inner _ _ => depth < inner
  | .called inner _ _ _ => depth < inner
  | .ended inner _ => depth < inner
  | _ => True

/-- Slots have had their turns, one after the other, while the deeds were done: every slot that was
connected when its turn came was called, and the others were passed over. What the calls did
themselves lies deeper. -/
inductive Turns (depth : Nat) (ref : SignalRef) (value : Int) (start : Account) :
    List SlotId → List Deed → Prop
  | nil : Turns depth ref value start [] []
  | passed {ids : List SlotId} {deeds : List Deed} {id : SlotId}
      (h : Turns depth ref value start ids deeds)
      (hid : id ∉ (deeds.foldl Account.record start).connected ref) :
      Turns depth ref value start (ids ++ [id]) deeds
  | called {ids : List SlotId} {deeds body : List Deed} {id : SlotId}
      (h : Turns depth ref value start ids deeds)
      (hid : id ∈ (deeds.foldl Account.record start).connected ref)
      (hbody : ∀ deed ∈ body, deed.Within depth) :
      Turns depth ref value start (ids ++ [id]) (deeds ++ .called depth ref id value :: body)

/-- The call of the last slot that has had its turn may go on. -/
structure Calling (depth : Nat) (ref : SignalRef) (value : Int) (start : Account)
    (ids : List SlotId) (deeds : List Deed) : Prop where
  extend : ∀ further : List Deed, (∀ deed ∈ further, deed.Within depth) →
    Turns depth ref value start ids (deeds ++ further)

section

variable {depth : Nat} {ref : SignalRef} {value : Int} {start : Account} {ids : List SlotId}
  {deeds : List Deed}

theorem Calling.turns (h : Calling depth ref value start ids deeds) :
    Turns depth ref value start ids deeds := by
  simpa using h.extend [] (by simp)

theorem Calling.append (h : Calling depth ref value start ids deeds) {further : List Deed}
    (hfurther : ∀ deed ∈ further, deed.Within depth) :
    Calling depth ref value start ids (deeds ++ further) := by
  refine ⟨fun rest hrest => ?_⟩
  rw [List.append_assoc]
  refine h.extend _ fun deed hm => ?_
  rcases List.mem_append.mp hm with hm | hm
  · exact hfurther deed hm
  · exact hrest deed hm

theorem Turns.call (h : Turns depth ref value start ids deeds) {id : SlotId}
    (hid : id ∈ (deeds.foldl Account.record start).connected ref) :
    Calling depth ref value start (ids ++ [id]) (deeds ++ [.called depth ref id value]) := by
  refine ⟨fun further hfurther => ?_⟩
  rw [List.append_assoc]
  exact h.called hid hfurther

end

/-! ## What turns depend on -/

namespace Account

theorem record_connected_of_ne (account : Account) {deed : Deed} {ref : SignalRef}
    (h : deed.signal ≠ ref) : (account.record deed).connected ref = account.connected ref := by
  cases deed with
  | connected | disconnected | cleared => exact if_neg (Ne.symm h)
  | began | called | ended => rfl

theorem record_connected_congr {account account' : Account} {ref : SignalRef}
    (h : account.connected ref = account'.connected ref) (deed : Deed) :
    (account.record deed).connected ref = (account'.record deed).connected ref := by
  by_cases hsignal : deed.signal = ref
  · subst hsignal
    cases deed with
    | connected | disconnected | cleared =>
        simp only [Deed.signal] at h
        simp [record, update, Deed.signal, h]
    | began | called | ended => exact h
  · rw [record_connected_of_ne _ hsignal, record_connected_of_ne _ hsignal, h]

/-- What is done to other signals does not matter to the slots of a signal. -/
theorem connected_foldl_filter {account account' : Account} {ref : SignalRef}
    (h : account.connected ref = account'.connected ref) (deeds : List Deed) :
    ((deeds.filter (·.signal = ref)).foldl record account).connected ref =
      (deeds.foldl record account').connected ref := by
  induction deeds generalizing account account' with
  | nil => exact h
  | cons deed deeds ih =>
      by_cases hsignal : deed.signal = ref
      · rw [List.filter_cons_of_pos (by simpa using hsignal)]
        exact ih (record_connected_congr h deed)
      · rw [List.filter_cons_of_neg (by simpa using hsignal)]
        exact ih (h.trans (record_connected_of_ne account' hsignal).symm)

end Account

section

variable {depth : Nat} {ref : SignalRef} {value : Int} {start : Account} {ids : List SlotId}
  {deeds : List Deed}

/-- The turns of an emission are the same without all that is done to other signals. -/
theorem Turns.restrict (h : Turns depth ref value start ids deeds) :
    Turns depth ref value start ids (deeds.filter (·.signal = ref)) := by
  induction h with
  | nil => exact .nil
  | passed _ hid ih =>
      refine ih.passed ?_
      rwa [Account.connected_foldl_filter rfl]
  | @called ids deeds body id _ hid hbody ih =>
      rw [List.filter_append, List.filter_cons_of_pos (by simp [Deed.signal])]
      refine ih.called ?_ fun deed hm => hbody deed (List.mem_filter.mp hm).1
      rwa [Account.connected_foldl_filter rfl]

/-- An emission calls slots of its own, with its value. -/
theorem Turns.of_called (h : Turns depth ref value start ids deeds) {other : SignalRef}
    {id : SlotId} {value' : Int} (hm : .called depth other id value' ∈ deeds) :
    other = ref ∧ value' = value ∧ id ∈ ids := by
  induction h with
  | nil => cases hm
  | passed _ _ ih =>
      obtain ⟨hother, hvalue, hid⟩ := ih hm
      exact ⟨hother, hvalue, List.mem_append_left _ hid⟩
  | called _ _ hbody ih =>
      rcases List.mem_append.mp hm with hm | hm
      · obtain ⟨hother, hvalue, hid⟩ := ih hm
        exact ⟨hother, hvalue, List.mem_append_left _ hid⟩
      · rcases List.mem_cons.mp hm with heq | hm
        · cases heq
          exact ⟨rfl, rfl, List.mem_append_right _ List.mem_cons_self⟩
        · exact absurd (hbody _ hm) (Nat.lt_irrefl depth)

end

end WidgetToolkit
