import Mathlib.Data.List.Nodup
import WidgetToolkit.Signal

/-! # Signals keep the order of connection

The slots that emissions hold, outermost first, and those that none holds make up one list in the
order of connection. Emissions only move slots between the two parts. -/

namespace WidgetToolkit

variable {σ : Type}

/-- The slots that an emission holds. -/
def Emission.ids (emission : Emission σ) : List SlotId :=
  (emission.past ++ emission.waiting).map (·.1)

namespace Signal

/-- All slots of a signal, also the disconnected ones that are still to be dropped. -/
def ids (signal : Signal σ) : List SlotId := signal.running ++ signal.slots.map (·.1)

/-- The slots that are connected and not disconnected. -/
def connected (signal : Signal σ) : List SlotId := signal.ids.filter (!signal.isRemoved ·)

/-- Slots are numbered in the order of their connection, and only emissions hold slots or keep
disconnected ones. -/
structure Sound (signal : Signal σ) : Prop where
  ascending : signal.ids.Pairwise (·.number < ·.number)
  lt_next : ∀ id ∈ signal.ids, id.number < signal.nextId
  removed_lt : ∀ id ∈ signal.removed, id.number < signal.nextId
  idle : signal.emitting = false → signal.running = [] ∧ signal.removed = []

@[simp] theorem isRemoved_eq (signal : Signal σ) (id : SlotId) :
    signal.isRemoved id = decide (id ∈ signal.removed) := by
  simp [isRemoved]

theorem mem_connected {signal : Signal σ} {id : SlotId} :
    id ∈ signal.connected ↔ id ∈ signal.ids ∧ id ∉ signal.removed := by
  simp [connected]

theorem sound_empty : (empty : Signal σ).Sound :=
  ⟨.nil, by simp [empty, ids], by simp [empty], fun _ => ⟨rfl, rfl⟩⟩

theorem Sound.nodup_ids {signal : Signal σ} (h : signal.Sound) : signal.ids.Nodup :=
  h.ascending.imp fun hlt heq => Nat.ne_of_lt hlt (congrArg SlotId.number heq)

/-! ## Connecting -/

section

variable {signal : Signal σ}

theorem ids_connect (signal : Signal σ) (slot : σ) :
    (signal.connect slot).2.ids = signal.ids ++ [(signal.connect slot).1] := by
  simp [connect, ids]

theorem Sound.connect (h : signal.Sound) (slot : σ) : (signal.connect slot).2.Sound := by
  refine ⟨?_, ?_, ?_, h.idle⟩
  · rw [ids_connect]
    refine List.pairwise_append.mpr ⟨h.ascending, List.pairwise_singleton _ _, ?_⟩
    intro id hm new hnew
    rw [List.mem_singleton.mp hnew]
    exact h.lt_next id hm
  · intro id hm
    rw [ids_connect] at hm
    rcases List.mem_append.mp hm with hm | hm
    · exact Nat.lt_succ_of_lt (h.lt_next id hm)
    · rw [List.mem_singleton.mp hm]
      exact Nat.lt_succ_self _
  · exact fun id hm => Nat.lt_succ_of_lt (h.removed_lt id hm)

/-- The number of a new slot is beyond those of all slots there were. -/
theorem Sound.connect_not_mem (h : signal.Sound) (slot : σ) :
    (signal.connect slot).1 ∉ signal.ids := fun hm => Nat.lt_irrefl _ (h.lt_next _ hm)

theorem Sound.connected_connect (h : signal.Sound) (slot : σ) :
    (signal.connect slot).2.connected = signal.connected ++ [(signal.connect slot).1] := by
  have hnew : (signal.connect slot).1 ∉ signal.removed :=
    fun hm => Nat.lt_irrefl _ (h.removed_lt _ hm)
  have hsame : (signal.connect slot).2.isRemoved = signal.isRemoved := rfl
  rw [connected, ids_connect, List.filter_append, hsame]
  simp [connected, isRemoved, hnew]

/-! ## Disconnecting -/

theorem holds_iff {id : SlotId} : signal.holds id = true ↔ id ∈ signal.ids := by
  simp [holds, ids, or_comm]

/-- A slot that is not connected cannot be disconnected. During an emission a slot is kept among the
removed ones, otherwise it goes at once. -/
theorem Sound.disconnect_cases (h : signal.Sound) (id : SlotId) :
    ((signal.disconnect id).2 = signal ∧ id ∉ signal.connected) ∨
      (signal.emitting = true ∧ id ∈ signal.ids ∧
        (signal.disconnect id).2 = { signal with removed := signal.removed ++ [id] }) ∨
      (signal.emitting = false ∧
        (signal.disconnect id).2 = { signal with slots := signal.slots.filter (·.1 != id) }) := by
  unfold Signal.disconnect
  split
  · rename_i hgone
    refine .inl ⟨rfl, fun hm => ?_⟩
    have hids := mem_connected.mp hm
    rcases hgone with hbeyond | hremoved
    · exact Nat.not_le_of_lt (h.lt_next id hids.1) hbeyond
    · exact hids.2 (by simpa using hremoved)
  · split
    · rename_i hemitting
      split
      · rename_i hheld
        exact .inr (.inl ⟨hemitting, holds_iff.mp hheld, rfl⟩)
      · rename_i hheld
        exact .inl ⟨rfl, fun hm => hheld (holds_iff.mpr (mem_connected.mp hm).1)⟩
    · rename_i hidle
      exact .inr (.inr ⟨by simpa using hidle, rfl⟩)

/-- It is exactly the connected slots that can be disconnected. -/
theorem Sound.disconnect_fst (h : signal.Sound) {id : SlotId} :
    (signal.disconnect id).1 = true ↔ id ∈ signal.connected := by
  rw [mem_connected]
  unfold Signal.disconnect
  split
  · rename_i hgone
    refine iff_of_false Bool.false_ne_true fun hm => ?_
    rcases hgone with hbeyond | hremoved
    · exact Nat.not_le_of_lt (h.lt_next id hm.1) hbeyond
    · exact hm.2 (by simpa using hremoved)
  · rename_i hknown
    have hkept : id ∉ signal.removed := by simpa using (not_or.mp hknown).2
    split
    · have hheld : signal.holds id = true ↔ id ∈ signal.ids := holds_iff
      by_cases hid : signal.holds id
      · simp [hid, hheld.mp hid, hkept]
      · simp [hid, hheld.not.mp hid]
    · rename_i hidle
      obtain ⟨hrunning, -⟩ := h.idle (by simpa using hidle)
      simp [ids, hrunning, hkept]

theorem Sound.remove (h : signal.Sound) (hemitting : signal.emitting = true)
    {dropped : List SlotId} (hdropped : ∀ id ∈ dropped, id ∈ signal.ids) :
    Sound { signal with removed := signal.removed ++ dropped } := by
  refine ⟨h.ascending, h.lt_next, ?_, ?_⟩
  · intro id hm
    rcases List.mem_append.mp hm with hm | hm
    · exact h.removed_lt id hm
    · exact h.lt_next id (hdropped id hm)
  · simp [hemitting]

theorem connected_remove (signal : Signal σ) (dropped : List SlotId) :
    connected { signal with removed := signal.removed ++ dropped } =
      signal.connected.filter (!dropped.contains ·) := by
  have hids : ids { signal with removed := signal.removed ++ dropped } = signal.ids := rfl
  rw [connected, connected, hids, List.filter_filter]
  refine List.filter_congr fun id _ => ?_
  simp [isRemoved, Bool.and_comm]

theorem Sound.sieve (h : signal.Sound) (hidle : signal.emitting = false)
    (keep : SlotId × σ → Bool) : Sound { signal with slots := signal.slots.filter keep } := by
  obtain ⟨hrunning, hremoved⟩ := h.idle hidle
  have hsub : (ids { signal with slots := signal.slots.filter keep }).Sublist signal.ids := by
    exact List.Sublist.append_left (List.filter_sublist.map _) _
  exact ⟨h.ascending.sublist hsub, fun id hm => h.lt_next id (hsub.subset hm), h.removed_lt, h.idle⟩

theorem Sound.disconnect (h : signal.Sound) (id : SlotId) : (signal.disconnect id).2.Sound := by
  rcases h.disconnect_cases id with ⟨heq, _⟩ | ⟨hemitting, hid, heq⟩ | ⟨hidle, heq⟩
  · rw [heq]
    exact h
  · rw [heq]
    exact h.remove hemitting (by simpa using hid)
  · rw [heq]
    exact h.sieve hidle _

theorem Sound.connected_disconnect (h : signal.Sound) (id : SlotId) :
    (signal.disconnect id).2.connected = signal.connected.filter (· != id) := by
  rcases h.disconnect_cases id with ⟨heq, hid⟩ | ⟨_, _, heq⟩ | ⟨hidle, heq⟩
  · rw [heq, eq_comm, List.filter_eq_self]
    intro other hm
    simp only [bne_iff_ne, ne_eq]
    exact fun hsame => hid (hsame ▸ hm)
  · rw [heq, connected_remove]
    refine List.filter_congr fun other _ => ?_
    rw [List.contains_cons, List.contains_nil, Bool.or_false]
    rfl
  · obtain ⟨hrunning, hremoved⟩ := h.idle hidle
    rw [heq]
    simp [connected, ids, isRemoved, hrunning, hremoved, List.filter_map, Function.comp_def]

theorem Sound.disconnectAll (h : signal.Sound) : signal.disconnectAll.Sound := by
  unfold Signal.disconnectAll
  split
  · rename_i hemitting
    refine h.remove hemitting fun id hm => ?_
    simpa [ids, or_comm] using hm
  · rename_i hidle
    simpa using h.sieve (by simpa using hidle) fun _ => false

theorem Sound.connected_disconnectAll (h : signal.Sound) :
    signal.disconnectAll.connected = [] := by
  unfold Signal.disconnectAll
  split
  · rw [connected_remove, List.filter_eq_nil_iff]
    intro id hm
    have hids : id ∈ signal.running ++ signal.slots.map (·.1) := (mem_connected.mp hm).1
    have hdropped : id ∈ signal.slots.map (·.1) ++ signal.running :=
      List.mem_append.mpr (List.mem_append.mp hids).symm
    rw [List.contains_iff_mem.mpr hdropped]
    simp
  · rename_i hidle
    simp [connected, ids, (h.idle (by simpa using hidle)).1]

/-- The connected slots that no emission holds are counted, and the others are not. -/
theorem length_connected (signal : Signal σ) :
    signal.connected.length = signal.length + (signal.running.filter (!signal.isRemoved ·)).length := by
  rw [connected, ids, List.filter_append, List.length_append, List.filter_map, List.length_map,
    Nat.add_comm]
  rfl

/-! ## What connecting and disconnecting leave alone -/

/-- All that a signal has of the slots other than one. -/
def without (signal : Signal σ) (id : SlotId) : Signal σ :=
  { signal with
    slots := signal.slots.filter (·.1 != id)
    removed := signal.removed.filter (· != id)
    running := signal.running.filter (· != id) }

theorem without_disconnect (signal : Signal σ) (id : SlotId) :
    (signal.disconnect id).2.without id = signal.without id := by
  unfold Signal.disconnect
  split
  · rfl
  · split
    · split
      · simp [without]
      · rfl
    · simp [without]

@[simp] theorem disconnect_running (signal : Signal σ) (id : SlotId) :
    (signal.disconnect id).2.running = signal.running := by
  unfold Signal.disconnect
  split
  · rfl
  · split
    · split <;> rfl
    · rfl

@[simp] theorem disconnect_emitting (signal : Signal σ) (id : SlotId) :
    (signal.disconnect id).2.emitting = signal.emitting := by
  unfold Signal.disconnect
  split
  · rfl
  · split
    · split <;> rfl
    · rfl

@[simp] theorem disconnect_nextId (signal : Signal σ) (id : SlotId) :
    (signal.disconnect id).2.nextId = signal.nextId := by
  unfold Signal.disconnect
  split
  · rfl
  · split
    · split <;> rfl
    · rfl

@[simp] theorem disconnectAll_running (signal : Signal σ) :
    signal.disconnectAll.running = signal.running := by
  unfold Signal.disconnectAll
  split <;> rfl

@[simp] theorem disconnectAll_emitting (signal : Signal σ) :
    signal.disconnectAll.emitting = signal.emitting := by
  unfold Signal.disconnectAll
  split <;> rfl

@[simp] theorem disconnectAll_nextId (signal : Signal σ) :
    signal.disconnectAll.nextId = signal.nextId := by
  unfold Signal.disconnectAll
  split <;> rfl

theorem disconnect_slots_subset (signal : Signal σ) (id : SlotId) :
    (signal.disconnect id).2.slots ⊆ signal.slots := by
  unfold Signal.disconnect
  split
  · exact List.Subset.refl _
  · split
    · split <;> exact List.Subset.refl _
    · exact List.filter_subset_self _

theorem disconnectAll_slots_subset (signal : Signal σ) :
    signal.disconnectAll.slots ⊆ signal.slots := by
  unfold Signal.disconnectAll
  split
  · exact List.Subset.refl _
  · exact List.nil_subset _

theorem removed_subset_disconnect (signal : Signal σ) (id : SlotId) :
    signal.removed ⊆ (signal.disconnect id).2.removed := by
  unfold Signal.disconnect
  split
  · simp
  · split
    · split <;> simp
    · simp

theorem removed_subset_disconnectAll (signal : Signal σ) :
    signal.removed ⊆ signal.disconnectAll.removed := by
  unfold Signal.disconnectAll
  split <;> simp

end

/-! ## Emissions -/

section

variable {signal : Signal σ}

@[simp] theorem begin_ids (signal : Signal σ) :
    signal.begin.1.ids = signal.slots.map (·.1) := rfl

@[simp] theorem begin_removed (signal : Signal σ) : signal.begin.2.removed = signal.removed := rfl

@[simp] theorem finish_nextId (signal : Signal σ) (emission : Emission σ) :
    (signal.finish emission).nextId = signal.nextId := by
  unfold finish
  split <;> rfl

theorem ids_begin (signal : Signal σ) : signal.begin.2.ids = signal.ids := by
  simp [begin, ids]

theorem Sound.begin (h : signal.Sound) : signal.begin.2.Sound := by
  refine ⟨?_, ?_, h.removed_lt, by simp [Signal.begin]⟩
  · rw [ids_begin]
    exact h.ascending
  · rw [ids_begin]
    exact h.lt_next

theorem connected_begin (signal : Signal σ) : signal.begin.2.connected = signal.connected := by
  rw [connected, ids_begin]
  rfl

/-- An emission is the innermost of those that hold slots of a signal, and outermost unless it is
nested. -/
structure Innermost (signal : Signal σ) (emission : Emission σ) (held : List SlotId) : Prop where
  running : signal.running = held ++ emission.ids
  emitting : signal.emitting = true
  outer : emission.outer = held.length
  outermost : emission.nested = false → held = []

variable {emission : Emission σ} {held : List SlotId}

theorem Innermost.finish_running (h : signal.Innermost emission held) :
    (signal.finish emission).running = held := by
  unfold finish
  split <;> simp [h.running, h.outer]

theorem Innermost.finish_emitting (h : signal.Innermost emission held) :
    (signal.finish emission).emitting = emission.nested := by
  unfold finish
  split
  · rename_i hnested
    rw [hnested]
    exact h.emitting
  · rename_i hnested
    simpa using hnested

theorem Innermost.ids_finish_of_nested (h : signal.Innermost emission held)
    (hnested : emission.nested = true) : (signal.finish emission).ids = signal.ids := by
  simp [finish, hnested, ids, h.running, h.outer, Emission.ids]

/-- The outermost emission drops what is disconnected. -/
theorem Innermost.ids_finish_of_outermost (h : signal.Innermost emission held)
    (hnested : emission.nested = false) : (signal.finish emission).ids = signal.connected := by
  have hheld := h.outermost hnested
  subst hheld
  simp [finish, hnested, connected, ids, h.running, h.outer, Emission.ids, List.filter_map,
    Function.comp_def]

theorem finish_removed_of_nested (hnested : emission.nested = true) :
    (signal.finish emission).removed = signal.removed := by
  simp [finish, hnested]

theorem finish_removed_of_outermost (hnested : emission.nested = false) :
    (signal.finish emission).removed = [] := by
  simp [finish, hnested]

theorem Innermost.connected_finish (h : signal.Innermost emission held) :
    (signal.finish emission).connected = signal.connected := by
  cases hnested : emission.nested with
  | true =>
      rw [connected, connected, h.ids_finish_of_nested hnested]
      simp only [isRemoved, finish_removed_of_nested hnested]
  | false =>
      rw [connected, h.ids_finish_of_outermost hnested, List.filter_eq_self]
      simp [isRemoved, finish_removed_of_outermost hnested]

theorem Innermost.sound_finish (h : signal.Innermost emission held) (hsound : signal.Sound) :
    (signal.finish emission).Sound := by
  cases hnested : emission.nested with
  | true =>
      have hids := h.ids_finish_of_nested hnested
      refine ⟨hids ▸ hsound.ascending, ?_, ?_, ?_⟩
      · rw [hids, finish_nextId]
        exact hsound.lt_next
      · rw [finish_removed_of_nested hnested, finish_nextId]
        exact hsound.removed_lt
      · simp [h.finish_emitting, hnested]
  | false =>
      have hids := h.ids_finish_of_outermost hnested
      have hsub : signal.connected.Sublist signal.ids := List.filter_sublist
      refine ⟨hids ▸ hsound.ascending.sublist hsub, ?_, ?_, fun _ => ⟨?_, ?_⟩⟩
      · rw [hids, finish_nextId]
        exact fun id hm => hsound.lt_next id (hsub.subset hm)
      · simp [finish_removed_of_outermost hnested]
      · rw [h.finish_running, h.outermost hnested]
      · exact finish_removed_of_outermost hnested

end

end Signal

end WidgetToolkit
