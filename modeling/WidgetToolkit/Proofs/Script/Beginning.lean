import WidgetToolkit.Proofs.Lists
import WidgetToolkit.Proofs.Script.Account
import WidgetToolkit.Proofs.Script.Standing

/-! # Emissions in a log

A log tells where an emission begins, and which slots it is to call. -/

namespace WidgetToolkit

open Run (Underway)

/-- Where an emission begins in a log. -/
structure Beginning where
  before : List Deed
  depth : Nat
  signal : SignalRef
  value : Int

namespace Beginning

def deed (b : Beginning) : Deed := .began b.depth b.signal b.value

/-- The slots that the emission is to call. -/
def targets (b : Beginning) : List SlotId := (Account.after b.before).targets b.signal

def start (b : Beginning) : Account := Account.after (b.before ++ [b.deed])

/-- What there is to say about an emission that has ended, and about what was done meanwhile. -/
structure Closed (b : Beginning) (deeds : List Deed) : Prop where
  turns : Turns b.depth b.signal b.value b.start b.targets deeds
  nodup : b.targets.Nodup
  fresh : ∀ id, .connected b.signal id ∈ deeds → id ∉ b.targets

end Beginning

/-- An emission holds slots that were its targets when it began, and others that were disconnected
then. -/
structure Covers (signal : Signal Slot) (emission : Emission Slot) (targets : List SlotId) :
    Prop where
  targets_eq : targets = emission.ids.filter (· ∈ targets)
  dropped : ∀ id ∈ emission.ids, id ∉ targets → id ∈ signal.removed

theorem Covers.mono {signal signal' : Signal Slot} {emission : Emission Slot}
    {targets : List SlotId} (h : Covers signal emission targets)
    (hremoved : signal.removed ⊆ signal'.removed) : Covers signal' emission targets :=
  ⟨h.targets_eq, fun id hid htarget => hremoved (h.dropped id hid htarget)⟩

theorem Covers.mem {signal : Signal Slot} {emission : Emission Slot} {targets : List SlotId}
    (h : Covers signal emission targets) {id : SlotId} (hid : id ∈ targets) :
    id ∈ emission.ids := by
  rw [h.targets_eq] at hid
  exact (List.mem_filter.mp hid).1

/-- An emission that began there is underway. While a slot of it is being called, anything may
follow. -/
structure Beginning.Open (b : Beginning) (session : Session) (frame : Underway) (calling : Prop)
    (deeds : List Deed) : Prop where
  signal_eq : frame.signal = b.signal
  value_eq : frame.value = b.value
  covers : Covers (session.signal b.signal) frame.emission b.targets
  fresh : ∀ id, .connected b.signal id ∈ deeds → id ∉ b.targets
  turns : Turns b.depth b.signal b.value b.start
    ((frame.emission.past.map (·.1)).filter (· ∈ b.targets)) deeds
  calling : calling → Calling b.depth b.signal b.value b.start
    ((frame.emission.past.map (·.1)).filter (· ∈ b.targets)) deeds

/-- The emission that began there is one of those underway. The innermost of them is calling a slot
if it is busy, and the others are. -/
def Beginning.Unfinished (b : Beginning) (session : Session) (frames : List Underway) (busy : Prop)
    (deeds : List Deed) : Prop :=
  ∃ above frame below, frames = above ++ frame :: below ∧ below.length = b.depth ∧
    b.Open session frame (above ≠ [] ∨ busy) deeds

/-- The emission that began there has ended. -/
def Beginning.Ended (b : Beginning) (deeds : List Deed) : Prop :=
  ∃ meanwhile later, deeds = meanwhile ++ .ended b.depth b.signal :: later ∧ b.Closed meanwhile

/-! ## Beginnings -/

namespace Beginning

variable {b : Beginning} {session session' : Session} {frame : Underway} {deeds log : List Deed}

theorem foldl_start (hlog : log = b.before ++ b.deed :: deeds) :
    deeds.foldl Account.record b.start = Account.after log := by
  rw [hlog, start, ← Account.after_append, List.append_assoc]
  rfl

theorem Ended.append (h : b.Ended deeds) (further : List Deed) : b.Ended (deeds ++ further) := by
  obtain ⟨meanwhile, later, rfl, hclosed⟩ := h
  exact ⟨meanwhile, later ++ further, by simp, hclosed⟩

/-- The log grows by something that happens during a call. -/
theorem Open.carry {calling : Prop} (h : b.Open session frame True deeds)
    (hremoved : (session.signal b.signal).removed ⊆ (session'.signal b.signal).removed)
    {deed : Deed} (hwithin : deed.Within b.depth)
    (hfresh : ∀ id, deed = .connected b.signal id → id ∉ b.targets) :
    b.Open session' frame calling (deeds ++ [deed]) := by
  have hcalling : Calling b.depth b.signal b.value b.start _ (deeds ++ [deed]) :=
    (h.calling trivial).append fun other hm => List.mem_singleton.mp hm ▸ hwithin
  refine ⟨h.signal_eq, h.value_eq, h.covers.mono hremoved, ?_, hcalling.turns, fun _ => hcalling⟩
  intro id hm
  rcases List.mem_append.mp hm with hm | hm
  · exact h.fresh id hm
  · exact hfresh id (List.mem_singleton.mp hm).symm

/-- Nothing begins with the deed. -/
theorem of_append {goal : Beginning → List Deed → Prop} {deed : Deed}
    (hdeed : ∀ depth ref value, deed ≠ .began depth ref value)
    (h : ∀ (b : Beginning) deeds, log = b.before ++ b.deed :: deeds → goal b (deeds ++ [deed]))
    (b : Beginning) (deeds : List Deed) (hlog : log ++ [deed] = b.before ++ b.deed :: deeds) :
    goal b deeds := by
  rcases append_singleton_eq_append_cons_iff.mp hlog with ⟨rest, rfl, hrest⟩ | ⟨_, hbegan, _⟩
  · exact h b rest hrest
  · exact absurd hbegan.symm (hdeed _ _ _)

/-! ## Emissions underway -/

theorem mem_targets (h : Standing session frames) (hframe : frame ∈ frames) {calling : Prop}
    (hopen : b.Open session frame calling deeds) {id : SlotId} (hid : id ∈ b.targets) :
    id ∈ (session.signal b.signal).ids := by
  refine List.mem_append_left _ ?_
  rw [h.running, mem_heldBy]
  exact ⟨frame, hframe, hopen.signal_eq, hopen.covers.mem hid⟩

namespace Unfinished

variable {frames below : List Underway} {busy busy' : Prop}

theorem mono (h : b.Unfinished session frames busy deeds) (himp : busy' → busy) :
    b.Unfinished session frames busy' deeds := by
  obtain ⟨above, frame, below, hframes, hdepth, hopen⟩ := h
  refine ⟨above, frame, below, hframes, hdepth, ?_⟩
  exact { hopen with calling := fun hcalling => hopen.calling (hcalling.imp_right himp) }

theorem steady (h : b.Unfinished session frames busy deeds) (hsession : session.Steady session') :
    b.Unfinished session' frames busy deeds := by
  obtain ⟨above, frame, below, hframes, hdepth, hopen⟩ := h
  refine ⟨above, frame, below, hframes, hdepth, { hopen with covers := ?_ }⟩
  rw [hsession.signal_eq]
  exact hopen.covers

theorem not_idle : ¬b.Unfinished session [] busy deeds := by
  rintro ⟨above, frame, below, hframes, -⟩
  simp at hframes

/-- It is the innermost one. -/
theorem here (hdepth : below.length = b.depth) (hopen : b.Open session frame busy deeds) :
    b.Unfinished session (frame :: below) busy deeds := by
  refine ⟨[], frame, below, rfl, hdepth, { hopen with calling := fun hcalling => ?_ }⟩
  exact hopen.calling (hcalling.resolve_left fun hne => hne rfl)

/-- There is another one within it. -/
theorem beneath (h : b.Unfinished session below True deeds) :
    b.Unfinished session (frame :: below) busy deeds := by
  obtain ⟨above, frame', below', rfl, hdepth, hopen⟩ := h
  refine ⟨frame :: above, frame', below', rfl, hdepth, ?_⟩
  exact { hopen with calling := fun _ => hopen.calling (.inr trivial) }

theorem here_or_beneath (h : b.Unfinished session (frame :: below) busy deeds) :
    (below.length = b.depth ∧ b.Open session frame busy deeds) ∨
      b.Unfinished session below True deeds := by
  obtain ⟨above, frame', below', hframes, hdepth, hopen⟩ := h
  cases above with
  | nil =>
      obtain ⟨rfl, rfl⟩ := List.cons.inj hframes
      exact .inl ⟨hdepth, { hopen with calling := fun hbusy => hopen.calling (.inr hbusy) }⟩
  | cons _ above =>
      obtain ⟨rfl, hbelow⟩ := List.cons.inj hframes
      refine .inr ⟨above, frame', below', hbelow, hdepth, ?_⟩
      exact { hopen with calling := fun _ => hopen.calling (.inl (by simp)) }

theorem mem_ids (h : b.Unfinished session frames busy deeds) (hstanding : Standing session frames)
    {id : SlotId} (hid : id ∈ b.targets) : id ∈ (session.signal b.signal).ids := by
  obtain ⟨above, frame, below, hframes, hdepth, hopen⟩ := h
  exact mem_targets hstanding (by simp [hframes]) hopen hid

/-- The log grows by something that happens during the calls of all emissions. -/
theorem carry (h : b.Unfinished session frames True deeds)
    (hremoved : ∀ frame ∈ frames, (session.signal frame.signal).removed ⊆
      (session'.signal frame.signal).removed)
    {deed : Deed} (hwithin : ∀ depth, depth < frames.length → deed.Within depth)
    (hfresh : ∀ id, deed = .connected b.signal id → id ∉ b.targets) :
    b.Unfinished session' frames busy (deeds ++ [deed]) := by
  obtain ⟨above, frame, below, hframes, hdepth, hopen⟩ := h
  refine ⟨above, frame, below, hframes, hdepth, ?_⟩
  have hbusy : b.Open session frame True deeds :=
    { hopen with calling := fun _ => hopen.calling (.inr trivial) }
  have hkeep := hremoved frame (by simp [hframes])
  rw [hopen.signal_eq] at hkeep
  exact hbusy.carry hkeep (hwithin _ (hdepth ▸ length_lt_of_eq_append_cons hframes)) hfresh

end Unfinished

end Beginning

end WidgetToolkit
