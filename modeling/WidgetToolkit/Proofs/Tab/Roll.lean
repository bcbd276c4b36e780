import Mathlib.Data.List.Basic
import WidgetToolkit.View.Tree

/-! # Page rolls

A page roll is what a tab is to a program: titles with their pages in order, and which of them is
selected. It knows nothing of indices that shift: every entry has a number of its own, and the
selection is the number of an entry. -/

namespace WidgetToolkit

/-- A title with its page as it was when it came. -/
structure PageRoll.Entry (K : Type) where
  number : Nat
  title : String
  page : View K

structure PageRoll (K : Type) where
  entries : List (PageRoll.Entry K)
  /-- The number of the selected entry. -/
  current : Option Nat
  /-- The number of entries made so far. -/
  made : Nat

/-- What a program does to the pages of a tab. -/
inductive PageEdit (K : Type) where
  | add (title : String) (page : View K)
  | remove (index : Nat)
  | select (index : Nat)

namespace PageRoll

variable {K : Type}

def empty : PageRoll K := ⟨[], none, 0⟩

/-- A new entry comes behind the others, and is selected if there are none. -/
def add (roll : PageRoll K) (title : String) (page : View K) : PageRoll K where
  entries := roll.entries ++ [⟨roll.made, title, page⟩]
  current := if roll.entries = [] then some roll.made else roll.current
  made := roll.made + 1

/-- The entry that is selected when the one at an index goes: the one behind it, or the first one if
it is the last. -/
def successor? (roll : PageRoll K) (index : Nat) : Option (Entry K) :=
  if roll.entries.length = 1 then none else roll.entries[index + 1]?.or roll.entries[0]?

/-- Removes one entry. If it is selected, its successor is from then on. -/
def remove (roll : PageRoll K) (index : Nat) : PageRoll K :=
  match roll.entries[index]? with
  | none => roll
  | some entry =>
    { roll with
      entries := roll.entries.eraseIdx index
      current :=
        if roll.current = some entry.number then (roll.successor? index).map (·.number)
        else roll.current }

def select (roll : PageRoll K) (index : Nat) : PageRoll K :=
  match roll.entries[index]? with
  | none => roll
  | some entry => { roll with current := some entry.number }

def edit (roll : PageRoll K) : PageEdit K → PageRoll K
  | .add title page => roll.add title page
  | .remove index => roll.remove index
  | .select index => roll.select index

/-- The index of the selected entry. -/
def index? (roll : PageRoll K) : Option Nat :=
  roll.current.bind fun number => roll.entries.findIdx? (·.number == number)

/-- The selected entry. -/
def selected? (roll : PageRoll K) : Option (Entry K) :=
  roll.current.bind fun number => roll.entries.find? (·.number == number)

/-! ## Numbers -/

/-- Numbers ascend, so no two entries have the same. -/
structure Numbered (roll : PageRoll K) : Prop where
  ascending : roll.entries.Pairwise (·.number < ·.number)
  lt_made : ∀ entry ∈ roll.entries, entry.number < roll.made

theorem numbered_empty : (empty : PageRoll K).Numbered := ⟨.nil, by simp [empty]⟩

theorem Numbered.add {roll : PageRoll K} (h : roll.Numbered) (title : String) (page : View K) :
    (roll.add title page).Numbered := by
  refine ⟨List.pairwise_append.mpr ⟨h.ascending, List.pairwise_singleton _ _, ?_⟩, ?_⟩
  · intro entry hm new hnew
    rw [List.mem_singleton.mp hnew]
    exact h.lt_made entry hm
  · intro entry hm
    rcases List.mem_append.mp hm with hm | hm
    · exact Nat.lt_succ_of_lt (h.lt_made entry hm)
    · rw [List.mem_singleton.mp hm]
      exact Nat.lt_succ_self _

theorem Numbered.remove {roll : PageRoll K} (h : roll.Numbered) (index : Nat) :
    (roll.remove index).Numbered := by
  unfold PageRoll.remove
  split
  · exact h
  · refine ⟨h.ascending.sublist (List.eraseIdx_sublist _ _), ?_⟩
    exact fun entry hm => h.lt_made entry (List.mem_of_mem_eraseIdx hm)

theorem Numbered.select {roll : PageRoll K} (h : roll.Numbered) (index : Nat) :
    (roll.select index).Numbered := by
  unfold PageRoll.select
  split
  · exact h
  · exact ⟨h.ascending, h.lt_made⟩

theorem Numbered.eq_of_number_eq {roll : PageRoll K} (h : roll.Numbered) {i j : Nat}
    {entry entry' : Entry K} (hi : roll.entries[i]? = some entry)
    (hj : roll.entries[j]? = some entry') (hnumber : entry.number = entry'.number) : i = j := by
  obtain ⟨hi', rfl⟩ := List.getElem?_eq_some_iff.mp hi
  obtain ⟨hj', rfl⟩ := List.getElem?_eq_some_iff.mp hj
  have hlt := List.pairwise_iff_getElem.mp h.ascending
  rcases Nat.lt_trichotomy i j with hij | hij | hij
  · exact absurd hnumber (Nat.ne_of_lt (hlt i j hi' hj' hij))
  · exact hij
  · exact absurd hnumber.symm (Nat.ne_of_lt (hlt j i hj' hi' hij))

/-! ## The place of the selection -/

/-- The selected entry is at this place. There is none only if there are no entries. -/
def CurrentAt (roll : PageRoll K) : Option Nat → Prop
  | none => roll.current = none ∧ roll.entries = []
  | some index => ∃ entry, roll.entries[index]? = some entry ∧ roll.current = some entry.number

theorem Numbered.findIdx? {roll : PageRoll K} (h : roll.Numbered) {index : Nat} {entry : Entry K}
    (hentry : roll.entries[index]? = some entry) :
    roll.entries.findIdx? (·.number == entry.number) = some index := by
  obtain ⟨hi, hget⟩ := List.getElem?_eq_some_iff.mp hentry
  refine List.findIdx?_eq_some_iff_getElem.mpr ⟨hi, by simp [hget], fun j hj heq => ?_⟩
  have hsame : roll.entries[j].number = entry.number := by simpa using heq
  have := h.eq_of_number_eq (List.getElem?_eq_getElem (by omega)) hentry hsame
  omega

theorem CurrentAt.index?_eq {roll : PageRoll K} (hnumbered : roll.Numbered) {place : Option Nat}
    (h : roll.CurrentAt place) : roll.index? = place := by
  cases place with
  | none => simp [index?, h.1]
  | some index =>
      obtain ⟨entry, hentry, hcurrent⟩ := h
      rw [index?, hcurrent, Option.bind_some, hnumbered.findIdx? hentry]

theorem CurrentAt.selected?_eq {roll : PageRoll K} (hnumbered : roll.Numbered) {place : Option Nat}
    (h : roll.CurrentAt place) :
    roll.selected? = place.bind fun index => roll.entries[index]? := by
  rw [← h.index?_eq hnumbered, index?, selected?, Option.bind_assoc]
  simp only [List.find?_eq_bind_findIdx?_getElem?]

/-- A new entry takes the selection only if it is the first. -/
theorem CurrentAt.add {roll : PageRoll K} {place : Option Nat} (h : roll.CurrentAt place)
    (title : String) (page : View K) :
    (roll.add title page).CurrentAt (if roll.entries = [] then some 0 else place) := by
  by_cases hnil : roll.entries = []
  · rw [if_pos hnil]
    exact ⟨⟨roll.made, title, page⟩, by simp [PageRoll.add, hnil], by simp [PageRoll.add, hnil]⟩
  · rw [if_neg hnil]
    cases place with
    | none => exact absurd h.2 hnil
    | some index =>
        obtain ⟨entry, hentry, hcurrent⟩ := h
        refine ⟨entry, ?_, by rw [PageRoll.add, if_neg hnil, hcurrent]⟩
        exact (List.getElem?_append_left (List.getElem?_eq_some_iff.mp hentry).1).trans hentry

@[simp] theorem select_entries (roll : PageRoll K) (index : Nat) :
    (roll.select index).entries = roll.entries := by
  unfold PageRoll.select
  split <;> rfl

@[simp] theorem select_made (roll : PageRoll K) (index : Nat) :
    (roll.select index).made = roll.made := by
  unfold PageRoll.select
  split <;> rfl

theorem currentAt_select {roll : PageRoll K} {index : Nat} (hi : index < roll.entries.length) :
    (roll.select index).CurrentAt (some index) := by
  have hentry := List.getElem?_eq_getElem hi
  simp only [PageRoll.select, hentry]
  exact ⟨_, hentry, rfl⟩

section

variable {roll : PageRoll K} {index : Nat}

theorem remove_of_lt (hi : index < roll.entries.length) :
    (roll.remove index).entries = roll.entries.eraseIdx index := by
  rw [PageRoll.remove, List.getElem?_eq_getElem hi]

theorem remove_of_le (hi : roll.entries.length ≤ index) : roll.remove index = roll := by
  rw [PageRoll.remove, List.getElem?_eq_none hi]

@[simp] theorem remove_made : (roll.remove index).made = roll.made := by
  unfold PageRoll.remove
  split <;> rfl

theorem CurrentAt.remove_selected (h : roll.CurrentAt (some index)) :
    (roll.remove index).CurrentAt
      (if roll.entries.length = 1 then none
        else some (if index + 1 < roll.entries.length then index else 0)) := by
  obtain ⟨entry, hentry, hcurrent⟩ := h
  have hi := (List.getElem?_eq_some_iff.mp hentry).1
  simp only [PageRoll.remove, hentry, hcurrent, if_true, successor?]
  split
  · refine ⟨rfl, List.length_eq_zero_iff.mp ?_⟩
    rw [List.length_eraseIdx_of_lt hi]
    omega
  · split
    · rename_i hlt
      refine ⟨roll.entries[index + 1], ?_, ?_⟩
      · rw [List.getElem?_eraseIdx_of_ge (Nat.le_refl index), List.getElem?_eq_getElem hlt]
      · rw [List.getElem?_eq_getElem hlt]
        rfl
    · rename_i hmany hlast
      have hpos : 0 < index := by omega
      refine ⟨roll.entries[0], ?_, ?_⟩
      · rw [List.getElem?_eraseIdx_of_lt hpos, List.getElem?_eq_getElem (by omega)]
      · rw [List.getElem?_eq_none (by omega), List.getElem?_eq_getElem (by omega)]
        rfl

theorem CurrentAt.remove_other (hnumbered : roll.Numbered) (hi : index < roll.entries.length)
    {place : Nat} (h : roll.CurrentAt (some place)) (hne : place ≠ index) :
    (roll.remove index).CurrentAt (some (if index < place then place - 1 else place)) := by
  obtain ⟨entry, hentry, hcurrent⟩ := h
  have hother : some entry.number ≠ some roll.entries[index].number := by
    intro heq
    exact hne (hnumbered.eq_of_number_eq hentry (List.getElem?_eq_getElem hi)
      (Option.some.inj heq))
  refine ⟨entry, ?_, ?_⟩
  · rw [remove_of_lt hi]
    split
    · rw [List.getElem?_eraseIdx_of_ge (by omega), Nat.sub_add_cancel (by omega), hentry]
    · rw [List.getElem?_eraseIdx_of_lt (by omega), hentry]
  · simp only [PageRoll.remove, List.getElem?_eq_getElem hi, if_neg hother, hcurrent]

end

end PageRoll

end WidgetToolkit
