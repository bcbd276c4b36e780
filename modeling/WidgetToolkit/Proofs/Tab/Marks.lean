import Mathlib.Data.List.Basic

/-! # Flags that mark an index -/

namespace WidgetToolkit

/-- The flag at the index is set, and no other. -/
def Marks (flags : List Bool) (selected : Option Nat) : Prop :=
  ∀ index flag, flags[index]? = some flag → (flag = true ↔ selected = some index)

theorem marks_map_iff {α : Type} {read : α → Bool} {list : List α} {selected : Option Nat} :
    Marks (list.map read) selected ↔
      ∀ index a, list[index]? = some a → (read a = true ↔ selected = some index) := by
  simp [Marks]

/-- Takes the flag at an index away. -/
def unmark (flags : List Bool) : Option Nat → List Bool
  | some previous => flags.set previous false
  | none => flags

theorem marks_set {flags : List Bool} {index : Nat}
    (h : ∀ j, j ≠ index → flags[j]? ≠ some true) : Marks (flags.set index true) (some index) := by
  intro j flag hget
  by_cases heq : j = index
  · subst heq
    obtain ⟨-, rfl⟩ : j < flags.length ∧ true = flag := by
      simpa [List.getElem?_set] using hget
    simp
  · rw [List.getElem?_set_ne (Ne.symm heq)] at hget
    have hflag : flag ≠ true := fun hflag => h j heq (hflag ▸ hget)
    simp [hflag, Ne.symm heq]

/-- The mark moves to an index. What the flag there was does not matter. -/
theorem marks_move {flags : List Bool} {selected : Option Nat} {index : Nat}
    (h : ∀ j flag, j ≠ index → flags[j]? = some flag → (flag = true ↔ selected = some j)) :
    Marks ((unmark flags selected).set index true) (some index) := by
  refine marks_set fun j hne hget => ?_
  cases selected with
  | none =>
      have hmarked := (h j true hne hget).mp rfl
      cases hmarked
  | some previous =>
      by_cases heq : previous = j
      · simp [unmark, heq, List.getElem?_set] at hget
      · rw [unmark, List.getElem?_set_ne heq] at hget
        exact heq (Option.some.inj ((h j true hne hget).mp rfl))

namespace Marks

variable {flags : List Bool} {selected selected' : Option Nat} {index : Nat}

theorem push (h : Marks flags (some index)) (hi : index < flags.length) :
    Marks (flags ++ [false]) (some index) := by
  intro j flag hget
  by_cases hj : j < flags.length
  · rw [List.getElem?_append_left hj] at hget
    exact h j flag hget
  · have hflag : flag = false := by
      rw [List.getElem?_append_right (Nat.le_of_not_lt hj)] at hget
      exact List.mem_singleton.mp (List.mem_of_getElem? hget)
    have hne : index ≠ j := by omega
    simp [hflag, hne]

/-- The flags behind one that goes move up. -/
theorem eraseIdx (h : Marks flags selected)
    (hselected : ∀ j, selected' = some j ↔ selected = some (if j < index then j else j + 1)) :
    Marks (flags.eraseIdx index) selected' := by
  intro j flag hget
  rw [List.getElem?_eraseIdx] at hget
  rw [hselected]
  split
  · rename_i hlt
    rw [if_pos hlt] at hget
    exact h j flag hget
  · rename_i hge
    rw [if_neg hge] at hget
    exact h (j + 1) flag hget

/-- The mark stays on its flag when another one goes. -/
theorem eraseIdx_of_ne {selected : Nat} (h : Marks flags (some selected)) (hne : selected ≠ index) :
    Marks (flags.eraseIdx index)
      (some (if index < selected then selected - 1 else selected)) := by
  refine h.eraseIdx fun j => ?_
  simp only [Option.some.injEq]
  split <;> split <;> omega

/-- When the marked flag goes, another one can be marked. -/
theorem eraseIdx_set (h : Marks flags (some index)) (place : Nat) :
    Marks ((flags.eraseIdx index).set place true) (some place) := by
  have hnone : Marks (flags.eraseIdx index) none := by
    refine h.eraseIdx fun j => ?_
    simp only [reduceCtorEq, Option.some.injEq, false_iff]
    split <;> omega
  exact marks_set fun j _ hget => absurd ((hnone j true hget).mp rfl) (by simp)

end Marks

/-! ## The index after another -/

section

variable {index count : Nat}

/-- The index after another one, or the first after the last. -/
theorem successor_eq (hi : index < count) :
    (index + 1) % count = if index + 1 < count then index + 1 else 0 := by
  split
  · rw [Nat.mod_eq_of_lt (by omega)]
  · rw [show index + 1 = count by omega, Nat.mod_self]

/-- The place that it has when the other one has gone. -/
def successorPlace (index count : Nat) : Nat :=
  let successor := (index + 1) % count
  if index < successor then successor - 1 else successor

theorem successorPlace_lt (hi : index < count) (hcount : count ≠ 1) :
    successorPlace index count < count - 1 := by
  rw [successorPlace, successor_eq hi]
  split <;> split <;> omega

theorem eraseIdx_set_successor {α : Type} (hi : index < count) (hcount : count ≠ 1) (list : List α)
    (a : α) :
    (list.set ((index + 1) % count) a).eraseIdx index =
      (list.eraseIdx index).set (successorPlace index count) a := by
  have hne : (index + 1) % count ≠ index := by
    rw [successor_eq hi]
    split <;> omega
  simp only [successorPlace]
  split
  · rename_i hafter
    rw [List.eraseIdx_set_lt hafter]
  · rename_i hbefore
    rw [List.eraseIdx_set_gt (by omega)]

end

end WidgetToolkit
