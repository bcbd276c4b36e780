import Mathlib.Data.List.Forall2
import WidgetToolkit.Told

/-! # What holds of a result and of its notices -/

namespace WidgetToolkit.Told

variable {ν α β : Type}

@[simp] theorem pure_value (a : α) : (pure a : Told ν α).value = a := rfl

@[simp] theorem pure_notices (a : α) : (pure a : Told ν α).notices = [] := rfl

@[simp] theorem bind_value (told : Told ν α) (next : α → Told ν β) :
    (told >>= next).value = (next told.value).value := rfl

@[simp] theorem bind_notices (told : Told ν α) (next : α → Told ν β) :
    (told >>= next).notices = told.notices ++ (next told.value).notices := rfl

@[simp] theorem map_value (f : α → β) (told : Told ν α) : (f <$> told).value = f told.value := rfl

@[simp] theorem map_notices (f : α → β) (told : Told ν α) :
    (f <$> told).notices = told.notices := by
  simp [Functor.map]

@[simp] theorem tell_notices (notice : ν) : (tell notice).notices = [notice] := rfl

instance : LawfulMonad (Told ν) :=
  LawfulMonad.mk' (Told ν) (fun told => by simp [Functor.map]) (fun _ _ => rfl)
    fun told next further => by simp [bind]

/-- The value has one property, and every notice sent on the way to it has another. -/
structure Meets (told : Told ν α) (post : α → Prop) (seen : ν → Prop) : Prop where
  value : post told.value
  notices : ∀ notice ∈ told.notices, seen notice

variable {post post' : α → Prop} {seen : ν → Prop}

theorem meets_pure {a : α} (h : post a) : (pure a : Told ν α).Meets post seen :=
  ⟨h, by simp⟩

theorem meets_tell {notice : ν} (h : seen notice) :
    (tell notice).Meets (fun _ => True) seen :=
  ⟨trivial, by simpa using h⟩

theorem Meets.mono {told : Told ν α} (h : told.Meets post seen)
    (himp : ∀ a, post a → post' a) : told.Meets post' seen :=
  ⟨himp _ h.value, h.notices⟩

/-- What follows an operation may rely on what holds of its value. -/
theorem Meets.bind {told : Told ν α} {next : α → Told ν β} {goal : β → Prop}
    (h : told.Meets post seen) (hnext : ∀ a, post a → (next a).Meets goal seen) :
    (told >>= next).Meets goal seen := by
  have hn := hnext _ h.value
  refine ⟨hn.value, ?_⟩
  intro notice hm
  rcases List.mem_append.mp hm with hm | hm
  · exact h.notices notice hm
  · exact hn.notices notice hm

/-! ## Lists -/

@[simp] theorem each_value (operation : α → Told ν β) (xs : List α) :
    (each operation xs).value = xs.map fun a => (operation a).value := by
  induction xs with
  | nil => rfl
  | cons a rest ih => simp [each, ih]

theorem modifyNth_of_getElem? {operation : α → Told ν α} {xs : List α} {n : Nat} {a : α}
    (h : xs[n]? = some a) :
    modifyNth operation xs n = do return xs.set n (← operation a) := by
  induction xs generalizing n with
  | nil => cases h
  | cons b rest ih =>
      cases n with
      | zero =>
          cases h
          rfl
      | succ n =>
          rw [modifyNth, ih h, bind_assoc]
          rfl

@[simp] theorem modifyNth_value (operation : α → Told ν α) (xs : List α) (n : Nat) :
    (modifyNth operation xs n).value = xs.modify n fun a => (operation a).value := by
  induction xs generalizing n with
  | nil => simp [modifyNth]
  | cons a rest ih =>
      cases n with
      | zero => simp [modifyNth]
      | succ n => simp [modifyNth, ih]

theorem meets_each {operation : α → Told ν β} {rel : α → β → Prop} {xs : List α}
    (h : ∀ a ∈ xs, (operation a).Meets (rel a) seen) :
    (each operation xs).Meets (List.Forall₂ rel xs) seen := by
  induction xs with
  | nil => exact meets_pure .nil
  | cons a rest ih =>
      refine (h a (by simp)).bind fun b hb => ?_
      refine (ih fun a ha => h a (by simp [ha])).bind fun bs hbs => ?_
      exact meets_pure (.cons hb hbs)

/-- The elements that an operation does not reach stay as they are. -/
theorem meets_modifyNth {operation : α → Told ν α} {rel : α → α → Prop} {xs : List α}
    (hrefl : ∀ a ∈ xs, rel a a) (h : ∀ a ∈ xs, (operation a).Meets (rel a) seen) (n : Nat) :
    (modifyNth operation xs n).Meets (List.Forall₂ rel xs) seen := by
  induction xs generalizing n with
  | nil => exact meets_pure .nil
  | cons a rest ih =>
      cases n with
      | zero =>
          refine (h a (by simp)).bind fun b hb => ?_
          refine meets_pure (.cons hb ?_)
          exact List.forall₂_same.mpr fun a ha => hrefl a (by simp [ha])
      | succ n =>
          refine (ih (fun a ha => hrefl a (by simp [ha])) (fun a ha => h a (by simp [ha])) n).bind
            fun bs hbs => ?_
          exact meets_pure (.cons (hrefl a (by simp)) hbs)

end WidgetToolkit.Told
