import Mathlib.Data.List.Forall2
import Mathlib.Data.List.Nodup

/-! # Lists and options related element by element -/

namespace WidgetToolkit

variable {α β γ : Type}

theorem forall₂_trans {rel : α → α → Prop} (htrans : ∀ a b c, rel a b → rel b c → rel a c)
    {xs ys zs : List α} (h : List.Forall₂ rel xs ys) (h' : List.Forall₂ rel ys zs) :
    List.Forall₂ rel xs zs := by
  induction h generalizing zs with
  | nil => exact h'
  | cons hab _ ih =>
      cases h' with
      | cons hbc h' => exact .cons (htrans _ _ _ hab hbc) (ih h')

theorem forall_of_forall₂ {rel : α → β → Prop} {p : β → Prop} {xs : List α} {ys : List β}
    (h : List.Forall₂ rel xs ys) (hp : ∀ a b, rel a b → p b) : ∀ b ∈ ys, p b := by
  induction h with
  | nil => simp
  | cons hab _ ih => exact List.forall_mem_cons.mpr ⟨hp _ _ hab, ih⟩

theorem forall_of_forall₂_imp {p : α → Prop} {q : β → Prop} {xs : List α} {ys : List β}
    (h : List.Forall₂ (fun a b => p a → q b) xs ys) (hp : ∀ a ∈ xs, p a) : ∀ b ∈ ys, q b :=
  forall_of_forall₂ ((List.forall₂_and_left xs ys).mpr ⟨hp, h⟩) fun _ _ h => h.2 h.1

theorem exists_right_of_forall₂ {rel : α → β → Prop} {xs : List α} {ys : List β}
    (h : List.Forall₂ rel xs ys) {a : α} (ha : a ∈ xs) : ∃ b ∈ ys, rel a b := by
  induction h with
  | nil => cases ha
  | cons hab _ ih =>
      rcases List.mem_cons.mp ha with rfl | ha
      · exact ⟨_, List.mem_cons_self, hab⟩
      · obtain ⟨b, hb, hrel⟩ := ih ha
        exact ⟨b, List.mem_cons_of_mem _ hb, hrel⟩

theorem exists_left_of_forall₂ {rel : α → β → Prop} {xs : List α} {ys : List β}
    (h : List.Forall₂ rel xs ys) {b : β} (hb : b ∈ ys) : ∃ a ∈ xs, rel a b :=
  exists_right_of_forall₂ h.flip hb

theorem rel_getElem?_of_forall₂ {rel : α → β → Prop} {xs : List α} {ys : List β}
    (h : List.Forall₂ rel xs ys) (n : Nat) : Option.Rel rel xs[n]? ys[n]? := by
  induction h generalizing n with
  | nil => exact .none
  | cons hab h ih =>
      cases n with
      | zero => exact .some hab
      | succ n => exact ih n

theorem map_eq_of_forall₂ {rel : α → β → Prop} {f : α → γ} {g : β → γ} {xs : List α} {ys : List β}
    (h : List.Forall₂ rel xs ys) (hfg : ∀ a b, rel a b → g b = f a) : ys.map g = xs.map f := by
  induction h with
  | nil => rfl
  | cons hab _ ih => rw [List.map_cons, List.map_cons, hfg _ _ hab, ih]

theorem forall₂_of_map_eq {read : α → β} {xs ys : List α} (h : ys.map read = xs.map read) :
    List.Forall₂ (fun a b => read b = read a) xs ys := by
  rw [← List.forall₂_eq_eq_eq, List.forall₂_map_left_iff, List.forall₂_map_right_iff] at h
  exact h.flip

theorem forall₂_modify {rel : α → α → Prop} (hrefl : ∀ a, rel a a) {f : α → α} {xs : List α}
    {n : Nat} (hf : ∀ a, xs[n]? = some a → rel a (f a)) : List.Forall₂ rel xs (xs.modify n f) := by
  induction xs generalizing n with
  | nil => simp
  | cons a rest ih =>
      cases n with
      | zero => exact .cons (hf a rfl) (List.forall₂_same.mpr fun b _ => hrefl b)
      | succ n => exact .cons (hrefl a) (ih fun b hb => hf b (by simpa using hb))

theorem forall_mem_modify {p : α → Prop} {f : α → α} {xs : List α} {n : Nat} (h : ∀ a ∈ xs, p a)
    (hf : ∀ a, xs[n]? = some a → p (f a)) : ∀ b ∈ xs.modify n f, p b := by
  have hmodified : List.Forall₂ (fun a b => p a → p b) xs (xs.modify n f) :=
    forall₂_modify (fun _ h => h) fun a ha _ => hf a ha
  exact forall_of_forall₂_imp hmodified h

theorem forall₂_of_mapM {f : α → Option β} {xs : List α} {ys : List β}
    (h : xs.mapM f = some ys) : List.Forall₂ (fun a b => f a = some b) xs ys := by
  induction xs generalizing ys with
  | nil =>
      cases h
      exact .nil
  | cons a rest ih =>
      rw [List.mapM_cons] at h
      obtain ⟨b, hb, h⟩ := Option.bind_eq_some_iff.mp h
      obtain ⟨rest', hrest, h⟩ := Option.bind_eq_some_iff.mp h
      cases h
      exact .cons hb (ih hrest)

theorem insertIdx_eq_take_append {xs : List α} {n : Nat} (h : n ≤ xs.length) (a : α) :
    xs.insertIdx n a = xs.take n ++ a :: xs.drop n := by
  induction xs generalizing n with
  | nil =>
      obtain rfl := Nat.le_zero.mp h
      rfl
  | cons b rest ih =>
      cases n with
      | zero => rfl
      | succ n =>
          rw [List.insertIdx_succ_cons, ih (Nat.le_of_succ_le_succ h)]
          rfl

theorem forall₂_eraseIdx {rel : α → β → Prop} {xs : List α} {ys : List β}
    (h : List.Forall₂ rel xs ys) (n : Nat) : List.Forall₂ rel (xs.eraseIdx n) (ys.eraseIdx n) := by
  induction h generalizing n with
  | nil => exact .nil
  | cons hab h ih =>
      cases n with
      | zero => exact h
      | succ n => exact .cons hab (ih n)

theorem forall₂_set {rel : α → α → Prop} (hrefl : ∀ a, rel a a) {xs : List α} {n : Nat} {a b : α}
    (hget : xs[n]? = some a) (hab : rel a b) : List.Forall₂ rel xs (xs.set n b) := by
  induction xs generalizing n with
  | nil => simp
  | cons c rest ih =>
      cases n with
      | zero =>
          obtain rfl : c = a := by simpa using hget
          exact .cons hab (List.forall₂_same.mpr fun b _ => hrefl b)
      | succ n => exact .cons (hrefl c) (ih (by simpa using hget))

/-! ## Options -/

theorem optionRel_trans {rel : α → α → Prop} (htrans : ∀ a b c, rel a b → rel b c → rel a c)
    {x y z : Option α} : Option.Rel rel x y → Option.Rel rel y z → Option.Rel rel x z
  | .none, .none => .none
  | .some h, .some h' => .some (htrans _ _ _ h h')

theorem optionRel_refl {rel : α → α → Prop} (hrefl : ∀ a, rel a a) :
    (x : Option α) → Option.Rel rel x x
  | none => .none
  | some a => .some (hrefl a)

theorem optionRel_bind {rel : α → β → Prop} {rel' : γ → γ → Prop} {f : α → Option γ}
    {g : β → Option γ} (hfg : ∀ a b, rel a b → Option.Rel rel' (f a) (g b)) {x : Option α}
    {y : Option β} : Option.Rel rel x y → Option.Rel rel' (x.bind f) (y.bind g)
  | .none => .none
  | .some h => hfg _ _ h

theorem map_eq_of_optionRel {rel : α → β → Prop} {f : α → γ} {g : β → γ}
    (hfg : ∀ a b, rel a b → g b = f a) {x : Option α} {y : Option β} :
    Option.Rel rel x y → y.map g = x.map f
  | .none => rfl
  | .some h => congrArg some (hfg _ _ h)

theorem forall₂_toList_of_optionRel {rel : α → β → Prop} {x : Option α} {y : Option β} :
    Option.Rel rel x y → List.Forall₂ rel x.toList y.toList
  | .none => .nil
  | .some h => .cons h .nil

theorem exists_left_of_optionRel {rel : α → β → Prop} {x : Option α} {b : β} :
    Option.Rel rel x (some b) → ∃ a, x = some a ∧ rel a b
  | .some h => ⟨_, rfl, h⟩

/-! ## Changes at an index -/

/-- What a change makes the same for every element. -/
theorem map_modify_eq_set {read : α → β} {change : α → α} {b : β} (hread : ∀ a, read (change a) = b)
    (list : List α) (index : Nat) :
    (list.modify index change).map read = (list.map read).set index b := by
  induction list generalizing index with
  | nil => simp
  | cons a rest ih =>
      cases index with
      | zero => simp [hread]
      | succ index => simp [ih]

/-- A change that shows in what is read of an element. -/
theorem map_modify_comm {read : α → β} {f : α → α} (g : β → β) (hread : ∀ a, read (f a) = g (read a))
    (list : List α) (index : Nat) :
    (list.modify index f).map read = (list.map read).modify index g := by
  induction list generalizing index with
  | nil => simp
  | cons a rest ih =>
      cases index with
      | zero => simp [hread]
      | succ index => simp [ih]

theorem length_lt_of_eq_append_cons {xs above below : List α} {a : α}
    (h : xs = above ++ a :: below) : below.length < xs.length := by
  rw [h, List.length_append, List.length_cons]
  omega

/-- The elements at all places are the list. -/
theorem filterMap_getElem?_range (xs : List α) (n : Nat) :
    (List.range n).filterMap (xs[·]?) = xs.take n := by
  induction n with
  | zero => rfl
  | succ n ih =>
      rw [List.range_succ, List.filterMap_append, ih, List.take_add_one]
      cases hget : xs[n]? <;> simp [hget]

theorem flatMap_zipIdx {xs : List α} {f : α × Nat → List β} {g : α → List β}
    (h : ∀ a n, f (a, n) = g a) : xs.zipIdx.flatMap f = xs.flatMap g := by
  have hfst : f = fun entry => g entry.1 := funext fun (a, n) => h a n
  rw [hfst, ← List.flatMap_map, List.zipIdx_map_fst]

/-- A list with one more element, taken apart somewhere. -/
theorem append_singleton_eq_append_cons_iff {xs front rest : List α} {a b : α} :
    xs ++ [b] = front ++ a :: rest ↔
      (∃ rest', rest = rest' ++ [b] ∧ xs = front ++ a :: rest') ∨
        rest = [] ∧ a = b ∧ xs = front := by
  constructor
  · intro h
    rcases List.eq_nil_or_concat rest with rfl | ⟨rest', last, rfl⟩
    · obtain ⟨hxs, hab⟩ := List.append_inj' h rfl
      exact .inr ⟨rfl, (List.cons.inj hab).1.symm, hxs⟩
    · have hsplit : xs ++ [b] = (front ++ a :: rest') ++ [last] := by simpa using h
      obtain ⟨hxs, hlast⟩ := List.append_inj' hsplit rfl
      exact .inl ⟨rest', by rw [(List.cons.inj hlast).1, List.concat_eq_append], hxs⟩
  · rintro (⟨rest', rfl, rfl⟩ | ⟨rfl, rfl, rfl⟩)
    · simp
    · rfl

/-! ## Elements with keys -/

section

variable {key : α → β} {xs : List α} {n : Nat} {a : α}

theorem eq_of_key_eq (hnodup : (xs.map key).Nodup) (hget : xs[n]? = some a) {m : Nat} {b : α}
    (hb : xs[m]? = some b) (hkey : key b = key a) : m = n := by
  have hm := (List.getElem?_eq_some_iff.mp hb).1
  refine (List.getElem?_inj (by simpa using hm) hnodup).mp ?_
  rw [List.getElem?_map, List.getElem?_map, hb, hget, Option.map_some, Option.map_some, hkey]

variable [DecidableEq β]

/-- Where keys are all different, an index is as good as a key. -/
theorem modify_eq_map_of_nodup (hnodup : (xs.map key).Nodup) (hget : xs[n]? = some a)
    (f : α → α) : xs.modify n f = xs.map fun b => if key b = key a then f b else b := by
  refine List.ext_getElem? fun m => ?_
  rw [List.getElem?_modify, List.getElem?_map]
  cases hb : xs[m]? with
  | none => rfl
  | some b =>
      by_cases heq : n = m
      · subst heq
        obtain rfl : a = b := Option.some.inj (hget.symm.trans hb)
        simp
      · have hkey : key b ≠ key a := fun hkey => heq (eq_of_key_eq hnodup hget hb hkey).symm
        simp [heq, hkey]

theorem eraseIdx_eq_filter_of_nodup (hnodup : (xs.map key).Nodup) (hget : xs[n]? = some a) :
    xs.eraseIdx n = xs.filter fun b => key b ≠ key a := by
  induction xs generalizing n with
  | nil => cases hget
  | cons b rest ih =>
      obtain ⟨hb, hrest⟩ := List.nodup_cons.mp hnodup
      cases n with
      | zero =>
          obtain rfl : b = a := Option.some.inj hget
          have hother : ∀ c ∈ rest, key c ≠ key b := fun c hc hkey =>
            hb (hkey ▸ List.mem_map_of_mem hc)
          simpa [List.filter_cons] using (List.filter_eq_self.mpr (by simpa using hother)).symm
      | succ n =>
          have hkey : key b ≠ key a := fun hkey =>
            hb (hkey ▸ List.mem_map_of_mem (List.mem_of_getElem? hget))
          rw [List.eraseIdx_cons_succ, ih hrest hget, List.filter_cons_of_pos (by simpa using hkey)]

end

/-! ## The last element that has a property -/

theorem mem_reverse_zipIdx_iff {xs : List α} {a : α} {n : Nat} :
    (a, n) ∈ xs.zipIdx.reverse ↔ xs[n]? = some a :=
  List.mem_reverse.trans List.mem_zipIdx_iff_getElem?

theorem pairwise_reverse_zipIdx (xs : List α) :
    xs.zipIdx.reverse.Pairwise fun a b => b.2 < a.2 := by
  have hindices : (xs.zipIdx.map (·.2)).Pairwise (· < ·) := by
    rw [List.zipIdx_map_snd]
    exact List.pairwise_lt_range'
  exact List.pairwise_reverse.mpr (List.pairwise_map.mp hindices)

theorem le_of_find?_reverse_zipIdx {p : α → Bool} {xs : List α} {a b : α} {m n : Nat}
    (h : xs.zipIdx.reverse.find? (p ·.1) = some (a, n)) (hb : xs[m]? = some b) (hp : p b) :
    m ≤ n := by
  obtain ⟨-, later, earlier, hsplit, hlater⟩ := List.find?_eq_some_iff_append.mp h
  have hsorted := pairwise_reverse_zipIdx xs
  have hm := mem_reverse_zipIdx_iff.mpr hb
  rw [hsplit] at hsorted hm
  rcases List.mem_append.mp hm with hm | hm
  · have hnot := hlater _ hm
    simp [hp] at hnot
  · rcases List.mem_cons.mp hm with heq | hm
    · exact Nat.le_of_eq (Prod.mk.inj heq).2
    · have hbelow := (List.pairwise_cons.mp (List.pairwise_append.mp hsorted).2.1).1
      exact Nat.le_of_lt (hbelow _ hm)

theorem find?_reverse_zipIdx_eq_some_iff {p : α → Bool} {xs : List α} {a : α} {n : Nat} :
    xs.zipIdx.reverse.find? (p ·.1) = some (a, n) ↔
      xs[n]? = some a ∧ p a ∧ ∀ (m : Nat) b, xs[m]? = some b → p b → m ≤ n := by
  have hsound : ∀ {b : α} {m : Nat}, xs.zipIdx.reverse.find? (p ·.1) = some (b, m) →
      xs[m]? = some b ∧ p b := by
    intro b m hfind
    have hp := List.find?_some hfind
    exact ⟨mem_reverse_zipIdx_iff.mp (List.mem_of_find?_eq_some hfind), hp⟩
  constructor
  · intro hfind
    obtain ⟨ha, hp⟩ := hsound hfind
    exact ⟨ha, hp, fun m b hb hp => le_of_find?_reverse_zipIdx hfind hb hp⟩
  · rintro ⟨ha, hp, hlast⟩
    cases hfind : xs.zipIdx.reverse.find? (p ·.1) with
    | none => exact absurd hp (List.find?_eq_none.mp hfind _ (mem_reverse_zipIdx_iff.mpr ha))
    | some found =>
        obtain ⟨b, m⟩ := found
        obtain ⟨hb, hpb⟩ := hsound hfind
        obtain rfl : m = n :=
          Nat.le_antisymm (hlast m b hb hpb) (le_of_find?_reverse_zipIdx hfind ha hp)
        rw [Option.some.inj (hb.symm.trans ha)]

end WidgetToolkit
