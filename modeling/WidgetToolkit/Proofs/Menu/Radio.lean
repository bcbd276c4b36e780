import Mathlib.Data.List.TakeWhile
import WidgetToolkit.Proofs.Menu.Ownership

/-! # Radio groups

The group of a radio item is the longest run of adjacent radio items around it. The groups of a
menu are disjoint, so a click leaves all groups alone but that of the item that is clicked. -/

namespace WidgetToolkit

/-! ## Runs of adjacent elements -/

section Runs

variable {α : Type} {p q : α → Bool} {xs front back : List α} {a b c : α}

/-- Two elements of a list are in one run of adjacent elements that have a property. -/
def InRun (p : α → Bool) (xs : List α) (a b : α) : Prop :=
  ∃ run, run <:+: xs ∧ a ∈ run ∧ b ∈ run ∧ ∀ c ∈ run, p c = true

theorem InRun.symm (h : InRun p xs a b) : InRun p xs b a := by
  obtain ⟨run, hwithin, ha, hb, hrun⟩ := h
  exact ⟨run, hwithin, hb, ha, hrun⟩

theorem InRun.mem (h : InRun p xs a b) : b ∈ xs := by
  obtain ⟨run, hwithin, -, hb, -⟩ := h
  exact hwithin.subset hb

theorem InRun.holds (h : InRun p xs a b) : p b = true := by
  obtain ⟨run, -, -, hb, hrun⟩ := h
  exact hrun b hb

theorem inRun_self (hm : a ∈ xs) (ha : p a = true) : InRun p xs a a := by
  obtain ⟨front, back, rfl⟩ := List.append_of_mem hm
  exact ⟨[a], ⟨front, back, by simp⟩, by simp, by simp, by simpa using ha⟩

theorem inRun_congr (h : ∀ c ∈ xs, p c = q c) : InRun p xs a b ↔ InRun q xs a b := by
  refine exists_congr fun run => and_congr_right fun hwithin => ?_
  refine and_congr_right fun _ => and_congr_right fun _ => ?_
  exact forall₂_congr fun c hc => by rw [h c (hwithin.subset hc)]

/-- The longest run around an element, found by going from it in both directions. -/
def runAround (p : α → Bool) (front : List α) (a : α) (back : List α) : List α :=
  (front.reverse.takeWhile p).reverse ++ a :: back.takeWhile p

theorem runAround_within : runAround p front a back <:+: front ++ a :: back := by
  have hfront : (front.reverse.takeWhile p).reverse <:+ front := by
    rw [← List.reverse_prefix, List.reverse_reverse]
    exact List.takeWhile_prefix p
  obtain ⟨before, hbefore⟩ := hfront
  obtain ⟨after, hafter⟩ := List.takeWhile_prefix p (l := back)
  refine ⟨before, after, ?_⟩
  rw [runAround, List.append_assoc, List.append_assoc, List.cons_append, hafter,
    ← List.append_assoc, hbefore]

theorem subset_takeWhile {run : List α} (hfirst : run <+: xs) (hrun : ∀ c ∈ run, p c = true) :
    run ⊆ xs.takeWhile p := by
  obtain ⟨rest, rfl⟩ := hfirst
  rw [List.takeWhile_append_of_pos hrun]
  exact List.subset_append_left run _

/-- No run around the element is longer. -/
theorem inRun_iff (hnodup : (front ++ a :: back).Nodup) (ha : p a = true) :
    InRun p (front ++ a :: back) a b ↔ b ∈ runAround p front a back := by
  constructor
  · rintro ⟨run, ⟨before, after, heq⟩, hrun, hb, hall⟩
    obtain ⟨left, right, rfl⟩ := List.append_of_mem hrun
    have hsplit : (before ++ left) ++ a :: (right ++ after) = front ++ a :: back := by
      rw [← heq]
      simp
    obtain ⟨-, hback, hfront⟩ := List.nodup_append.mp hnodup
    have hnotfront : a ∉ front := fun hm => hfront a hm a List.mem_cons_self rfl
    have hnotback : a ∉ back := (List.nodup_cons.mp hback).1
    obtain ⟨rfl, -, rfl⟩ := (List.append_cons_inj_of_notMem hnotfront hnotback).mp hsplit.symm
    rw [runAround]
    rcases List.mem_append.mp hb with hleft | hright
    · have hfirst : left.reverse <+: (before ++ left).reverse := by
        rw [List.reverse_append]
        exact List.prefix_append _ _
      refine List.mem_append_left _ (List.mem_reverse.mpr ?_)
      refine subset_takeWhile hfirst ?_ (List.mem_reverse.mpr hleft)
      exact fun c hc => hall c (List.mem_append_left _ (List.mem_reverse.mp hc))
    · refine List.mem_append_right _ ?_
      rcases List.mem_cons.mp hright with rfl | hright
      · exact List.mem_cons_self
      · refine List.mem_cons_of_mem _ (subset_takeWhile (List.prefix_append right after) ?_ hright)
        exact fun c hc => hall c (List.mem_append_right _ (List.mem_cons_of_mem _ hc))
  · intro hb
    refine ⟨_, runAround_within, List.mem_append_right _ List.mem_cons_self, hb, fun c hc => ?_⟩
    rcases List.mem_append.mp hc with hc | hc
    · exact List.mem_takeWhile_imp (List.mem_reverse.mp hc)
    · rcases List.mem_cons.mp hc with rfl | hc
      · exact ha
      · exact List.mem_takeWhile_imp hc

theorem InRun.trans (hnodup : xs.Nodup) (hab : InRun p xs a b) (hbc : InRun p xs b c) :
    InRun p xs a c := by
  obtain ⟨front, back, rfl⟩ := List.append_of_mem hab.mem
  have hb := hab.holds
  refine ⟨_, runAround_within, (inRun_iff hnodup hb).mp hab.symm, (inRun_iff hnodup hb).mp hbc, ?_⟩
  exact fun d hd => ((inRun_iff hnodup hb).mpr hd).holds

end Runs

/-! ## Groups and check marks -/

namespace Desk

variable {σ : Type} {desk desk' : Desk σ} {id : MenuId} {item other : ItemId}

/-- Two radio items of a menu are in one group. -/
def Grouped (desk : Desk σ) (id : MenuId) (item other : ItemId) : Prop :=
  InRun desk.isRadio (desk.itemsOf id) item other

def isChecked (desk : Desk σ) (item : ItemId) : Bool := (desk.item? item).any (·.checked)

/-- In the group of a radio item this item alone is checked. All items outside the group are
checked if they were before. -/
structure Picked (desk : Desk σ) (id : MenuId) (item : ItemId) (desk' : Desk σ) : Prop where
  alone : ∀ other, desk.Grouped id item other → (desk'.isChecked other = true ↔ other = item)
  others : ∀ other, ¬desk.Grouped id item other → desk'.isChecked other = desk.isChecked other

theorem isChecked_modifyItem (desk : Desk σ) (item other : ItemId)
    {change : MenuItem σ → MenuItem σ} (h : ∀ entry, (change entry).checked = entry.checked) :
    (desk.modifyItem item change).isChecked other = desk.isChecked other := by
  rw [isChecked, isChecked, item?_modifyItem, Option.any_map]
  by_cases heq : item = other <;> cases desk.item? other <;> simp [heq, h]

theorem isChecked_setClicked (desk : Desk σ) (item other : ItemId) (signal : Signal σ) :
    (desk.modifyItem item fun entry => { entry with clicked := signal }).isChecked other =
      desk.isChecked other := isChecked_modifyItem desk item other fun _ => rfl

theorem isChecked_modifyItem_of_ne (desk : Desk σ) (change : MenuItem σ → MenuItem σ)
    (hne : other ≠ item) :
    (desk.modifyItem item change).isChecked other = desk.isChecked other := by
  rw [isChecked, isChecked, item?_modifyItem, Option.any_map]
  simp [Ne.symm hne]

theorem item?_uncheck (desk : Desk σ) (items : List ItemId) (other : ItemId) :
    (desk.uncheck items).item? other = (desk.item? other).map fun entry =>
      if other ∈ items then { entry with checked := false } else entry := by
  induction items generalizing desk with
  | nil => simp [uncheck]
  | cons item items ih =>
      have hstep : desk.uncheck (item :: items) =
          (desk.modifyItem item fun entry => { entry with checked := false }).uncheck items := rfl
      rw [hstep, ih, item?_modifyItem, Option.map_map]
      refine Option.map_congr fun entry _ => ?_
      by_cases heq : other = item
      · simp [heq]
      · simp [heq, Ne.symm heq]

theorem menus_uncheck (desk : Desk σ) (items : List ItemId) :
    (desk.uncheck items).menus = desk.menus := by
  induction items generalizing desk with
  | nil => rfl
  | cons item items ih => exact ih _

theorem isChecked_uncheck (desk : Desk σ) (items : List ItemId) (other : ItemId) :
    (desk.uncheck items).isChecked other = (desk.isChecked other && !decide (other ∈ items)) := by
  rw [isChecked, isChecked, item?_uncheck, Option.any_map]
  by_cases hm : other ∈ items <;> cases desk.item? other <;> simp [hm]

/-- What is read of an item besides its check mark stays as it is. -/
theorem any_item?_uncheck (desk : Desk σ) (items : List ItemId) (item : ItemId)
    {read : MenuItem σ → Bool} (h : ∀ entry, read { entry with checked := false } = read entry) :
    ((desk.uncheck items).item? item).any read = (desk.item? item).any read := by
  rw [item?_uncheck, Option.any_map]
  by_cases hm : item ∈ items <;> cases desk.item? item <;> simp [hm, h]

/-! ## Clicks -/

theorem press?_eq_some_iff :
    desk.press? item = some desk' ↔
      (desk.item? item).any (·.reacts) = true ∧ desk' = desk.modifyItem item (·.pressed) := by
  unfold press?
  cases desk.item? item with
  | none => simp
  | some entry => by_cases hreacts : entry.reacts <;> simp [hreacts, eq_comm]

/-- A click on an item of a menu reaches the item if it reacts, and unchecks the other items of its
group first. -/
theorem activate?_eq_some_iff :
    desk.activate? id item = some desk' ↔
      (desk.item? item).any (·.reacts) = true ∧
        ∃ index, (desk.itemsOf id).idxOf? item = some index ∧
          desk' = (if desk.isRadio item then
              desk.uncheck (desk.radioNeighbours (desk.itemsOf id) index)
            else desk).modifyItem item (·.pressed) := by
  simp only [activate?]
  cases hindex : (desk.itemsOf id).idxOf? item with
  | none => simp
  | some index =>
      by_cases hreacts : (desk.item? item).any (·.reacts) = true
      · dsimp only
        rw [if_pos hreacts, press?_eq_some_iff]
        have hsame := fun items => desk.any_item?_uncheck items item
          (show ∀ entry : MenuItem σ, MenuItem.reacts { entry with checked := false } = entry.reacts
            from fun _ => rfl)
        split <;> simp [hreacts, hsame]
      · simp [hreacts]

theorem any_reacts_iff :
    (desk.item? item).any (·.reacts) = true ↔
      ∃ entry, desk.item? item = some entry ∧ entry.enabled = true ∧ entry.kind ≠ .separator := by
  simp [Option.any_eq_true, MenuItem.reacts]

theorem activate?_isSome_iff :
    (desk.activate? id item).isSome ↔
      item ∈ desk.itemsOf id ∧
        ∃ entry, desk.item? item = some entry ∧ entry.enabled = true ∧ entry.kind ≠ .separator := by
  rw [← any_reacts_iff, Option.isSome_iff_exists]
  simp only [activate?_eq_some_iff]
  constructor
  · rintro ⟨_, hreacts, index, hindex, -⟩
    exact ⟨List.isSome_idxOf?.mp (by rw [hindex]; rfl), hreacts⟩
  · rintro ⟨hm, hreacts⟩
    obtain ⟨index, hindex⟩ := Option.isSome_iff_exists.mp (List.isSome_idxOf?.mpr hm)
    exact ⟨_, hreacts, index, hindex, rfl⟩

/-- The group of a radio item is the item and its neighbours. -/
theorem grouped_iff (hnodup : (desk.itemsOf id).Nodup) {index : Nat}
    (hindex : (desk.itemsOf id).idxOf? item = some index) (hradio : desk.isRadio item = true) :
    desk.Grouped id item other ↔
      other = item ∨ other ∈ desk.radioNeighbours (desk.itemsOf id) index := by
  obtain ⟨hlt, hget, -⟩ := List.idxOf?_eq_some_iff.mp hindex
  have hsplit : desk.itemsOf id =
      (desk.itemsOf id).take index ++ item :: (desk.itemsOf id).drop (index + 1) := by
    rw [← hget, List.getElem_cons_drop, List.take_append_drop]
  rw [Grouped, radioNeighbours]
  generalize hfront : (desk.itemsOf id).take index = front at hsplit ⊢
  generalize hback : (desk.itemsOf id).drop (index + 1) = back at hsplit ⊢
  rw [hsplit] at hnodup ⊢
  rw [inRun_iff hnodup hradio, runAround]
  simp only [List.mem_append, List.mem_reverse, List.mem_cons]
  tauto

theorem isChecked_pressed (hradio : desk.isRadio item = true) :
    (desk.modifyItem item (·.pressed)).isChecked item = true := by
  obtain ⟨entry, hentry, hkind⟩ := (Option.any_eq_true _ _).mp hradio
  rw [isChecked, item?_modifyItem, hentry, Option.map_some, if_pos rfl, Option.any_some,
    MenuItem.pressed, eq_of_beq hkind]

/-- A click on a radio item leaves it alone checked in its group, and nothing else changes. -/
theorem picked_of_activate? (hnodup : (desk.itemsOf id).Nodup)
    (h : desk.activate? id item = some desk') (hradio : desk.isRadio item = true) :
    desk.Picked id item desk' := by
  obtain ⟨-, index, hindex, rfl⟩ := activate?_eq_some_iff.mp h
  rw [if_pos hradio]
  have hgroup : ∀ other, desk.Grouped id item other ↔ other = item ∨ other ∈ _ :=
    fun _ => grouped_iff hnodup hindex hradio
  generalize desk.radioNeighbours (desk.itemsOf id) index = neighbours at hgroup ⊢
  have hmarks : ∀ other, other ≠ item →
      ((desk.uncheck neighbours).modifyItem item (·.pressed)).isChecked other =
        (desk.isChecked other && !decide (other ∈ neighbours)) := fun other hne => by
    rw [isChecked_modifyItem_of_ne _ _ hne, isChecked_uncheck]
  constructor
  · intro other hother
    by_cases heq : other = item
    · refine iff_of_true ?_ heq
      rw [heq]
      exact isChecked_pressed ((desk.any_item?_uncheck neighbours item fun _ => rfl).trans hradio)
    · have hneighbour := ((hgroup other).mp hother).resolve_left heq
      rw [hmarks other heq]
      simp [hneighbour, heq]
  · intro other hother
    obtain ⟨hne, hfar⟩ := not_or.mp (mt (hgroup other).mpr hother)
    rw [hmarks other hne]
    simp [hfar]

/-- A click on any other item changes no check mark but that of the item. -/
theorem isChecked_of_not_isRadio (h : desk.activate? id item = some desk')
    (hradio : desk.isRadio item = false) (hne : other ≠ item) :
    desk'.isChecked other = desk.isChecked other := by
  obtain ⟨-, _, -, rfl⟩ := activate?_eq_some_iff.mp h
  rw [hradio, if_neg Bool.false_ne_true, isChecked_modifyItem_of_ne _ _ hne]

/-- If one item of a group is checked, one is after a click on any item of the menu. -/
theorem existsUnique_of_activate? (hnodup : (desk.itemsOf id).Nodup) {first : ItemId}
    (hone : ∃! other, desk.Grouped id first other ∧ desk.isChecked other = true)
    (h : desk.activate? id item = some desk') :
    ∃! other, desk.Grouped id first other ∧ desk'.isChecked other = true := by
  by_cases hitem : desk.Grouped id first item
  · have hpicked := picked_of_activate? hnodup h hitem.holds
    have hsame : ∀ other, desk.Grouped id first other → desk.Grouped id item other :=
      fun other hother => hitem.symm.trans hnodup hother
    refine ⟨item, ⟨hitem, (hpicked.alone item (hsame item hitem)).mpr rfl⟩, ?_⟩
    rintro other ⟨hother, hchecked⟩
    exact (hpicked.alone other (hsame other hother)).mp hchecked
  · have hmarks : ∀ other, desk.Grouped id first other →
        desk'.isChecked other = desk.isChecked other := by
      intro other hother
      cases hradio : desk.isRadio item with
      | true =>
          refine (picked_of_activate? hnodup h hradio).others other fun hclicked => hitem ?_
          exact hother.trans hnodup hclicked.symm
      | false =>
          refine isChecked_of_not_isRadio h hradio ?_
          rintro rfl
          exact Bool.false_ne_true (hradio.symm.trans hother.holds)
    have hsame : ∀ other, (desk.Grouped id first other ∧ desk'.isChecked other = true) ↔
        (desk.Grouped id first other ∧ desk.isChecked other = true) :=
      fun other => and_congr_right fun hother => by rw [hmarks other hother]
    exact (existsUnique_congr hsame).mpr hone

end Desk

end WidgetToolkit
