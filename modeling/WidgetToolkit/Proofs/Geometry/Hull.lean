import WidgetToolkit.Proofs.Geometry.Rect

/-! # The smallest rectangle around some others

In exact numbers, a rectangle that has points inside is told by them. The smallest rectangle around
others is the one that has all of their points inside, and whose points any other such rectangle has
inside, too. -/

namespace WidgetToolkit

namespace Rect

instance (r : Rect Rat) : Decidable r.Ordered :=
  decidable_of_iff (r.x0 ≤ r.x1 ∧ r.y0 ≤ r.y1) ⟨fun h => ⟨h.1, h.2⟩, fun h => ⟨h.1, h.2⟩⟩

/-- All points of the other rectangle are inside. -/
def Covers (r s : Rect Rat) : Prop := ∀ p : Point Rat, s.contains p → r.contains p

/-- The smallest rectangle that covers all the others. -/
structure IsHull (hull : Rect Rat) (rects : List (Rect Rat)) : Prop where
  ordered : hull.Ordered
  nonempty : hull.isEmpty = false
  covers : ∀ rect ∈ rects, hull.Covers rect
  least : ∀ cover : Rect Rat, (∀ rect ∈ rects, cover.Covers rect) → cover.Covers hull

/-! ## Covering -/

theorem Covers.refl (r : Rect Rat) : r.Covers r := fun _ h => h

theorem Covers.trans {r s t : Rect Rat} (hrs : r.Covers s) (hst : s.Covers t) : r.Covers t :=
  fun p h => hrs p (hst p h)

theorem covers_of_isEmpty (r : Rect Rat) {s : Rect Rat} (hempty : s.isEmpty) : r.Covers s := by
  intro p hp
  rw [isEmpty_of_contains hp] at hempty
  contradiction

theorem covers_union_left (r s : Rect Rat) : (r.union s).Covers r :=
  fun _ h => contains_union r s (.inl h)

theorem covers_union_right (r s : Rect Rat) : (r.union s).Covers s :=
  fun _ h => contains_union r s (.inr h)

theorem Ordered.isEmpty_eq_false_iff {r : Rect Rat} (h : r.Ordered) :
    r.isEmpty = false ↔ r.x0 < r.x1 ∧ r.y0 < r.y1 := by
  have hwidth : r.width ≠ 0 ↔ r.x0 < r.x1 := by
    rw [width, sub_ne_zero, h.x_le.lt_iff_ne, ne_comm]
  have hheight : r.height ≠ 0 ↔ r.y0 < r.y1 := by
    rw [height, sub_ne_zero, h.y_le.lt_iff_ne, ne_comm]
  rw [← hwidth, ← hheight, ← mul_ne_zero_iff]
  exact beq_eq_false_iff_ne

theorem Ordered.contains_origin {r : Rect Rat} (h : r.Ordered) (hempty : r.isEmpty = false) :
    r.contains r.origin := by
  obtain ⟨hx, hy⟩ := h.isEmpty_eq_false_iff.mp hempty
  exact contains_iff.mpr ⟨⟨le_rfl, hx⟩, le_rfl, hy⟩

/-- A rectangle covers one that has points inside if its edges are no nearer. -/
theorem Ordered.covers_iff {r s : Rect Rat} (h : s.Ordered) (hempty : s.isEmpty = false) :
    r.Covers s ↔ (r.x0 ≤ s.x0 ∧ s.x1 ≤ r.x1) ∧ r.y0 ≤ s.y0 ∧ s.y1 ≤ r.y1 := by
  obtain ⟨hx, hy⟩ := h.isEmpty_eq_false_iff.mp hempty
  constructor
  · intro hcovers
    obtain ⟨⟨hx0, -⟩, hy0, -⟩ := contains_iff.mp (hcovers _ (h.contains_origin hempty))
    refine ⟨⟨hx0, ?_⟩, hy0, ?_⟩
    · apply le_of_forall_lt
      intro x hlt
      have hinside : s.contains ⟨max x s.x0, s.y0⟩ :=
        contains_iff.mpr ⟨⟨le_max_right _ _, max_lt hlt hx⟩, le_rfl, hy⟩
      exact (le_max_left _ _).trans_lt (contains_iff.mp (hcovers _ hinside)).1.2
    · apply le_of_forall_lt
      intro y hlt
      have hinside : s.contains ⟨s.x0, max y s.y0⟩ :=
        contains_iff.mpr ⟨⟨le_rfl, hx⟩, le_max_right _ _, max_lt hlt hy⟩
      exact (le_max_left _ _).trans_lt (contains_iff.mp (hcovers _ hinside)).2.2
  · rintro ⟨⟨hx0, hx1⟩, hy0, hy1⟩ p hp
    obtain ⟨⟨hpx0, hpx1⟩, hpy0, hpy1⟩ := contains_iff.mp hp
    exact contains_iff.mpr
      ⟨⟨hx0.trans hpx0, hpx1.trans_le hx1⟩, hy0.trans hpy0, hpy1.trans_le hy1⟩

/-! ## Hulls -/

theorem union_eq (r s : Rect Rat) :
    r.union s = ⟨min r.x0 s.x0, min r.y0 s.y0, max r.x1 s.x1, max r.y1 s.y1⟩ := by
  simp only [union, Coord.least_eq_min, Coord.greatest_eq_max]

theorem Ordered.union {r : Rect Rat} (h : r.Ordered) (s : Rect Rat) : (r.union s).Ordered := by
  rw [union_eq]
  exact ⟨(min_le_left _ _).trans (h.x_le.trans (le_max_left _ _)),
    (min_le_left _ _).trans (h.y_le.trans (le_max_left _ _))⟩

namespace IsHull

variable {hull rect : Rect Rat} {rects : List (Rect Rat)}

/-- Where all the others are empty, one that is not is the hull. -/
theorem single (hrects : ∀ other ∈ rects, other.isEmpty) (hordered : rect.Ordered)
    (hempty : rect.isEmpty = false) : rect.IsHull (rects ++ [rect]) := by
  refine ⟨hordered, hempty, fun other hm => ?_, fun cover hcover => hcover rect (by simp)⟩
  rcases List.mem_append.mp hm with hm | hm
  · exact rect.covers_of_isEmpty (hrects other hm)
  · rw [List.mem_singleton.mp hm]
    exact .refl rect

/-- An empty rectangle changes nothing. -/
theorem append_empty (h : hull.IsHull rects) (hempty : rect.isEmpty) :
    hull.IsHull (rects ++ [rect]) := by
  refine ⟨h.ordered, h.nonempty, fun other hm => ?_, fun cover hcover => h.least cover ?_⟩
  · rcases List.mem_append.mp hm with hm | hm
    · exact h.covers other hm
    · rw [List.mem_singleton.mp hm]
      exact hull.covers_of_isEmpty hempty
  · intro other hm
    exact hcover other (List.mem_append_left _ hm)

/-- Any other is joined with the hull. -/
theorem append (h : hull.IsHull rects) (hordered : rect.Ordered) (hempty : rect.isEmpty = false) :
    (hull.union rect).IsHull (rects ++ [rect]) := by
  have hunion := h.ordered.union rect
  have hnonempty : (hull.union rect).isEmpty = false :=
    isEmpty_of_contains (covers_union_right hull rect _ (hordered.contains_origin hempty))
  refine ⟨hunion, hnonempty, fun other hm => ?_, fun cover hcover => ?_⟩
  · rcases List.mem_append.mp hm with hm | hm
    · exact (covers_union_left hull rect).trans (h.covers other hm)
    · rw [List.mem_singleton.mp hm]
      exact covers_union_right hull rect
  · have hhull := h.least cover fun other hm => hcover other (List.mem_append_left _ hm)
    have hrect := hcover rect (by simp)
    obtain ⟨⟨hhullx0, hhullx1⟩, hhully0, hhully1⟩ := (h.ordered.covers_iff h.nonempty).mp hhull
    obtain ⟨⟨hrectx0, hrectx1⟩, hrecty0, hrecty1⟩ := (hordered.covers_iff hempty).mp hrect
    rw [hunion.covers_iff hnonempty, union_eq]
    exact ⟨⟨le_min hhullx0 hrectx0, max_le hhullx1 hrectx1⟩,
      le_min hhully0 hrecty0, max_le hhully1 hrecty1⟩

end IsHull

end Rect

end WidgetToolkit
