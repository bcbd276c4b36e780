import Mathlib.Algebra.Order.Ring.Rat
import Mathlib.Tactic.Linarith
import WidgetToolkit.Geometry.Rect

/-! # Points inside rectangles, in exact numbers -/

namespace WidgetToolkit

theorem Coord.greatest_eq_max (a b : Rat) : Coord.greatest a b = max a b := by
  simp only [Coord.greatest, max_def]
  split <;> split <;> linarith

theorem Coord.least_eq_min (a b : Rat) : Coord.least a b = min a b := by
  simp only [Coord.least, min_def]
  split <;> split <;> linarith

theorem Point.add_add (p : Point Rat) (a b : Offset Rat) : p + a + b = p + (b + a) := by
  change Point.mk (p.x + a.dx + b.dx) (p.y + a.dy + b.dy) =
    Point.mk (p.x + (b.dx + a.dx)) (p.y + (b.dy + a.dy))
  rw [add_assoc, add_assoc, add_comm a.dx, add_comm a.dy]

theorem Point.add_zero (p : Point Rat) : p + (Offset.zero : Offset Rat) = p := by
  change Point.mk (p.x + 0) (p.y + 0) = p
  rw [Rat.add_zero, Rat.add_zero]

/-- Every point can be seen from somewhere else. -/
theorem Point.exists_eq_add (p : Point Rat) (offset : Offset Rat) :
    ∃ q : Point Rat, p = q + offset := by
  refine ⟨⟨p.x - offset.dx, p.y - offset.dy⟩, ?_⟩
  change p = Point.mk (p.x - offset.dx + offset.dx) (p.y - offset.dy + offset.dy)
  rw [sub_add_cancel, sub_add_cancel]

namespace Rect

theorem contains_iff {r : Rect Rat} {p : Point Rat} :
    r.contains p = true ↔ (r.x0 ≤ p.x ∧ p.x < r.x1) ∧ r.y0 ≤ p.y ∧ p.y < r.y1 := by
  simp [contains, and_assoc]

/-- What is empty has no point inside. -/
theorem isEmpty_of_contains {r : Rect Rat} {p : Point Rat} (h : r.contains p) :
    r.isEmpty = false := by
  obtain ⟨⟨hx0, hx1⟩, hy0, hy1⟩ := contains_iff.mp h
  have hwidth : r.width ≠ 0 := (sub_pos.mpr (lt_of_le_of_lt hx0 hx1)).ne'
  have hheight : r.height ≠ 0 := (sub_pos.mpr (lt_of_le_of_lt hy0 hy1)).ne'
  simpa [isEmpty] using ⟨hwidth, hheight⟩

/-- A point is inside the common part of two rectangles if it is inside both. -/
theorem contains_intersect (r s : Rect Rat) (p : Point Rat) :
    (r.intersect s).contains p = (r.contains p && s.contains p) := by
  have hside : ∀ a b a' b' x : Rat,
      max a a' ≤ x ∧ x < max (min b b') (max a a') ↔ (a ≤ x ∧ x < b) ∧ a' ≤ x ∧ x < b' := by
    intro a b a' b' x
    rw [lt_max_iff, lt_min_iff, max_le_iff]
    constructor
    · rintro ⟨⟨ha, ha'⟩, hb | hempty⟩
      · exact ⟨⟨ha, hb.1⟩, ha', hb.2⟩
      · exact absurd (max_le ha ha') (not_le.mpr hempty)
    · rintro ⟨⟨ha, hb⟩, ha', hb'⟩
      exact ⟨⟨ha, ha'⟩, .inl ⟨hb, hb'⟩⟩
  rw [Bool.eq_iff_iff, Bool.and_eq_true, contains_iff, contains_iff, contains_iff]
  simp only [intersect, Coord.greatest_eq_max, Coord.least_eq_min, hside]
  exact and_and_and_comm

/-- A rectangle is moved one way, or a point the other way. -/
theorem contains_sub (r : Rect Rat) (offset : Offset Rat) (p : Point Rat) :
    (r - offset).contains p = r.contains (p + offset) := by
  rw [Bool.eq_iff_iff, contains_iff, contains_iff]
  change (r.x0 - offset.dx ≤ p.x ∧ p.x < r.x1 - offset.dx) ∧
      r.y0 - offset.dy ≤ p.y ∧ p.y < r.y1 - offset.dy ↔
    (r.x0 ≤ p.x + offset.dx ∧ p.x + offset.dx < r.x1) ∧
      r.y0 ≤ p.y + offset.dy ∧ p.y + offset.dy < r.y1
  simp only [sub_le_iff_le_add, lt_sub_iff_add_lt]

theorem contains_add (r : Rect Rat) (offset : Offset Rat) (p : Point Rat) :
    (r + offset).contains (p + offset) = r.contains p := by
  rw [Bool.eq_iff_iff, contains_iff, contains_iff]
  change (r.x0 + offset.dx ≤ p.x + offset.dx ∧ p.x + offset.dx < r.x1 + offset.dx) ∧
      r.y0 + offset.dy ≤ p.y + offset.dy ∧ p.y + offset.dy < r.y1 + offset.dy ↔ _
  simp only [add_le_add_iff_right, add_lt_add_iff_right]

/-- A point inside one of two rectangles is inside the smallest one around both. -/
theorem contains_union (r s : Rect Rat) {p : Point Rat} (h : r.contains p ∨ s.contains p) :
    (r.union s).contains p := by
  rw [contains_iff, contains_iff] at h
  rw [contains_iff]
  simp only [union, Coord.least_eq_min, Coord.greatest_eq_max, min_le_iff, lt_max_iff]
  rcases h with ⟨hx, hy⟩ | ⟨hx, hy⟩
  · exact ⟨⟨.inl hx.1, .inl hx.2⟩, .inl hy.1, .inl hy.2⟩
  · exact ⟨⟨.inr hx.1, .inr hx.2⟩, .inr hy.1, .inr hy.2⟩

/-- The corners are in order. -/
structure Ordered (r : Rect Rat) : Prop where
  x_le : r.x0 ≤ r.x1
  y_le : r.y0 ≤ r.y1

theorem ofOriginSize_eq (p : Point Rat) {s : Size Rat} (hwidth : 0 ≤ s.width)
    (hheight : 0 ≤ s.height) :
    ofOriginSize p s = ⟨p.x, p.y, p.x + s.width, p.y + s.height⟩ := by
  simp only [ofOriginSize, abs, Coord.least_eq_min, Coord.greatest_eq_max]
  rw [min_eq_left (by linarith), min_eq_left (by linarith), max_eq_right (by linarith),
    max_eq_right (by linarith)]

theorem ordered_ofOriginSize (p : Point Rat) (s : Size Rat) : (ofOriginSize p s).Ordered := by
  simp only [ofOriginSize, abs, Coord.least_eq_min, Coord.greatest_eq_max]
  exact ⟨min_le_max, min_le_max⟩

end Rect

end WidgetToolkit
