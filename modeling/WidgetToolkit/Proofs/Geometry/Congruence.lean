import Mathlib.Data.List.Forall2
import WidgetToolkit.Geometry.Rect

/-! # Coordinates that count as the same number

Two coordinates may compare equal and yet be different values, as the two zeros of floating point
are. What is laid out from the one is then the same, number for number, as what is laid out from the
other. -/

namespace WidgetToolkit

variable {K : Type} [Coord K]

/-- What compares equal is the same number, and reckoning does not tell the same numbers apart. -/
structure Coord.IsCongruence (same : K → K → Prop) : Prop where
  refl : ∀ a, same a a
  symm : ∀ {a b}, same a b → same b a
  trans : ∀ {a b c}, same a b → same b c → same a c
  of_beq : ∀ {a b : K}, (a == b) = true → same a b
  add : ∀ {a b c d}, same a b → same c d → same (a + c) (b + d)
  sub : ∀ {a b c d}, same a b → same c d → same (a - c) (b - d)
  div : ∀ {a b} (c : K), same a b → same (a / c) (b / c)
  least : ∀ {a b c d}, same a b → same c d → same (Coord.least a c) (Coord.least b d)
  greatest : ∀ {a b c d}, same a b → same c d → same (Coord.greatest a c) (Coord.greatest b d)

/-- Where only a coordinate itself compares equal to it, being the same number is being equal. -/
theorem Coord.isCongruence_eq [LawfulBEq K] : Coord.IsCongruence (Eq : K → K → Prop) where
  refl _ := rfl
  symm h := h.symm
  trans h h' := h.trans h'
  of_beq h := eq_of_beq h
  add h h' := by rw [h, h']
  sub h h' := by rw [h, h']
  div c h := by rw [h]
  least h h' := by rw [h, h']
  greatest h h' := by rw [h, h']

/-- Nothing need be told apart. -/
theorem Coord.isCongruence_true : Coord.IsCongruence (fun _ _ : K => True) := by
  constructor <;> intros <;> trivial

/-- The same value, or one that compares equal. -/
def Coord.Agree (a b : K) : Prop := a = b ∨ (a == b) = true

variable {same : K → K → Prop}

/-! ## Points, sizes and rectangles -/

structure Point.Same (same : K → K → Prop) (p q : Point K) : Prop where
  x : same p.x q.x
  y : same p.y q.y

structure Size.Same (same : K → K → Prop) (s t : Size K) : Prop where
  width : same s.width t.width
  height : same s.height t.height

structure Rect.Same (same : K → K → Prop) (r s : Rect K) : Prop where
  x0 : same r.x0 s.x0
  y0 : same r.y0 s.y0
  x1 : same r.x1 s.x1
  y1 : same r.y1 s.y1

namespace Rect

theorem beq_eq (r s : Rect K) :
    (r == s) = (r.x0 == s.x0 && (r.y0 == s.y0 && (r.x1 == s.x1 && r.y1 == s.y1))) := rfl

omit [Coord K] in
theorem Same.eq {r s : Rect K} (h : r.Same Eq s) : r = s := by
  obtain ⟨hx0, hy0, hx1, hy1⟩ := h
  cases r
  cases s
  simp_all

variable (hsame : Coord.IsCongruence same) {r s t : Rect K}

include hsame

theorem Same.refl (r : Rect K) : r.Same same r :=
  ⟨hsame.refl _, hsame.refl _, hsame.refl _, hsame.refl _⟩

theorem Same.symm (h : r.Same same s) : s.Same same r :=
  ⟨hsame.symm h.x0, hsame.symm h.y0, hsame.symm h.x1, hsame.symm h.y1⟩

theorem Same.trans (h : r.Same same s) (h' : s.Same same t) : r.Same same t :=
  ⟨hsame.trans h.x0 h'.x0, hsame.trans h.y0 h'.y0, hsame.trans h.x1 h'.x1, hsame.trans h.y1 h'.y1⟩

theorem same_of_beq (h : (r == s) = true) : r.Same same s := by
  simp only [beq_eq, Bool.and_eq_true] at h
  obtain ⟨hx0, hy0, hx1, hy1⟩ := h
  exact ⟨hsame.of_beq hx0, hsame.of_beq hy0, hsame.of_beq hx1, hsame.of_beq hy1⟩

theorem Same.width (h : r.Same same s) : same r.width s.width := hsame.sub h.x1 h.x0

omit hsame [Coord K] in
theorem Same.origin (h : r.Same same s) : r.origin.Same same s.origin := ⟨h.x0, h.y0⟩

theorem same_ofOriginSize {p q : Point K} (h : p.Same same q) (size : Size K) :
    (ofOriginSize p size).Same same (ofOriginSize q size) := by
  have hx1 := hsame.add h.x (hsame.refl size.width)
  have hy1 := hsame.add h.y (hsame.refl size.height)
  exact ⟨hsame.least h.x hx1, hsame.least h.y hy1, hsame.greatest h.x hx1, hsame.greatest h.y hy1⟩

end Rect

end WidgetToolkit
