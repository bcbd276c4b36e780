import WidgetToolkit.Proofs.Geometry.Congruence
import WidgetToolkit.Proofs.Tab.Measures

/-! # Where the items and the page of a tab go

The places of the items are told by the place of the strip, by what it measures, and by how wide the
items are and which of them is selected. Where they were before does not matter. -/

namespace WidgetToolkit

variable {K : Type} [Coord K] {same : K → K → Prop}

/-- How wide an item is, and whether it is selected. -/
def TabItem.extent (item : TabItem K) : K × Bool := (item.size.width, item.selected)

/-- A view stays where it is only if it is there already. -/
theorem ViewCore.same_allocate (hsame : Coord.IsCongruence same) (core : ViewCore K)
    (rect : Rect K) : (core.allocate rect).2.rect.Same same rect := by
  unfold allocate
  split
  · rename_i heq
    exact (Rect.same_of_beq hsame heq).symm hsame
  · rw [(stays_invalidateRect _ rect).rect_eq]
    exact .refl hsame rect

namespace TabStrip

/-! ## Items -/

/-- The places from left to right of items with given extents. -/
def placeRects (origin : Point K) (height inset : K) : K → List (K × Bool) → List (Rect K)
  | _, [] => []
  | x, (width, selected) :: rest =>
    let rect : Rect K := .ofOriginSize (origin + (⟨x, 0⟩ : Offset K)) ⟨width, height⟩
    (if selected then rect else { rect with y0 := rect.y0 + inset }) ::
      placeRects origin height inset (x + rect.width) rest

/-- The places where the items belong. -/
def slots (strip : TabStrip K) : List (Rect K) :=
  placeRects strip.core.rect.origin strip.height (strip.settings.topPadding * strip.core.scale) 0
    (strip.items.map TabItem.extent)

/-- The items are where they belong. -/
def Arranged (same : K → K → Prop) (strip : TabStrip K) : Prop :=
  List.Forall₂ (Rect.Same same) (strip.items.map (·.core.rect)) strip.slots

theorem forall₂_placeItems (hsame : Coord.IsCongruence same) (origin : Point K)
    (height inset x : K) (items : List (TabItem K)) :
    List.Forall₂ (Rect.Same same) ((placeItems origin height inset x items).map (·.core.rect))
      (placeRects origin height inset x (items.map TabItem.extent)) := by
  induction items generalizing x with
  | nil => exact .nil
  | cons item rest ih => exact .cons (item.core.same_allocate hsame _) (ih _)

/-! ## What the places depend on -/

/-- Two strips at the same place, with the same measures. -/
structure SameFrame (strip strip' : TabStrip K) : Prop where
  rect_eq : strip'.core.rect = strip.core.rect
  scale_eq : strip'.core.scale = strip.core.scale
  settings_eq : strip'.settings = strip.settings
  height_eq : strip'.height = strip.height

section

variable {strip strip' : TabStrip K} (h : strip.SameFrame strip')

include h

theorem SameFrame.slots_eq
    (hextents : strip'.items.map TabItem.extent = strip.items.map TabItem.extent) :
    strip'.slots = strip.slots := by
  rw [slots, slots, h.rect_eq, h.scale_eq, h.settings_eq, h.height_eq, hextents]

theorem SameFrame.pageRect_eq : strip'.pageRect = strip.pageRect := by
  simp only [pageRect, h.rect_eq, h.scale_eq, h.settings_eq, h.height_eq]

/-- Items that have not moved are still where they belong. -/
theorem SameFrame.arranged (harranged : strip.Arranged same)
    (hextents : strip'.items.map TabItem.extent = strip.items.map TabItem.extent)
    (hrects : strip'.items.map (·.core.rect) = strip.items.map (·.core.rect)) :
    strip'.Arranged same := by
  rwa [Arranged, hrects, h.slots_eq hextents]

end

theorem sameFrame_layout (strip : TabStrip K) : strip.SameFrame strip.layout :=
  ⟨strip.core.stays_invalidate.rect_eq, strip.core.stays_invalidate.scale_eq, rfl, rfl⟩

theorem layout_pageRect (strip : TabStrip K) : strip.layout.pageRect = strip.pageRect :=
  strip.sameFrame_layout.pageRect_eq

theorem arranged_layout (hsame : Coord.IsCongruence same) (strip : TabStrip K) :
    strip.layout.Arranged same := by
  have hextents := map_layout_items TabItem.extent (fun _ _ => rfl) strip
  rw [Arranged, strip.sameFrame_layout.slots_eq hextents]
  exact forall₂_placeItems hsame _ _ _ _ _

theorem sameFrame_setColor (strip : TabStrip K) (color : Color) :
    strip.SameFrame (strip.setColor color) := by
  have hstays := strip.stays_core_setColor color
  refine ⟨hstays.rect_eq, hstays.scale_eq, rfl, ?_⟩
  rw [height, height, strip.measuredHeight_setColor color]
  rfl

theorem Arranged.setColor {strip : TabStrip K} (h : strip.Arranged same) (color : Color) :
    (strip.setColor color).Arranged same := by
  refine (strip.sameFrame_setColor color).arranged h ?_ ?_
  · exact List.map_map.trans (List.map_congr_left fun _ _ => rfl)
  · refine List.map_map.trans (List.map_congr_left fun item _ => ?_)
    exact (item.core.stays_setColor color).rect_eq

/-! ## Strips that stay as they are -/

theorem Still.sameFrame {strip strip' : TabStrip K} (h : strip.Still strip') :
    strip.SameFrame strip' :=
  ⟨h.rect_eq, h.look.scale_eq, h.settings_eq, h.cache.height_eq h.toSameStyle⟩

theorem Still.arranged {strip strip' : TabStrip K} (h : strip.Still strip')
    (harranged : strip.Arranged same) : strip'.Arranged same := by
  refine h.sameFrame.arranged harranged ?_ ?_
  · exact map_eq_of_forall₂ h.items fun item item' hitem => by
      rw [TabItem.extent, TabItem.extent, hitem.size_eq, hitem.selected_eq]
  · exact map_eq_of_forall₂ h.items fun _ _ hitem => hitem.rect_eq

/-! ## Strips at the same place -/

theorem forall₂_placeRects (hsame : Coord.IsCongruence same) {origin origin' : Point K}
    (horigin : origin.Same same origin') (height inset : K) {x x' : K} (hx : same x x')
    (extents : List (K × Bool)) :
    List.Forall₂ (Rect.Same same) (placeRects origin height inset x extents)
      (placeRects origin' height inset x' extents) := by
  induction extents generalizing x x' with
  | nil => exact .nil
  | cons extent rest ih =>
      obtain ⟨width, selected⟩ := extent
      have hcorner : (origin + (⟨x, 0⟩ : Offset K)).Same same (origin' + (⟨x', 0⟩ : Offset K)) :=
        ⟨hsame.add horigin.x hx, hsame.add horigin.y (hsame.refl 0)⟩
      have hrect := Rect.same_ofOriginSize hsame hcorner ⟨width, height⟩
      refine .cons ?_ (ih (hsame.add hx (hrect.width hsame)))
      split
      · exact hrect
      · exact ⟨hrect.x0, hsame.add hrect.y0 (hsame.refl inset), hrect.x1, hrect.y1⟩

theorem same_foldl_width (hsame : Coord.IsCongruence same) {rects rects' : List (Rect K)}
    (hrects : List.Forall₂ (Rect.Same same) rects rects') {width width' : K}
    (hwidth : same width width') :
    same (rects.foldl (fun width rect => width + rect.width) width)
      (rects'.foldl (fun width rect => width + rect.width) width') := by
  induction hrects generalizing width width' with
  | nil => exact hwidth
  | cons hrect _ ih => exact ih (hsame.add hwidth (hrect.width hsame))

/-- Two strips with the same measures, at places that count as the same. -/
structure Level (same : K → K → Prop) (strip strip' : TabStrip K) : Prop where
  settings_eq : strip'.settings = strip.settings
  scale_eq : strip'.core.scale = strip.core.scale
  height_eq : strip'.height = strip.height
  rect : strip.core.rect.Same same strip'.core.rect

section

variable {strip strip' : TabStrip K} (hsame : Coord.IsCongruence same) (h : strip.Level same strip')

include hsame h

theorem Level.slots (hextents : strip'.items.map TabItem.extent = strip.items.map TabItem.extent) :
    List.Forall₂ (Rect.Same same) strip.slots strip'.slots := by
  rw [TabStrip.slots, TabStrip.slots, h.settings_eq, h.scale_eq, h.height_eq, hextents]
  exact forall₂_placeRects hsame h.rect.origin _ _ (hsame.refl 0) _

theorem Level.pageRect : strip.pageRect.Same same strip'.pageRect := by
  have hx0 := hsame.add h.rect.x0 (hsame.refl (strip.settings.contentPadding * strip.core.scale))
  have hy0 := hsame.sub (hsame.add (hsame.add h.rect.y0
    (hsame.refl (strip.settings.contentPadding * strip.core.scale))) (hsame.refl strip.height))
    (hsame.refl strip.core.scale)
  simp only [TabStrip.pageRect, h.settings_eq, h.scale_eq, h.height_eq]
  exact ⟨hx0, hy0, hsame.greatest (hsame.sub h.rect.x1 (hsame.refl _)) hx0,
    hsame.greatest (hsame.sub h.rect.y1 (hsame.refl _)) hy0⟩

/-- The smallest size adds up what the items take. -/
theorem Level.minimumSize (hrects : List.Forall₂ (Rect.Same same)
    (strip.items.map (·.core.rect)) (strip'.items.map (·.core.rect))) :
    strip.minimumSize.Same same strip'.minimumSize := by
  have hwidth := same_foldl_width hsame hrects (hsame.refl 0)
  rw [List.foldl_map, List.foldl_map] at hwidth
  simp only [TabStrip.minimumSize, h.settings_eq, h.scale_eq, h.height_eq]
  exact ⟨hsame.add hwidth (hsame.refl _), hsame.refl _⟩

end

end TabStrip

end WidgetToolkit
