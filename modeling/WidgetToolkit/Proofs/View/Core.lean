import WidgetToolkit.View.Tree

/-! # What changes of the common part of a view leave alone -/

namespace WidgetToolkit

variable {K : Type}

/-! ## Changes of a field -/

namespace ViewCore

@[simp] theorem setScale_id (core : ViewCore K) (scale : K) :
    (core.setScale scale).id = core.id := rfl

@[simp] theorem setScale_visible (core : ViewCore K) (scale : K) :
    (core.setScale scale).visible = core.visible := rfl

@[simp] theorem setScale_focused (core : ViewCore K) (scale : K) :
    (core.setScale scale).focused = core.focused := rfl

@[simp] theorem setParent_id (core : ViewCore K) (parent : Option ViewId) :
    (core.setParent parent).id = core.id := rfl

@[simp] theorem setParent_visible (core : ViewCore K) (parent : Option ViewId) :
    (core.setParent parent).visible = core.visible := rfl

end ViewCore

namespace View

@[simp] theorem core_mapCore (view : View K) (change : ViewCore K → ViewCore K) :
    (view.mapCore change).core = change view.core := by
  cases view <;> rfl

end View

variable [Coord K]

namespace ViewCore

/-! ## Repainting -/

theorem invalidateRect_eq (core : ViewCore K) (rect : Rect K) :
    core.invalidateRect rect =
      { core with
        needsPaint := (core.invalidateRect rect).needsPaint
        damage := (core.invalidateRect rect).damage } := by
  unfold invalidateRect
  split <;> rfl

@[simp] theorem invalidateRect_id (core : ViewCore K) (rect : Rect K) :
    (core.invalidateRect rect).id = core.id := by
  rw [invalidateRect_eq]

@[simp] theorem invalidateRect_visible (core : ViewCore K) (rect : Rect K) :
    (core.invalidateRect rect).visible = core.visible := by
  rw [invalidateRect_eq]

@[simp] theorem invalidateRect_focused (core : ViewCore K) (rect : Rect K) :
    (core.invalidateRect rect).focused = core.focused := by
  rw [invalidateRect_eq]

@[simp] theorem invalidateRect_focusable (core : ViewCore K) (rect : Rect K) :
    (core.invalidateRect rect).focusable = core.focusable := by
  rw [invalidateRect_eq]

@[simp] theorem invalidate_id (core : ViewCore K) : core.invalidate.id = core.id :=
  invalidateRect_id core core.rect

@[simp] theorem invalidate_visible (core : ViewCore K) : core.invalidate.visible = core.visible :=
  invalidateRect_visible core core.rect

@[simp] theorem invalidate_focused (core : ViewCore K) : core.invalidate.focused = core.focused :=
  invalidateRect_focused core core.rect

@[simp] theorem invalidate_focusable (core : ViewCore K) :
    core.invalidate.focusable = core.focusable :=
  invalidateRect_focusable core core.rect

/-! ## Changes -/

@[simp] theorem allocate_id (core : ViewCore K) (rect : Rect K) :
    (core.allocate rect).2.id = core.id := by
  unfold allocate
  split <;> simp

@[simp] theorem allocate_visible (core : ViewCore K) (rect : Rect K) :
    (core.allocate rect).2.visible = core.visible := by
  unfold allocate
  split <;> simp

@[simp] theorem allocate_focused (core : ViewCore K) (rect : Rect K) :
    (core.allocate rect).2.focused = core.focused := by
  unfold allocate
  split <;> simp

@[simp] theorem setFont_id (core : ViewCore K) (font : Font) : (core.setFont font).id = core.id := by
  simp [setFont]

@[simp] theorem setFont_visible (core : ViewCore K) (font : Font) :
    (core.setFont font).visible = core.visible := by
  simp [setFont]

@[simp] theorem setColor_id (core : ViewCore K) (color : Color) :
    (core.setColor color).id = core.id := by
  simp [setColor]

@[simp] theorem setColor_visible (core : ViewCore K) (color : Color) :
    (core.setColor color).visible = core.visible := by
  simp [setColor]

@[simp] theorem setState_id (core : ViewCore K) (state : ControlState) :
    (core.setState state).id = core.id := by
  simp [setState]

@[simp] theorem setState_visible (core : ViewCore K) (state : ControlState) :
    (core.setState state).visible = core.visible := by
  simp [setState]

@[simp] theorem setState_focused (core : ViewCore K) (state : ControlState) :
    (core.setState state).focused = core.focused := by
  simp [setState]

@[simp] theorem setVisible_id (core : ViewCore K) (visible : Bool) :
    (core.setVisible visible).id = core.id := by
  simp [setVisible]

@[simp] theorem setVisible_visible (core : ViewCore K) (visible : Bool) :
    (core.setVisible visible).visible = visible := by
  simp [setVisible]

@[simp] theorem setVisible_focused (core : ViewCore K) (visible : Bool) :
    (core.setVisible visible).focused = (core.focused && visible) := by
  simp [setVisible]

@[simp] theorem setVisible_focusable (core : ViewCore K) (visible : Bool) :
    (core.setVisible visible).focusable = core.focusable := by
  simp [setVisible]

@[simp] theorem setFocused_id (core : ViewCore K) (focused : Bool) :
    (core.setFocused focused).2.id = core.id := by
  unfold setFocused
  split <;> simp

@[simp] theorem setFocused_focusable (core : ViewCore K) (focused : Bool) :
    (core.setFocused focused).2.focusable = core.focusable := by
  unfold setFocused
  split
  · rfl
  · rw [invalidate, invalidateRect_eq]

@[simp] theorem setFocused_focused (core : ViewCore K) (focused : Bool) :
    (core.setFocused focused).2.focused = focused := by
  unfold setFocused
  split
  · assumption
  · rw [invalidate, invalidateRect_eq]

@[simp] theorem setFocused_visible (core : ViewCore K) (focused : Bool) :
    (core.setFocused focused).2.visible = core.visible := by
  unfold setFocused
  split <;> simp

end ViewCore

@[simp] theorem View.core_setVisible_visible (view : View K) (visible : Bool) :
    (view.setVisible visible).core.visible = visible := by
  simp [View.setVisible]

end WidgetToolkit
