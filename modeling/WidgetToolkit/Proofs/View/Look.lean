import WidgetToolkit.Proofs.View.Core
import WidgetToolkit.View.CoreStep

/-! # Changes that leave the look and the place of a view alone

What is laid out is told by fonts, scale factors and places. Most changes of the common part of a view
are of other things: of its state, its flags, or the region that waits to be repainted. -/

namespace WidgetToolkit

variable {K : Type}

/-- The same view, with the same font, color and scale factor. -/
structure ViewCore.SameLook (core core' : ViewCore K) : Prop where
  id_eq : core'.id = core.id
  font_eq : core'.font = core.font
  color_eq : core'.color = core.color
  scale_eq : core'.scale = core.scale

/-- It is at the same place, too. -/
structure ViewCore.Stays (core core' : ViewCore K) : Prop extends core.SameLook core' where
  rect_eq : core'.rect = core.rect

/-- A step that sets neither font, color, scale factor or place, nor shows, hides or attaches. -/
def CoreStep.keepsLook : CoreStep K → Bool
  | .setFont _ | .setColor _ | .setScale _ | .allocate _ | .setVisible _ | .setParent _ => false
  | _ => true

namespace ViewCore

theorem SameLook.refl (core : ViewCore K) : core.SameLook core := ⟨rfl, rfl, rfl, rfl⟩

theorem Stays.refl (core : ViewCore K) : core.Stays core := ⟨.refl core, rfl⟩

theorem SameLook.trans {a b c : ViewCore K} (hab : a.SameLook b) (hbc : b.SameLook c) :
    a.SameLook c :=
  ⟨hbc.id_eq.trans hab.id_eq, hbc.font_eq.trans hab.font_eq, hbc.color_eq.trans hab.color_eq,
    hbc.scale_eq.trans hab.scale_eq⟩

theorem Stays.trans {a b c : ViewCore K} (hab : a.Stays b) (hbc : b.Stays c) : a.Stays c :=
  ⟨hab.toSameLook.trans hbc.toSameLook, hbc.rect_eq.trans hab.rect_eq⟩

theorem stays_setParent (core : ViewCore K) (parent : Option ViewId) :
    core.Stays (core.setParent parent) := ⟨⟨rfl, rfl, rfl, rfl⟩, rfl⟩

variable [Coord K]

theorem stays_invalidateRect (core : ViewCore K) (rect : Rect K) :
    core.Stays (core.invalidateRect rect) := by
  rw [invalidateRect_eq]
  exact ⟨⟨rfl, rfl, rfl, rfl⟩, rfl⟩

theorem stays_invalidate (core : ViewCore K) : core.Stays core.invalidate :=
  core.stays_invalidateRect core.rect

theorem stays_setFont (core : ViewCore K) (font : Font) :
    ViewCore.Stays { core with font := font } (core.setFont font) :=
  stays_invalidate _

theorem stays_setColor (core : ViewCore K) (color : Color) :
    ViewCore.Stays { core with color := color } (core.setColor color) :=
  stays_invalidate _

theorem stays_setState (core : ViewCore K) (state : ControlState) :
    core.Stays (core.setState state) :=
  have hset : core.Stays { core with state := state } := ⟨⟨rfl, rfl, rfl, rfl⟩, rfl⟩
  hset.trans (stays_invalidate _)

theorem stays_setVisible (core : ViewCore K) (visible : Bool) :
    core.Stays (core.setVisible visible) :=
  have hset : core.Stays { core with visible := visible, focused := core.focused && visible } :=
    ⟨⟨rfl, rfl, rfl, rfl⟩, rfl⟩
  hset.trans (stays_invalidate _)

theorem stays_setFocused (core : ViewCore K) (focused : Bool) :
    core.Stays (core.setFocused focused).2 := by
  unfold setFocused
  split
  · exact .refl core
  · have hset : core.Stays { core with focused := focused } := ⟨⟨rfl, rfl, rfl, rfl⟩, rfl⟩
    exact hset.trans (stays_invalidate _)

theorem stays_step (core : ViewCore K) {step : CoreStep K} (h : step.keepsLook) :
    core.Stays (core.step step).2 := by
  cases step with
  | setFont | setColor | setScale | allocate | setVisible | setParent => cases h
  | setBackground background =>
      have hset : core.Stays { core with background := background } := ⟨⟨rfl, rfl, rfl, rfl⟩, rfl⟩
      exact hset.trans (stays_invalidate _)
  | setState state => exact core.stays_setState state
  | setEnabled enabled => exact core.stays_setState _
  | setFocused focused => exact core.stays_setFocused focused
  | invalidate => exact core.stays_invalidate
  | invalidateRect rect => exact core.stays_invalidateRect rect
  | setFocusable | contains | takeDamage => exact ⟨⟨rfl, rfl, rfl, rfl⟩, rfl⟩

theorem sameLook_allocate (core : ViewCore K) (rect : Rect K) :
    core.SameLook (core.allocate rect).2 := by
  unfold allocate
  split
  · exact .refl core
  · have hbefore := core.stays_invalidateRect core.rect
    have hmoved : core.SameLook { core.invalidateRect core.rect with rect := rect } :=
      ⟨hbefore.id_eq, hbefore.font_eq, hbefore.color_eq, hbefore.scale_eq⟩
    exact hmoved.trans (stays_invalidateRect _ rect).toSameLook

/-! ## The parent -/

@[simp] theorem invalidateRect_parent (core : ViewCore K) (rect : Rect K) :
    (core.invalidateRect rect).parent = core.parent := by
  rw [invalidateRect_eq]

@[simp] theorem invalidate_parent (core : ViewCore K) : core.invalidate.parent = core.parent :=
  invalidateRect_parent core core.rect

@[simp] theorem allocate_parent (core : ViewCore K) (rect : Rect K) :
    (core.allocate rect).2.parent = core.parent := by
  unfold allocate
  split <;> simp

theorem step_parent (core : ViewCore K) {step : CoreStep K} (h : step.keepsLook) :
    (core.step step).2.parent = core.parent := by
  cases step with
  | setFont | setColor | setScale | allocate | setVisible | setParent => cases h
  | setBackground | setState | setEnabled => exact invalidate_parent _
  | setFocused focused =>
      simp only [ViewCore.step, ViewCore.setFocused]
      split
      · rfl
      · exact invalidate_parent _
  | invalidate => exact invalidate_parent core
  | invalidateRect rect => exact invalidateRect_parent core rect
  | setFocusable | contains | takeDamage => rfl

end ViewCore

end WidgetToolkit
