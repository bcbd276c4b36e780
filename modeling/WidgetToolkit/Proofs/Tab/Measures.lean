import WidgetToolkit.Proofs.Tab.Selection
import WidgetToolkit.Proofs.View.Look
import WidgetToolkit.Proofs.View.Placement

/-! # The measures of a tab strip

A strip keeps what it has measured: its height, and the sizes of its items. What is kept is what would
be measured now, and every item has the font, the color and the scale factor of its strip. -/

namespace WidgetToolkit

variable {K : Type} [Coord K]

/-! ## Items -/

/-- The same item with the same looks, of the same size. -/
structure TabItem.Alike (item item' : TabItem K) : Prop where
  look : item.core.SameLook item'.core
  parent_eq : item'.core.parent = item.core.parent
  metrics_eq : item'.metrics = item.metrics
  settings_eq : item'.settings = item.settings
  title_eq : item'.title = item.title
  size_eq : item'.size = item.size

namespace TabItem

omit [Coord K] in
theorem Alike.refl (item : TabItem K) : item.Alike item := ⟨.refl item.core, rfl, rfl, rfl, rfl, rfl⟩

omit [Coord K] in
theorem Alike.trans {a b c : TabItem K} (hab : a.Alike b) (hbc : b.Alike c) : a.Alike c :=
  ⟨hab.look.trans hbc.look, hbc.parent_eq.trans hab.parent_eq, hbc.metrics_eq.trans hab.metrics_eq,
    hbc.settings_eq.trans hab.settings_eq, hbc.title_eq.trans hab.title_eq,
    hbc.size_eq.trans hab.size_eq⟩

/-- What is measured is a title in a font. -/
theorem measured_congr {item item' : TabItem K} (hmetrics : item'.metrics = item.metrics)
    (hsettings : item'.settings = item.settings) (htitle : item'.title = item.title)
    (hfont : item'.core.font = item.core.font) (hscale : item'.core.scale = item.core.scale) :
    item'.measured = item.measured := by
  simp only [measured, hmetrics, hsettings, htitle, hfont, hscale]

theorem Alike.measured_eq {item item' : TabItem K} (h : item.Alike item') :
    item'.measured = item.measured :=
  measured_congr h.metrics_eq h.settings_eq h.title_eq h.look.font_eq h.look.scale_eq

theorem alike_setSelected (item : TabItem K) (selected : Bool) :
    item.Alike (item.setSelected selected) :=
  ⟨(item.core.stays_setState _).toSameLook, ViewCore.invalidate_parent _, rfl, rfl, rfl, rfl⟩

theorem alike_setHovered (item : TabItem K) (hovered : Bool) :
    item.Alike (item.setHovered hovered) := by
  unfold setHovered
  split
  · exact .refl item
  · exact ⟨(item.core.stays_setState _).toSameLook, ViewCore.invalidate_parent _, rfl, rfl, rfl, rfl⟩

theorem alike_allocate (item : TabItem K) (rect : Rect K) : item.Alike (item.allocate rect) :=
  ⟨item.core.sameLook_allocate rect, item.core.allocate_parent rect, rfl, rfl, rfl, rfl⟩

/-- Measuring comes before repainting, which changes nothing that is measured. -/
theorem remeasure_size (item : TabItem K) : item.remeasure.size = item.remeasure.measured := by
  have hlook := item.core.stays_invalidate
  simp only [remeasure, measured, hlook.font_eq, hlook.scale_eq]

end TabItem

/-- It is also at the same place, and selected or not as before. -/
structure TabItem.Still (item item' : TabItem K) : Prop extends item.Alike item' where
  rect_eq : item'.core.rect = item.core.rect
  selected_eq : item'.selected = item.selected

namespace TabItem

omit [Coord K] in
theorem Still.refl (item : TabItem K) : item.Still item := ⟨.refl item, rfl, rfl⟩

omit [Coord K] in
theorem Still.trans {a b c : TabItem K} (hab : a.Still b) (hbc : b.Still c) : a.Still c :=
  ⟨hab.toAlike.trans hbc.toAlike, hbc.rect_eq.trans hab.rect_eq,
    hbc.selected_eq.trans hab.selected_eq⟩

theorem still_setHovered (item : TabItem K) (hovered : Bool) :
    item.Still (item.setHovered hovered) := by
  refine ⟨item.alike_setHovered hovered, ?_, ?_⟩
  · unfold setHovered
    split
    · rfl
    · exact (item.core.stays_setState _).rect_eq
  · exact Tab.setHovered_selected item hovered

end TabItem

namespace TabStrip

/-- The same strip, which measures and dresses its items in the same way. -/
structure SameStyle (strip strip' : TabStrip K) : Prop where
  look : strip.core.SameLook strip'.core
  metrics_eq : strip'.metrics = strip.metrics
  settings_eq : strip'.settings = strip.settings

/-- An item has the looks of the strip, which is its parent, and the size that its title has now. -/
structure Dresses (strip : TabStrip K) (item : TabItem K) : Prop where
  metrics_eq : item.metrics = strip.metrics
  settings_eq : item.settings = strip.settings
  font_eq : item.core.font = strip.core.font
  color_eq : item.core.color = strip.core.color
  scale_eq : item.core.scale = strip.core.scale
  parent_eq : item.core.parent = some strip.core.id
  size_eq : item.size = item.measured

section

variable {strip strip' : TabStrip K} {item item' : TabItem K}

theorem SameStyle.measuredHeight_eq (h : strip.SameStyle strip') :
    strip'.measuredHeight = strip.measuredHeight := by
  simp only [measuredHeight, h.metrics_eq, h.settings_eq, h.look.font_eq, h.look.scale_eq]

theorem Dresses.restyle (h : strip.Dresses item) (hstyle : strip.SameStyle strip') :
    strip'.Dresses item where
  metrics_eq := h.metrics_eq.trans hstyle.metrics_eq.symm
  settings_eq := h.settings_eq.trans hstyle.settings_eq.symm
  font_eq := h.font_eq.trans hstyle.look.font_eq.symm
  color_eq := h.color_eq.trans hstyle.look.color_eq.symm
  scale_eq := h.scale_eq.trans hstyle.look.scale_eq.symm
  parent_eq := by rw [h.parent_eq, hstyle.look.id_eq]
  size_eq := h.size_eq

theorem Dresses.alike (h : strip.Dresses item) (halike : item.Alike item') :
    strip.Dresses item' where
  metrics_eq := halike.metrics_eq.trans h.metrics_eq
  settings_eq := halike.settings_eq.trans h.settings_eq
  font_eq := halike.look.font_eq.trans h.font_eq
  color_eq := halike.look.color_eq.trans h.color_eq
  scale_eq := halike.look.scale_eq.trans h.scale_eq
  parent_eq := halike.parent_eq.trans h.parent_eq
  size_eq := by rw [halike.size_eq, h.size_eq, halike.measured_eq]

end

/-- Measuring an item again dresses it, if all but its size is in order. -/
theorem dresses_remeasure {strip : TabStrip K} {item : TabItem K}
    (hmetrics : item.metrics = strip.metrics) (hsettings : item.settings = strip.settings)
    (hfont : item.core.font = strip.core.font) (hcolor : item.core.color = strip.core.color)
    (hscale : item.core.scale = strip.core.scale)
    (hparent : item.core.parent = some strip.core.id) : strip.Dresses item.remeasure := by
  have hlook := item.core.stays_invalidate
  exact ⟨hmetrics, hsettings, hlook.font_eq.trans hfont, hlook.color_eq.trans hcolor,
    hlook.scale_eq.trans hscale, (ViewCore.invalidate_parent _).trans hparent,
    TabItem.remeasure_size item⟩

theorem dresses_newItem (strip : TabStrip K) (title : String) :
    strip.Dresses (strip.newItem title) := by
  let bare : ViewCore K := .new (.item strip.core.id strip.made)
  have hfont := bare.stays_setFont strip.core.font
  have hcolor := (bare.setFont strip.core.font).stays_setColor strip.core.color
  exact dresses_remeasure rfl rfl (hcolor.font_eq.trans hfont.font_eq) hcolor.color_eq rfl rfl

/-! ## Strips -/

/-- What is kept is what would be measured now. -/
structure Uniform (strip : TabStrip K) : Prop where
  height_eq : strip.height = strip.measuredHeight
  dresses : ∀ item ∈ strip.items, strip.Dresses item

/-- The height is kept as before, or kept from now on. -/
def KeepsHeight (strip strip' : TabStrip K) : Prop :=
  strip'.heightCache = strip.heightCache ∨ strip'.heightCache = some strip.height

theorem KeepsHeight.height_eq {strip strip' : TabStrip K} (h : strip.KeepsHeight strip')
    (hstyle : strip.SameStyle strip') : strip'.height = strip.height := by
  rcases h with hcache | hcache
  · rw [height, height, hcache, hstyle.measuredHeight_eq]
  · rw [height, hcache, Option.getD_some]

theorem uniform_new (id : ViewId) (metrics : TextMetrics K) (settings : Settings K) :
    (TabStrip.new id metrics settings).Uniform :=
  ⟨rfl, fun _ hm => absurd hm List.not_mem_nil⟩

/-- Where no height is kept, only the items matter. -/
theorem uniform_of_dresses {strip : TabStrip K} (hcache : strip.heightCache = none)
    (hdresses : ∀ item ∈ strip.items, strip.Dresses item) : strip.Uniform :=
  ⟨by rw [height, hcache, Option.getD_none], hdresses⟩

theorem stays_core_setColor (strip : TabStrip K) (color : Color) :
    ViewCore.Stays { strip.core with color := color } (strip.setColor color).core :=
  (strip.core.stays_setColor color).trans (ViewCore.stays_invalidate _)

/-- Nothing is measured by its color. -/
theorem measuredHeight_setColor (strip : TabStrip K) (color : Color) :
    (strip.setColor color).measuredHeight = strip.measuredHeight := by
  have hstays := strip.stays_core_setColor color
  simp only [measuredHeight, hstays.font_eq, hstays.scale_eq]
  rfl

theorem mem_placeItems {origin : Point K} {height inset x : K} {items : List (TabItem K)}
    {item' : TabItem K} (hm : item' ∈ placeItems origin height inset x items) :
    ∃ item ∈ items, ∃ rect, item' = item.allocate rect := by
  induction items generalizing x with
  | nil => cases hm
  | cons item rest ih =>
      rcases List.mem_cons.mp hm with rfl | hm
      · exact ⟨item, List.mem_cons_self, _, rfl⟩
      · obtain ⟨item, hitem, hplaced⟩ := ih hm
        exact ⟨item, List.mem_cons_of_mem _ hitem, hplaced⟩

namespace Uniform

variable {strip : TabStrip K}

/-- A strip of the same style, with the same items as far as their looks go. -/
theorem restyle (h : strip.Uniform) {strip' : TabStrip K} (hstyle : strip.SameStyle strip')
    (hcache : strip.KeepsHeight strip')
    (hitems : ∀ item' ∈ strip'.items, ∃ item ∈ strip.items, item.Alike item') :
    strip'.Uniform := by
  constructor
  · rw [hcache.height_eq hstyle, hstyle.measuredHeight_eq, h.height_eq]
  · intro item' hm
    obtain ⟨item, hitem, halike⟩ := hitems item' hm
    exact ((h.dresses item hitem).alike halike).restyle hstyle

theorem modifyItem (h : strip.Uniform) (index : Nat) {change : TabItem K → TabItem K}
    (hchange : ∀ item : TabItem K, item.Alike (change item)) :
    (strip.modifyItem index change).Uniform := by
  have hitems : List.Forall₂ TabItem.Alike strip.items (strip.items.modify index change) :=
    forall₂_modify TabItem.Alike.refl fun item _ => hchange item
  exact h.restyle ⟨.refl strip.core, rfl, rfl⟩ (.inl rfl) fun _ hm =>
    exists_left_of_forall₂ hitems hm

theorem pushItem (h : strip.Uniform) (title : String) : (strip.pushItem title).Uniform := by
  have hstyle : strip.SameStyle (strip.pushItem title) := ⟨.refl strip.core, rfl, rfl⟩
  refine ⟨h.height_eq, fun item hm => ?_⟩
  rcases List.mem_append.mp hm with hm | hm
  · exact (h.dresses item hm).restyle hstyle
  · rw [List.mem_singleton.mp hm]
    exact (strip.dresses_newItem title).restyle hstyle

theorem eraseItem (h : strip.Uniform) (index : Nat) (id : ViewId) :
    (strip.eraseItem index id).Uniform :=
  h.restyle ⟨.refl strip.core, rfl, rfl⟩ (.inl rfl) fun item hm =>
    ⟨item, List.mem_of_mem_eraseIdx hm, .refl item⟩

theorem withSelected (h : strip.Uniform) (selected : Option Nat) :
    Uniform { strip with selected := selected } :=
  h.restyle ⟨.refl strip.core, rfl, rfl⟩ (.inl rfl) fun item hm => ⟨item, hm, .refl item⟩

theorem layout (h : strip.Uniform) : strip.layout.Uniform := by
  refine h.restyle ⟨strip.core.stays_invalidate.toSameLook, rfl, rfl⟩ (.inr rfl) fun item' hm => ?_
  obtain ⟨item, hitem, rect, rfl⟩ := mem_placeItems hm
  exact ⟨item, hitem, item.alike_allocate rect⟩

theorem allocate (h : strip.Uniform) (rect : Rect K) :
    Uniform { strip with core := (strip.core.allocate rect).2 } :=
  h.restyle ⟨strip.core.sameLook_allocate rect, rfl, rfl⟩ (.inl rfl) fun item hm =>
    ⟨item, hm, .refl item⟩

theorem setFont (h : strip.Uniform) (font : Font) : (strip.setFont font).Uniform := by
  refine uniform_of_dresses rfl fun item' hm => ?_
  obtain ⟨item, hitem, rfl⟩ := List.mem_map.mp hm
  have hdresses := h.dresses item hitem
  have hlook := strip.core.stays_setFont font
  have hlook' := item.core.stays_setFont font
  apply dresses_remeasure
  · exact hdresses.metrics_eq
  · exact hdresses.settings_eq
  · exact hlook'.font_eq.trans hlook.font_eq.symm
  · exact hlook'.color_eq.trans (hdresses.color_eq.trans hlook.color_eq.symm)
  · exact hlook'.scale_eq.trans (hdresses.scale_eq.trans hlook.scale_eq.symm)
  · exact (ViewCore.invalidate_parent _).trans
      (hdresses.parent_eq.trans (congrArg some hlook.id_eq.symm))

theorem setColor (h : strip.Uniform) (color : Color) : (strip.setColor color).Uniform := by
  have hlook := (strip.stays_core_setColor color).toSameLook
  constructor
  · have hmeasured := strip.measuredHeight_setColor color
    rw [hmeasured, ← h.height_eq, height, hmeasured]
    rfl
  · intro item' hm
    obtain ⟨item, hitem, rfl⟩ := List.mem_map.mp hm
    have hdresses := h.dresses item hitem
    have hlook' := item.core.stays_setColor color
    constructor
    · exact hdresses.metrics_eq
    · exact hdresses.settings_eq
    · exact hlook'.font_eq.trans (hdresses.font_eq.trans hlook.font_eq.symm)
    · exact hlook'.color_eq.trans hlook.color_eq.symm
    · exact hlook'.scale_eq.trans (hdresses.scale_eq.trans hlook.scale_eq.symm)
    · exact (ViewCore.invalidate_parent _).trans
        (hdresses.parent_eq.trans (congrArg some hlook.id_eq.symm))
    · have hmeasured : (item.setColor color).measured = item.measured := by
        simp only [TabItem.setColor, TabItem.measured, hlook'.font_eq, hlook'.scale_eq]
      exact hdresses.size_eq.trans hmeasured.symm

theorem setScale (h : strip.Uniform) (scale : K) : (strip.setScale scale).Uniform := by
  refine uniform_of_dresses rfl fun item' hm => ?_
  obtain ⟨item, hitem, rfl⟩ := List.mem_map.mp hm
  have hdresses := h.dresses item hitem
  exact dresses_remeasure hdresses.metrics_eq hdresses.settings_eq hdresses.font_eq
    hdresses.color_eq rfl hdresses.parent_eq

end Uniform

/-! ## Strips that stay as they are -/

/-- The same strip at the same place, with the same items at their places. -/
structure Still (strip strip' : TabStrip K) : Prop extends strip.SameStyle strip' where
  rect_eq : strip'.core.rect = strip.core.rect
  cache : strip.KeepsHeight strip'
  selected_eq : strip'.selected = strip.selected
  items : List.Forall₂ TabItem.Still strip.items strip'.items

theorem Still.refl (strip : TabStrip K) : strip.Still strip :=
  ⟨⟨.refl strip.core, rfl, rfl⟩, rfl, .inl rfl, rfl, List.forall₂_same.mpr fun item _ => .refl item⟩

theorem Still.trans {a b c : TabStrip K} (hab : a.Still b) (hbc : b.Still c) : a.Still c where
  look := hab.look.trans hbc.look
  metrics_eq := hbc.metrics_eq.trans hab.metrics_eq
  settings_eq := hbc.settings_eq.trans hab.settings_eq
  rect_eq := hbc.rect_eq.trans hab.rect_eq
  cache := by
    have hheight := hab.cache.height_eq hab.toSameStyle
    rcases hbc.cache with hcache | hcache
    · exact hab.cache.imp hcache.trans hcache.trans
    · exact .inr (hcache.trans (congrArg some hheight))
  selected_eq := hbc.selected_eq.trans hab.selected_eq
  items := forall₂_trans (fun _ _ _ h h' => h.trans h') hab.items hbc.items

theorem Uniform.still {strip strip' : TabStrip K} (h : strip.Uniform) (hstill : strip.Still strip') :
    strip'.Uniform :=
  h.restyle hstill.toSameStyle hstill.cache fun _ hm =>
    (exists_left_of_forall₂ hstill.items hm).imp fun _ h => ⟨h.1, h.2.toAlike⟩

variable (strip : TabStrip K)

theorem still_rememberHeight : strip.Still strip.rememberHeight :=
  ⟨⟨.refl strip.core, rfl, rfl⟩, rfl, .inr rfl, rfl, List.forall₂_same.mpr fun item _ => .refl item⟩

theorem still_withCore {core : ViewCore K} (h : strip.core.Stays core) :
    strip.Still { strip with core := core } :=
  ⟨⟨h.toSameLook, rfl, rfl⟩, h.rect_eq, .inl rfl, rfl,
    List.forall₂_same.mpr fun item _ => .refl item⟩

theorem still_modifyItem (index : Nat) {change : TabItem K → TabItem K}
    (hchange : ∀ item : TabItem K, strip.items[index]? = some item → item.Still (change item)) :
    strip.Still (strip.modifyItem index change) :=
  ⟨⟨.refl strip.core, rfl, rfl⟩, rfl, .inl rfl, rfl, forall₂_modify TabItem.Still.refl hchange⟩

variable {strip} in
theorem Still.withHovered {strip' : TabStrip K} (h : strip.Still strip') (hovered : Option ViewId) :
    strip.Still { strip' with hovered := hovered } :=
  ⟨⟨h.look, h.metrics_eq, h.settings_eq⟩, h.rect_eq, h.cache, h.selected_eq, h.items⟩

theorem still_setHovered (id : Option ViewId) (hovered : Bool) :
    strip.Still (strip.setHovered id hovered) := by
  unfold setHovered
  split
  · exact strip.still_modifyItem _ fun item _ => item.still_setHovered hovered
  · exact .refl strip

theorem still_track (p : Point K) : strip.Still (strip.track p) := by
  simp only [track]
  split
  · exact .refl strip
  · exact Still.withHovered
      ((strip.still_setHovered _ false).trans (still_setHovered _ _ true)) _

/-- The strip remembers the item under the pointer. -/
theorem track_hovered (p : Point K) : (strip.track p).hovered =
    (strip.itemAt? p).bind fun index => strip.items[index]?.map (·.core.id) := by
  simp only [track]
  split
  · rename_i heq
    exact heq.symm
  · rfl

theorem still_untrack : strip.Still strip.untrack :=
  (strip.still_setHovered strip.hovered false).withHovered none

end TabStrip

end WidgetToolkit
