import WidgetToolkit.Proofs.Tab.Hover
import WidgetToolkit.Proofs.View.Numbering

/-! # What shows of a strip

Of an item shows whether it is selected and whether the pointer is over it. What a tab does to its
strip is told by what it does to these faces, by their identities and without any index: it selects,
adds or removes an item, or points at one. Nothing else that a tab does shows in them. -/

namespace WidgetToolkit

/-! ## Faces -/

/-- What shows of an item. -/
structure Face where
  id : ViewId
  selected : Bool
  state : ControlState
deriving DecidableEq

namespace Face

def setSelected (face : Face) (selected : Bool) : Face :=
  { face with selected := selected, state := if selected then .pressed else .normal }

def setHovered (face : Face) (hovered : Bool) : Face :=
  if face.selected || face.state == .disabled then face
  else { face with state := if hovered then .hovered else .normal }

@[simp] theorem setHovered_id (face : Face) (hovered : Bool) :
    (face.setHovered hovered).id = face.id := by
  unfold setHovered
  split <;> rfl

end Face

/-- What a tab does to the faces of its items. -/
inductive FaceChange where
  | keep
  | select (id : ViewId)
  | add (id : ViewId)
  /-- An item goes, and another one is selected if it was. -/
  | remove (id : ViewId) (next : Option ViewId)
  /-- The pointer is over an item, or over none. -/
  | point (target : Option ViewId)

/-- The faces of the items of a strip. -/
@[ext] structure Faces where
  all : List Face
  /-- The selected item. -/
  current : Option ViewId
  /-- The item that the pointer is taken to be over. -/
  hovered : Option ViewId

namespace Faces

/-- What becomes of a face that stays. -/
def redress (faces : Faces) : FaceChange → Face → Face
  | .keep, face => face
  | .select id, face =>
    if face.id = id then face.setSelected true
    else if faces.current = some face.id then face.setSelected false
    else face
  | .add _, face => face
  | .remove id next, face =>
    if faces.current = some id ∧ next = some face.id then face.setSelected true else face
  | .point target, face =>
    if target = faces.hovered then face
    else if target = some face.id then face.setHovered true
    else if faces.hovered = some face.id then face.setHovered false
    else face

/-- The first item is selected when it comes. -/
def change (faces : Faces) : FaceChange → Faces
  | .keep => faces
  | .select id =>
    { faces with all := faces.all.map (faces.redress (.select id)), current := some id }
  | .add id =>
    { faces with
      all := faces.all ++ [Face.setSelected ⟨id, false, .normal⟩ faces.all.isEmpty]
      current := if faces.all.isEmpty then some id else faces.current }
  | .remove id next =>
    { all := (faces.all.filter (·.id ≠ id)).map (faces.redress (.remove id next))
      current := if faces.current = some id then next else faces.current
      hovered := if faces.hovered = some id then none else faces.hovered }
  | .point target =>
    { faces with all := faces.all.map (faces.redress (.point target)), hovered := target }

@[simp] theorem redress_id (faces : Faces) (change : FaceChange) (face : Face) :
    (faces.redress change face).id = face.id := by
  cases change with
  | keep | add => rfl
  | select =>
      simp only [redress]
      split
      · rfl
      · split <;> rfl
  | remove =>
      simp only [redress]
      split <;> rfl
  | point =>
      simp only [redress]
      split
      · rfl
      · split
        · simp
        · split <;> simp

theorem redress_point_selected (faces : Faces) (target : Option ViewId) (face : Face) :
    (faces.redress (.point target) face).selected = face.selected := by
  simp only [redress, Face.setHovered]
  split_ifs <;> rfl

/-- Every face that stays is redressed, and the only other one is the one that is added. -/
theorem mem_change {faces : Faces} {change : FaceChange} {face' : Face} :
    face' ∈ (faces.change change).all ↔
      (∃ face ∈ faces.all, (∀ next, change ≠ .remove face.id next) ∧
        faces.redress change face = face') ∨
      ∃ id, change = .add id ∧ face' = Face.setSelected ⟨id, false, .normal⟩ faces.all.isEmpty := by
  cases change with
  | keep => simp [Faces.change, redress]
  | select id => simp [Faces.change]
  | add id => simp [Faces.change, redress]
  | remove id next => simp [Faces.change, and_assoc, @eq_comm _ id]
  | point target => simp [Faces.change]

end Faces

/-! ## The faces of a strip -/

variable {K : Type}

def TabItem.face (item : TabItem K) : Face := ⟨item.core.id, item.selected, item.core.state⟩

namespace TabStrip

/-- The identity of the item at an index. -/
def idAt? (strip : TabStrip K) (index : Nat) : Option ViewId :=
  strip.items[index]?.map (·.core.id)

/-- The identity of the selected item. -/
def selectedId? (strip : TabStrip K) : Option ViewId := strip.selected.bind strip.idAt?

def faces (strip : TabStrip K) : Faces where
  all := strip.items.map TabItem.face
  current := strip.selectedId?
  hovered := strip.hovered

theorem ids_faces (strip : TabStrip K) :
    strip.faces.all.map Face.id = strip.items.map (·.core.id) :=
  List.map_map

theorem idAt?_eq (strip : TabStrip K) (index : Nat) :
    strip.idAt? index = (strip.faces.all.map Face.id)[index]? := by
  rw [ids_faces, List.getElem?_map, idAt?]

theorem selectedId?_eq (strip : TabStrip K) :
    strip.selectedId? = strip.selected.bind fun index => (strip.faces.all.map Face.id)[index]? :=
  congrArg strip.selected.bind (funext strip.idAt?_eq)

/-- Faces are told apart. -/
theorem Numbered.nodup_faces {strip : TabStrip K} (h : strip.Numbered) :
    (strip.faces.all.map Face.id).Nodup :=
  strip.ids_faces ▸ h.nodup

theorem faces_getElem? {strip : TabStrip K} {index : Nat} {item : TabItem K}
    (hitem : strip.items[index]? = some item) : strip.faces.all[index]? = some item.face := by
  simp [faces, hitem]

/-- A change of the item at an index shows in the face with its identity. -/
theorem map_face_modify {strip : TabStrip K} (h : strip.Numbered) {index : Nat} {item : TabItem K}
    (hitem : strip.items[index]? = some item) {change : TabItem K → TabItem K} (g : Face → Face)
    (hface : ∀ item, (change item).face = g item.face) :
    (strip.items.modify index change).map TabItem.face =
      strip.faces.all.map fun face => if face.id = item.core.id then g face else face := by
  rw [map_modify_comm g hface]
  exact modify_eq_map_of_nodup h.nodup_faces (faces_getElem? hitem) g

theorem bind_idAt?_eq_some_iff {strip : TabStrip K} (h : strip.Numbered) {index : Nat}
    {item : TabItem K} (hitem : strip.items[index]? = some item) {place : Option Nat} :
    place.bind strip.idAt? = some item.core.id ↔ place = some index := by
  constructor
  · intro hid
    obtain ⟨index', rfl, hid⟩ := Option.bind_eq_some_iff.mp hid
    obtain ⟨item', hitem', hid⟩ := Option.map_eq_some_iff.mp hid
    rw [eq_of_key_eq h.nodup hitem hitem' hid]
  · rintro rfl
    rw [Option.bind_some, idAt?, hitem, Option.map_some]

theorem current_eq_some_iff {strip : TabStrip K} (h : strip.Numbered) {index : Nat}
    {item : TabItem K} (hitem : strip.items[index]? = some item) :
    strip.faces.current = some item.core.id ↔ strip.selected = some index :=
  bind_idAt?_eq_some_iff h hitem

/-- Where the items are the same ones, the index tells what is selected. -/
theorem selectedId?_congr {strip strip' : TabStrip K}
    (hids : strip'.faces.all.map Face.id = strip.faces.all.map Face.id)
    (hselected : strip'.selected = strip.selected) :
    strip'.selectedId? = strip.selectedId? := by
  rw [selectedId?_eq, selectedId?_eq, hids, hselected]

theorem faces_congr {strip strip' : TabStrip K}
    (hitems : strip'.items.map TabItem.face = strip.items.map TabItem.face)
    (hselected : strip'.selected = strip.selected) (hhovered : strip'.hovered = strip.hovered) :
    strip'.faces = strip.faces :=
  Faces.ext hitems (selectedId?_congr (congrArg (List.map Face.id) hitems) hselected) hhovered

/-- An item that looks the same may take the place of another one. -/
theorem faces_touch {strip : TabStrip K} {index : Nat} {entry entry' : TabItem K}
    (hentry : strip.items[index]? = some entry) (hface : entry'.face = entry.face) :
    (strip.modifyItem index fun _ => entry').faces = strip.faces := by
  have hsame : List.Forall₂ (fun item item' : TabItem K => item'.face = item.face) strip.items
      (strip.items.modify index fun _ => entry') := by
    apply forall₂_modify
    · exact fun _ => rfl
    · intro item hitem
      rw [hface, Option.some.inj (hitem.symm.trans hentry)]
  exact faces_congr (map_eq_of_forall₂ hsame fun _ _ heq => heq) rfl rfl

end TabStrip

/-! ## Items -/

variable [Coord K]

namespace TabItem

variable (item : TabItem K)

theorem face_allocate (rect : Rect K) : (item.allocate rect).face = item.face := by
  simp [face, allocate]

theorem face_setFont (font : Font) : (item.setFont font).face = item.face := by
  simp [face, setFont, remeasure, ViewCore.setFont]

theorem face_setColor (color : Color) : (item.setColor color).face = item.face := by
  simp [face, setColor, ViewCore.setColor]

theorem face_setScale (scale : K) : (item.setScale scale).face = item.face := by
  simp [face, setScale, remeasure, ViewCore.setScale]

theorem face_setSelected (selected : Bool) :
    (item.setSelected selected).face = item.face.setSelected selected := by
  simp [face, setSelected, Face.setSelected]

theorem face_setHovered (hovered : Bool) :
    (item.setHovered hovered).face = item.face.setHovered hovered := by
  unfold setHovered Face.setHovered
  change TabItem.face (if item.selected || item.core.isDisabled then _ else _) =
    if item.selected || item.core.isDisabled then _ else _
  split <;> simp [face]

end TabItem

/-! ## Strips -/

namespace TabStrip

variable {strip : TabStrip K}

theorem face_newItem (strip : TabStrip K) (title : String) :
    (strip.newItem title).face = ⟨.item strip.core.id strip.made, false, .normal⟩ := by
  simp [newItem, TabItem.new, TabItem.setTitle, TabItem.remeasure, TabItem.face, ViewCore.new,
    ViewCore.setParent, ViewCore.setScale, ViewCore.setColor, ViewCore.setFont]

theorem faces_setHovered (h : strip.Numbered) (id? : Option ViewId) (hovered : Bool) :
    (strip.setHovered id? hovered).items.map TabItem.face =
      strip.faces.all.map fun face =>
        if id? = some face.id then face.setHovered hovered else face := by
  unfold setHovered
  split
  · rename_i index hindex
    obtain ⟨id, rfl, hindex⟩ := Option.bind_eq_some_iff.mp hindex
    obtain ⟨hi, hid, -⟩ := List.findIdx?_eq_some_iff_getElem.mp hindex
    have hsame : strip.items[index].core.id = id := eq_of_beq hid
    refine (map_face_modify h (List.getElem?_eq_getElem hi) (·.setHovered hovered)
      fun item => item.face_setHovered hovered).trans ?_
    simp only [hsame, Option.some.injEq, eq_comm]
  · rename_i hnone
    refine (List.map_id _).symm.trans (List.map_congr_left fun face hm => ?_)
    obtain ⟨item, hitem, rfl⟩ := List.mem_map.mp hm
    obtain ⟨index, hitem⟩ := List.mem_iff_getElem?.mp hitem
    have hother : id? ≠ some item.face.id := by
      rintro rfl
      cases hnone.symm.trans (h.indexOf? hitem)
    exact (if_neg hother).symm

@[simp] theorem faces_layout (strip : TabStrip K) : strip.layout.faces = strip.faces :=
  faces_congr (map_layout_items TabItem.face TabItem.face_allocate strip) rfl rfl

@[simp] theorem faces_placed (strip : TabStrip K) (placement : Placement K) :
    (strip.placed placement).faces = strip.faces := by
  refine faces_congr ?_ (placed_selected strip placement) ?_
  · exact map_placed_items TabItem.face TabItem.face_allocate TabItem.face_setScale strip placement
  · cases placement <;> rfl

@[simp] theorem faces_setFont (strip : TabStrip K) (font : Font) :
    (strip.setFont font).faces = strip.faces :=
  faces_congr (by simp [setFont, TabItem.face_setFont]) rfl rfl

@[simp] theorem faces_setColor (strip : TabStrip K) (color : Color) :
    (strip.setColor color).faces = strip.faces :=
  faces_congr (by simp [setColor, TabItem.face_setColor]) rfl rfl

theorem all_pushItem (strip : TabStrip K) (title : String) :
    (strip.pushItem title).faces.all =
      strip.faces.all ++ [⟨.item strip.core.id strip.made, false, .normal⟩] := by
  simp [faces, pushItem, face_newItem]

theorem faces_pushItem (hne : strip.items ≠ [])
    (hlt : ∀ index, strip.selected = some index → index < strip.items.length) (title : String) :
    (strip.pushItem title).faces =
      strip.faces.change (.add (.item strip.core.id strip.made)) := by
  have hall := strip.all_pushItem title
  have hsome : strip.faces.all.isEmpty = false := by simpa [faces] using hne
  refine Faces.ext ?_ ?_ rfl
  · simp [hall, Faces.change, hsome, Face.setSelected]
  · change (strip.pushItem title).selectedId? = if strip.faces.all.isEmpty then _ else _
    rw [hsome, if_neg Bool.false_ne_true, selectedId?_eq, hall]
    change _ = strip.selectedId?
    rw [selectedId?_eq]
    change strip.selected.bind _ = _
    cases hselected : strip.selected with
    | none => rfl
    | some index =>
        have hi : index < (strip.faces.all.map Face.id).length := by
          simpa [faces] using hlt index hselected
        rw [Option.bind_some, Option.bind_some, List.map_append, List.getElem?_append_left hi]

/-! ## The pointer -/

/-- The item under a point of the window. -/
def under? (strip : TabStrip K) (p : Point K) : Option ViewId := (strip.itemAt? p).bind strip.idAt?

theorem Still.ids_faces {strip' : TabStrip K} (h : strip.Still strip') :
    strip'.faces.all.map Face.id = strip.faces.all.map Face.id := by
  rw [TabStrip.ids_faces, TabStrip.ids_faces]
  exact map_eq_of_forall₂ h.items fun _ _ hstill => hstill.look.id_eq

theorem faces_track (h : strip.Numbered) (p : Point K) :
    (strip.track p).faces = strip.faces.change (.point (strip.under? p)) := by
  have hids := (strip.still_track p).ids_faces
  refine Faces.ext ?_ (selectedId?_congr hids (strip.still_track p).selected_eq)
    (strip.track_hovered p)
  change (strip.track p).items.map TabItem.face = _
  simp only [track]
  split
  · rename_i hsame
    have hsame : strip.under? p = strip.faces.hovered := hsame
    simp [Faces.change, Faces.redress, hsame, faces]
  · rename_i hnew
    have hnew : strip.under? p ≠ strip.faces.hovered := hnew
    have hreleased : (strip.setHovered strip.hovered false).Numbered :=
      h.still (strip.still_setHovered _ _) (setHovered_made _ _ _)
    refine (faces_setHovered hreleased _ true).trans ?_
    change List.map _ ((strip.setHovered strip.hovered false).items.map TabItem.face) = _
    rw [faces_setHovered h, List.map_map]
    refine List.map_congr_left fun face _ => ?_
    change (if strip.under? p = some _ then _ else _) = _
    simp only [Faces.redress, if_neg hnew]
    by_cases htarget : strip.under? p = some face.id
    · have hother : strip.hovered ≠ some face.id := fun heq => hnew (htarget.trans heq.symm)
      simp [htarget, hother]
    · by_cases hwas : strip.hovered = some face.id
      · simp [faces, hwas, htarget]
      · simp [faces, hwas, htarget]

theorem faces_untrack (h : strip.Numbered) :
    strip.untrack.faces = strip.faces.change (.point none) := by
  have hstill := strip.still_untrack
  refine Faces.ext ?_ (selectedId?_congr hstill.ids_faces hstill.selected_eq) rfl
  refine (faces_setHovered h strip.hovered false).trans (List.map_congr_left fun face _ => ?_)
  cases hhovered : strip.hovered with
  | none => simp [Faces.redress, faces, hhovered]
  | some id => simp [Faces.redress, faces, hhovered]

end TabStrip

end WidgetToolkit
