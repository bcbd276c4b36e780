import Mathlib.Data.List.Induction
import WidgetToolkit.Proofs.View.Highlight
import WidgetToolkit.View.ItemStep

/-! # The history of a tab item

Whatever is done to an item, as long as it goes through the item, its size is that of the present title
in the present font and scale, and its state tells whether it is selected and whether the pointer has
come in since. -/

namespace WidgetToolkit

variable {K : Type}

/-! ## What a step asks for -/

namespace ItemStep

/-- The item itself is asked, and not its common part. -/
def isProper : ItemStep K → Bool
  | .view (.core _) => false
  | _ => true

def title? : ItemStep K → Option String
  | .setTitle title => some title
  | _ => none

def font? : ItemStep K → Option Font
  | .view (.setFont font) => some font
  | _ => none

def scale? : ItemStep K → Option K
  | .view (.place (.rescale scale)) => some scale
  | _ => none

def selected? : ItemStep K → Option Bool
  | .setSelected selected => some selected
  | _ => none

/-- The item is selected, or the pointer comes in or goes out. -/
def affectsState : ItemStep K → Bool
  | .setSelected _ | .view (.enter _) | .view (.leave _) => true
  | _ => false

theorem selected?_eq_none {step : ItemStep K} (h : step.affectsState = false) :
    step.selected? = none := by
  cases step with
  | setSelected => cases h
  | setTitle | view => rfl

/-- What becomes of what shows of an item. -/
def redress : ItemStep K → Face → Face
  | .setSelected selected, face => face.setSelected selected
  | .view (.enter _), face => face.setHovered true
  | .view (.leave _), face => face.setHovered false
  | _, face => face

/-- What the steps of a history have last asked for, if they have. -/
def latest {α : Type} (read : ItemStep K → Option α) (initial : α) (steps : List (ItemStep K)) :
    α :=
  (steps.filterMap read).getLast?.getD initial

theorem latest_concat {α : Type} (read : ItemStep K → Option α) (initial : α)
    (steps : List (ItemStep K)) (step : ItemStep K) :
    latest read initial (steps ++ [step]) = (read step).getD (latest read initial steps) := by
  cases hread : read step with
  | none => simp [latest, hread]
  | some a => simp [latest, hread]

end ItemStep

/-! ## What shows of an item -/

theorem Face.setHovered_selected (face : Face) (hovered : Bool) :
    (face.setHovered hovered).selected = face.selected := by
  unfold setHovered
  split <;> rfl

/-- Of an item that is not selected shows the pointer. -/
theorem Face.Suited.setHovered_state {face : Face} (h : face.Suited)
    (hselected : face.selected = false) (hovered : Bool) :
    (face.setHovered hovered).state = if hovered then .hovered else .normal := by
  have henabled : (face.state == .disabled) = false := by
    rcases h.resting hselected with hstate | hstate
    · rw [hstate]
      rfl
    · rw [hstate]
      rfl
  simp [Face.setHovered, hselected, henabled]

namespace ItemStep

theorem redress_selected (step : ItemStep K) (face : Face) :
    (step.redress face).selected = step.selected?.getD face.selected := by
  cases step with
  | setTitle | setSelected => rfl
  | view step =>
      cases step with
      | enter | leave => exact Face.setHovered_selected face _
      | _ => rfl

theorem suited_redress (step : ItemStep K) {face : Face} (h : face.Suited) :
    (step.redress face).Suited := by
  cases step with
  | setTitle => exact h
  | setSelected selected => exact face.suited_setSelected selected
  | view step =>
      cases step with
      | enter | leave => exact h.setHovered _
      | _ => exact h

/-- An item that is not selected shows the pointer after it has come in, or still does. -/
theorem redress_hovered_iff (step : ItemStep K) {face : Face} (h : face.Suited)
    (hselected : (step.redress face).selected = false) :
    (step.redress face).state = .hovered ↔
      (∃ event, step = .view (.enter event)) ∧ face.selected = false ∨
        step.affectsState = false ∧ face.state = .hovered := by
  rw [redress_selected] at hselected
  cases step with
  | setTitle => simp [redress, affectsState]
  | setSelected selected =>
      have hdeselected : selected = false := hselected
      simp [redress, affectsState, Face.setSelected, hdeselected]
  | view step =>
      cases step with
      | enter event =>
          have hface : face.selected = false := hselected
          simp [redress, affectsState, h.setHovered_state hface, hface]
      | leave event =>
          have hface : face.selected = false := hselected
          simp [redress, affectsState, h.setHovered_state hface]
      | _ => simp [redress, affectsState]

end ItemStep

variable [Coord K]

namespace TabItem

/-- An item after a history. -/
def run (item : TabItem K) (steps : List (ItemStep K)) : TabItem K :=
  steps.foldl (fun item step => (item.step step).value.2) item

theorem run_concat (item : TabItem K) (steps : List (ItemStep K)) (step : ItemStep K) :
    item.run (steps ++ [step]) = ((item.run steps).step step).value.2 := by
  simp [run]

/-- The last thing that could show in the state of the item is that the pointer came in, while the item
was not selected. -/
def Entered (item : TabItem K) (steps : List (ItemStep K)) : Prop :=
  ∃ before event after, steps = before ++ .view (.enter event) :: after ∧
    (item.run before).selected = false ∧ ∀ step ∈ after, step.affectsState = false

/-! ## One step -/

/-- What a step makes of an item. -/
structure Takes (step : ItemStep K) (item item' : TabItem K) : Prop where
  metrics_eq : item'.metrics = item.metrics
  settings_eq : item'.settings = item.settings
  title_eq : item'.title = step.title?.getD item.title
  font_eq : item'.core.font = step.font?.getD item.core.font
  scale_eq : item'.core.scale = step.scale?.getD item.core.scale
  size_eq : item.size = item.measured → item'.size = item'.measured
  face_eq : item'.face = step.redress item.face

section

variable {step : ItemStep K} {item item' : TabItem K}

/-- A step that leaves the looks of an item alone. -/
theorem Alike.takes (h : item.Alike item') (htitle : step.title? = none) (hfont : step.font? = none)
    (hscale : step.scale? = none) (hface : item'.face = step.redress item.face) :
    Takes step item item' where
  metrics_eq := h.metrics_eq
  settings_eq := h.settings_eq
  title_eq := by rw [htitle, h.title_eq, Option.getD_none]
  font_eq := by rw [hfont, h.look.font_eq, Option.getD_none]
  scale_eq := by rw [hscale, h.look.scale_eq, Option.getD_none]
  size_eq hsize := by rw [h.size_eq, h.measured_eq, hsize]
  face_eq := hface

/-- A step after which the item is measured again. -/
theorem takes_remeasure {bare : TabItem K} (hmetrics : bare.metrics = item.metrics)
    (hsettings : bare.settings = item.settings) (htitle : bare.title = step.title?.getD item.title)
    (hfont : bare.core.font = step.font?.getD item.core.font)
    (hscale : bare.core.scale = step.scale?.getD item.core.scale)
    (hface : bare.remeasure.face = step.redress item.face) : Takes step item bare.remeasure := by
  have hlook := bare.core.stays_invalidate
  exact ⟨hmetrics, hsettings, htitle, hlook.font_eq.trans hfont, hlook.scale_eq.trans hscale,
    fun _ => remeasure_size bare, hface⟩

theorem takes_setColor (item : TabItem K) (color : Color) :
    Takes (.view (.setColor color)) item (item.setColor color) := by
  have hlook := item.core.stays_setColor color
  have hmeasured : (item.setColor color).measured = item.measured :=
    measured_congr rfl rfl rfl hlook.font_eq hlook.scale_eq
  exact ⟨rfl, rfl, rfl, hlook.font_eq, hlook.scale_eq, fun hsize => hsize.trans hmeasured.symm,
    item.face_setColor color⟩

theorem takes_step (item : TabItem K) (hproper : step.isProper) :
    Takes step item (item.step step).value.2 := by
  cases step with
  | setTitle title =>
      have hface : (item.setTitle title).face = item.face := by simp [face, setTitle, remeasure]
      exact takes_remeasure rfl rfl rfl rfl rfl hface
  | setSelected selected =>
      exact (item.alike_setSelected selected).takes rfl rfl rfl (item.face_setSelected selected)
  | view step =>
      cases step with
      | core => cases hproper
      | place placement =>
          cases placement with
          | allocate rect =>
              exact (item.alike_allocate rect).takes rfl rfl rfl (item.face_allocate rect)
          | layout => exact (Alike.refl item).takes rfl rfl rfl rfl
          | rescale scale =>
              exact takes_remeasure rfl rfl rfl rfl rfl (item.face_setScale scale)
      | setFont font =>
          have hlook := item.core.stays_setFont font
          exact takes_remeasure rfl rfl rfl hlook.font_eq hlook.scale_eq (item.face_setFont font)
      | setColor color => exact item.takes_setColor color
      | setVisible visible =>
          have halike : item.Alike { item with core := item.core.setVisible visible } :=
            ⟨(item.core.stays_setVisible visible).toSameLook, ViewCore.invalidate_parent _, rfl, rfl,
              rfl, rfl⟩
          refine halike.takes rfl rfl rfl ?_
          simp [face, ViewCore.setVisible, ItemStep.redress]
      | enter => exact (item.alike_setHovered true).takes rfl rfl rfl (item.face_setHovered true)
      | leave => exact (item.alike_setHovered false).takes rfl rfl rfl (item.face_setHovered false)
      | move | click | draw | addPage | removePage | selectPage | askHeight | askMinimumSize =>
          exact (Alike.refl item).takes rfl rfl rfl rfl

end

/-! ## A history -/

theorem entered_concat (item : TabItem K) (steps : List (ItemStep K)) (step : ItemStep K) :
    item.Entered (steps ++ [step]) ↔
      (∃ event, step = .view (.enter event)) ∧ (item.run steps).selected = false ∨
        step.affectsState = false ∧ item.Entered steps := by
  constructor
  · rintro ⟨before, event, after, hsplit, hselected, hafter⟩
    rcases append_singleton_eq_append_cons_iff.mp hsplit with ⟨after', rfl, rfl⟩ | ⟨rfl, rfl, rfl⟩
    · obtain ⟨hafter, hstep⟩ := List.forall_mem_append.mp hafter
      exact .inr ⟨hstep step List.mem_cons_self, before, event, after', rfl, hselected, hafter⟩
    · exact .inl ⟨⟨event, rfl⟩, hselected⟩
  · rintro (⟨⟨event, rfl⟩, hselected⟩ | ⟨hstep, before, event, after, rfl, hselected, hafter⟩)
    · exact ⟨steps, event, [], rfl, hselected, by simp⟩
    · refine ⟨before, event, after ++ [step], by simp, hselected, ?_⟩
      exact List.forall_mem_append.mpr ⟨hafter, by simpa using hstep⟩

/-- What is left of a history in an item. -/
structure Follows (start : TabItem K) (steps : List (ItemStep K)) (item : TabItem K) : Prop where
  metrics_eq : item.metrics = start.metrics
  settings_eq : item.settings = start.settings
  title_eq : item.title = ItemStep.latest ItemStep.title? start.title steps
  font_eq : item.core.font = ItemStep.latest ItemStep.font? start.core.font steps
  scale_eq : item.core.scale = ItemStep.latest ItemStep.scale? start.core.scale steps
  selected_eq : item.selected = ItemStep.latest ItemStep.selected? start.selected steps
  size_eq : item.size = item.measured
  suited : item.face.Suited
  hovered_iff : item.selected = false → (item.core.state = .hovered ↔ start.Entered steps)

theorem follows_run {start : TabItem K} (hsize : start.size = start.measured)
    (hselected : start.selected = false) (hstate : start.core.state = .normal)
    {steps : List (ItemStep K)} (hproper : ∀ step ∈ steps, step.isProper) :
    start.Follows steps (start.run steps) := by
  induction steps using List.reverseRecOn with
  | nil =>
      have hsuited : start.face.Suited :=
        ⟨fun h => absurd (hselected.symm.trans h) Bool.false_ne_true, fun _ => .inl hstate⟩
      refine ⟨rfl, rfl, rfl, rfl, rfl, rfl, hsize, hsuited, fun _ => ?_⟩
      constructor
      · intro h
        exact absurd (hstate.symm.trans h) (by simp)
      · rintro ⟨before, event, after, hsplit, -⟩
        simp at hsplit
  | append_singleton steps step ih =>
      obtain ⟨hbefore, hstep⟩ := List.forall_mem_append.mp hproper
      have h := ih hbefore
      have htakes := (start.run steps).takes_step (hstep step List.mem_cons_self)
      rw [← run_concat] at htakes
      have hface := congrArg Face.selected htakes.face_eq
      rw [ItemStep.redress_selected] at hface
      refine ⟨htakes.metrics_eq.trans h.metrics_eq, htakes.settings_eq.trans h.settings_eq, ?_, ?_,
        ?_, ?_, htakes.size_eq h.size_eq, ?_, fun hselected => ?_⟩
      · rw [htakes.title_eq, h.title_eq, ItemStep.latest_concat]
      · rw [htakes.font_eq, h.font_eq, ItemStep.latest_concat]
      · rw [htakes.scale_eq, h.scale_eq, ItemStep.latest_concat]
      · rw [ItemStep.latest_concat, ← h.selected_eq]
        exact hface
      · rw [htakes.face_eq]
        exact step.suited_redress h.suited
      · have hshown := step.redress_hovered_iff h.suited (htakes.face_eq ▸ hselected)
        rw [← htakes.face_eq] at hshown
        rw [entered_concat]
        refine hshown.trans (or_congr Iff.rfl (and_congr_right fun hrest => h.hovered_iff ?_))
        rw [ItemStep.selected?_eq_none hrest] at hface
        exact hface.symm.trans hselected

/-- Whatever is done to a new item that is normal, its size is that of the present title in the present
font and scale, with the paddings around it; it is pressed if and only if it is selected; and while it
is not, it shows the pointer if and only if that has come in last. -/
theorem run_new {core : ViewCore K} (hstate : core.state = .normal) (metrics : TextMetrics K)
    (settings : TabSettings K) (title : String) {steps : List (ItemStep K)}
    (hproper : ∀ step ∈ steps, step.isProper) :
    let start := TabItem.new core metrics settings title
    let item := start.run steps
    let scale := item.core.scale
    let extent := metrics.measure item.title item.core.font
    (item.title = ItemStep.latest ItemStep.title? title steps ∧
      item.core.font = ItemStep.latest ItemStep.font? core.font steps ∧
      item.core.scale = ItemStep.latest ItemStep.scale? core.scale steps ∧
      item.selected = ItemStep.latest ItemStep.selected? false steps) ∧
    item.size =
      ⟨Coord.ceil (extent.width * scale) + ((2 : Nat) : K) * settings.horizontalPadding * scale,
        Coord.ceil (extent.height * scale) + ((2 : Nat) : K) * settings.verticalPadding * scale⟩ ∧
    (item.core.state = .pressed ↔ item.selected = true) ∧
    (item.selected = false → (item.core.state = .hovered ↔ start.Entered steps)) := by
  intro start item scale extent
  have hlook := core.stays_invalidate
  have hnormal : start.core.state = .normal := by
    simpa [start, TabItem.new, setTitle, remeasure] using hstate
  have h : start.Follows steps item := follows_run (remeasure_size _) rfl hnormal hproper
  refine ⟨⟨h.title_eq, ?_, ?_, h.selected_eq⟩, ?_, ⟨fun hpressed => ?_, h.suited.pressed⟩,
    h.hovered_iff⟩
  · rw [h.font_eq]
    exact congrArg (ItemStep.latest ItemStep.font? · steps) hlook.font_eq
  · rw [h.scale_eq]
    exact congrArg (ItemStep.latest ItemStep.scale? · steps) hlook.scale_eq
  · rw [h.size_eq, measured, h.metrics_eq, h.settings_eq]
    rfl
  · by_contra hselected
    rcases h.suited.resting (Bool.eq_false_iff.mpr hselected) with hresting | hresting
    · cases hpressed.symm.trans hresting
    · cases hpressed.symm.trans hresting

/-- The pointer goes out and comes in while the item is selected, which does not show, and comes in
once more thereafter. -/
theorem run_new_entered_again :
    let metrics : TextMetrics Rat :=
      ⟨fun text _ => if text = "Home" then ⟨24, 18⟩ else ⟨48, 18⟩⟩
    let start := TabItem.new (.new (.view 0)) metrics .standard "Home"
    let event : PointerEvent Rat := ⟨.enter, none, ⟨1, 1⟩⟩
    let steps : List (ItemStep Rat) := [.view (.enter event), .setSelected true,
      .view (.leave event), .view (.enter event), .setSelected false, .setTitle "Settings",
      .view (.enter event), .view (.place (.rescale 2))]
    (∀ step ∈ steps, step.isProper) ∧ (start.run steps).size = ⟨104, 40⟩ ∧
      (start.run steps).selected = false ∧ start.Entered steps := by
  intro metrics start event steps
  have hproper : ∀ step ∈ steps, step.isProper := by decide +kernel
  have hselected : (start.run steps).selected = false := by decide +kernel
  have hhovered : (start.run steps).core.state = .hovered := by decide +kernel
  have hnormal : (ViewCore.new (.view 0) : ViewCore Rat).state = .normal := rfl
  obtain ⟨-, hsize, -, hentered⟩ := run_new hnormal metrics .standard "Home" hproper
  refine ⟨hproper, hsize.trans ?_, hselected, (hentered hselected).mp hhovered⟩
  decide +kernel

end TabItem

end WidgetToolkit
