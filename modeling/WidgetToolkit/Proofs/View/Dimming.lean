import WidgetToolkit.Proofs.Tab.Refinement
import WidgetToolkit.Proofs.View.Cores

/-! # What sets no focus flag

Pages are selected, views are shown and hidden: the views of a tree stay where they are, and none gets
the focus flag. -/

namespace WidgetToolkit

variable {K : Type}

/-- The view is the same one, and has the focus flag only if it had it before. -/
structure ViewCore.Dims (core core' : ViewCore K) : Prop where
  id_eq : core'.id = core.id
  focused : core'.focused = true → core.focused = true

theorem ViewCore.Dims.refl (core : ViewCore K) : core.Dims core := ⟨rfl, fun h => h⟩

theorem ViewCore.Dims.trans {a b c : ViewCore K} (hab : a.Dims b) (hbc : b.Dims c) : a.Dims c :=
  ⟨hbc.id_eq.trans hab.id_eq, fun h => hab.focused (hbc.focused h)⟩

namespace View

/-- This is so at every address. -/
def Dims (view view' : View K) : Prop :=
  ∀ path, Option.Rel (fun below below' => ViewCore.Dims below.core below'.core)
    (view.at? path) (view'.at? path)

theorem Dims.refl (view : View K) : view.Dims view := fun _ =>
  optionRel_refl (fun below => .refl below.core) _

theorem Dims.trans (a b c : View K) (hab : a.Dims b) (hbc : b.Dims c) : a.Dims c := fun path =>
  optionRel_trans (fun a b c (h : a.core.Dims b.core) (h' : b.core.Dims c.core) => h.trans h')
    (hab path) (hbc path)

theorem Dims.core {view view' : View K} (h : view.Dims view') : view.core.Dims view'.core :=
  match h [] with
  | .some h => h

/-- It is enough to look at the view itself and at what is on its branches. -/
theorem dims_of_branches {view view' : View K} (hcore : view.core.Dims view'.core)
    (hbranch : ∀ branch, Option.Rel Dims (view.branch? branch) (view'.branch? branch)) :
    view.Dims view' := by
  intro path
  cases path with
  | nil => exact .some hcore
  | cons branch path => exact optionRel_bind (fun _ _ h => h path) (hbranch branch)

theorem dims_of_branch?_eq {view view' : View K} (hcore : view.core.Dims view'.core)
    (hbranch : ∀ branch, view'.branch? branch = view.branch? branch) : view.Dims view' :=
  dims_of_branches hcore fun branch => hbranch branch ▸ optionRel_refl Dims.refl _

theorem Dims.regular {root root' : View K} (h : root.Dims root') (hregular : root.Regular) :
    root'.Regular :=
  hregular.congr fun path => map_eq_of_optionRel (fun _ _ h => h.id_eq) (h path)

/-- The view at an address can be replaced by what it dims to. -/
theorem dims_replaceAt {root view view' : View K} {path : List Branch}
    (hat : root.at? path = some view) (h : view.Dims view')
    (hitem : ∀ entry, view = .item entry → ∃ entry', view' = .item entry') :
    root.Dims (root.replaceAt path view') := by
  induction path generalizing root with
  | nil =>
      obtain rfl : root = view := Option.some.inj hat
      rwa [replaceAt_nil]
  | cons branch path ih =>
      obtain ⟨child, hchild, hat⟩ := at?_cons_eq_some_iff.mp hat
      have hbelow : child.Dims (child.replaceAt path view') := ih hat
      rw [replaceAt_cons hchild (by rw [hat]; rfl)]
      apply dims_of_branches
      · rw [core_replaceAt]
        exact .refl root.core
      · intro other
        by_cases hother : other = branch
        · rw [hother, hchild, branch?_replaceAt_self hchild]
          · exact .some hbelow
          · rintro entry rfl
            obtain ⟨rfl, rfl⟩ := at?_item hat
            rw [replaceAt_nil]
            exact hitem entry rfl
        · rw [branch?_replaceAt_of_ne root hother]
          exact optionRel_refl Dims.refl _

end View

/-! ## Tabs -/

theorem Tab.dims_toView {tab tab' : Tab K} (hcore : tab.strip.core.Dims tab'.strip.core)
    (hitems : List.Forall₂ (fun item item' => ViewCore.Dims item.core item'.core)
      tab.strip.items tab'.strip.items)
    (hpages : List.Forall₂ View.Dims tab.pages tab'.pages) : tab.toView.Dims tab'.toView := by
  refine View.dims_of_branches hcore fun branch => ?_
  cases branch with
  | child index => exact rel_getElem?_of_forall₂ hpages index
  | item index =>
      have hitem := rel_getElem?_of_forall₂ hitems index
      simp only [Tab.toView, View.branch?, Option.map_eq_bind]
      refine optionRel_bind (fun item item' h => .some ?_) hitem
      exact View.dims_of_branch?_eq h fun branch => by cases branch <;> rfl

variable [Coord K]

/-- What an item is to the focus. -/
def TabItem.mark (item : TabItem K) : ViewId × Bool := (item.core.id, item.core.focused)

omit [Coord K] in
theorem Tab.dims_of_became {strip : TabStrip K} {tab tab' : Tab K}
    (h : Tab.Became (fun _ => True) View.Dims strip tab tab')
    (hid : strip.core.id = tab.strip.core.id) (hfocused : strip.core.focused = tab.strip.core.focused)
    (hitems : strip.items.map TabItem.mark = tab.strip.items.map TabItem.mark) :
    tab.toView.Dims tab'.toView := by
  refine Tab.dims_toView ?_ ?_ h.rel
  · rw [h.strip_eq]
    exact ⟨hid, fun h => hfocused ▸ h⟩
  · rw [h.strip_eq]
    refine (forall₂_of_map_eq hitems).imp fun item item' heq => ?_
    obtain ⟨hid, hfocused⟩ := Prod.mk.inj heq
    exact ⟨hid, fun h => hfocused ▸ h⟩

/-! ## Placement -/

theorem View.dims_placeWithin (levels : Nat) (placement : Placement K) :
    View.Keeps (fun _ => True) View.Dims (fun _ => True) (View.placeWithin levels placement) := by
  induction levels generalizing placement with
  | zero => exact fun view _ => Told.meets_pure ⟨trivial, .refl view⟩
  | succ levels ih =>
      intro view _
      cases htab : view.tab? with
      | none =>
          have hsettled := (settled_placeWithin htab (levels + 1) placement).value
          refine ⟨⟨trivial, dims_of_branch?_eq ?_ hsettled.branch_eq⟩, fun _ _ => trivial⟩
          exact ⟨hsettled.id_eq, fun h => hsettled.focused_eq ▸ h⟩
      | some tab =>
          obtain rfl := eq_toView_of_tab? htab
          refine (Tab.meets_placeBy Dims.refl Dims.trans ih tab (fun _ _ => trivial)
            placement).bind fun tab' h => Told.meets_pure ⟨trivial, ?_⟩
          refine Tab.dims_of_became h (by simp) (by simp) ?_
          refine TabStrip.map_placed_items _ (fun item rect => ?_) (fun item scale => ?_) _ _
          · simp [TabItem.mark, TabItem.allocate]
          · simp [TabItem.mark, TabItem.setScale, TabItem.remeasure]

theorem Tab.dims_layout (tab : Tab K) : tab.toView.Dims tab.layout.value.toView := by
  have hplace : ∀ placement, View.Keeps (fun _ : View K => True) View.Dims (fun _ => True)
      (View.place placement) :=
    fun placement view h => View.dims_placeWithin view.depth placement view h
  have h := (Tab.meets_layoutBy View.Dims.refl View.Dims.trans hplace tab fun _ _ => trivial).value
  refine Tab.dims_of_became h (by simp) (by simp) ?_
  exact TabStrip.map_layout_items _ (by simp [TabItem.mark, TabItem.allocate]) _

/-! ## Showing and hiding -/

theorem View.dims_setVisible (view : View K) (visible : Bool) :
    view.Dims (view.setVisible visible) := by
  refine dims_of_branch?_eq ⟨by simp [setVisible], fun h => ?_⟩ (branch?_mapCore view _)
  rw [setVisible, core_mapCore, ViewCore.setVisible_focused, Bool.and_eq_true] at h
  exact h.1

theorem Tab.dims_moveSelection (tab : Tab K) (index : Nat) :
    tab.toView.Dims (tab.moveSelection index).toView := by
  have hitems : (tab.moveSelection index).strip.items.map TabItem.mark =
      tab.strip.items.map TabItem.mark :=
    map_items_moveSelection _ (by simp [TabItem.mark, TabItem.setSelected]) tab index
  refine Tab.dims_of_became ⟨rfl, ?_, fun _ _ => trivial, ?_⟩ (by simp) (by simp) hitems
  · simp only [moveSelection]
    split
    · split <;> rfl
    · rfl
  · exact forall₂_moveSelection View.Dims.refl View.Dims.trans View.dims_setVisible tab index

theorem Tab.dims_selectPage (tab : Tab K) (index : Nat) :
    tab.toView.Dims (tab.selectPage index).value.toView := by
  rw [selectPage_value, selectItemAt]
  split
  · rw [selectItem]
    split
    · exact .refl _
    · split
      · exact .refl _
      · exact (tab.dims_moveSelection _).trans _ _ _ (dims_layout _)
  · exact .refl _

end WidgetToolkit
