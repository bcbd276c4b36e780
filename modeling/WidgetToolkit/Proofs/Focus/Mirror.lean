import Mathlib.GroupTheory.Perm.List
import WidgetToolkit.Proofs.Focus.Progress

/-! # Moving on and back

The focus goes around the views that can have it, and it goes around them in the other direction when
it moves back. Whether it comes back to where it was depends on the round backward being the round
forward, read from the end. A view always comes after those below it, and a page after its item,
whatever the direction. So the rounds are those of a mirror if no two such views can both have the
focus. -/

namespace WidgetToolkit

variable {K : Type}

/-! ## Rounds -/

namespace View

/-- The views that can have the focus, in the order in which it goes to them. -/
def stops (view : View K) (reverse : Bool) : List ViewId :=
  ((view.line reverse).filter (·.focusable)).map (·.id)

/-- Those among a child and the views below it. -/
def stopsFrom (reverse : Bool) (child : View K) : List ViewId :=
  if child.core.visible then
    child.stops reverse ++ if child.core.focusable then [child.id] else []
  else []

theorem stops_eq (view : View K) (reverse : Bool) :
    view.stops reverse = (view.children reverse).flatMap (stopsFrom reverse) := by
  rw [stops, line, shown_eq, List.map_flatMap, List.filter_flatMap, List.map_flatMap]
  refine congrArg (List.flatMap · _) (funext fun child => ?_)
  rw [stopsFrom]
  split
  · cases hfocusable : child.core.focusable <;> simp [stops, line, hfocusable, View.id]
  · rfl

theorem Regular.nodup_stops {root : View K} (h : root.Regular) (reverse : Bool) :
    (root.stops reverse).Nodup :=
  (nodup_line h reverse).sublist (List.filter_sublist.map _)

theorem Regular.mem_stops_iff {root : View K} (h : root.Regular)
    (hvisible : root.core.visible = true) (reverse : Bool) {id : ViewId} :
    id ∈ root.stops reverse ↔ id ≠ root.id ∧ root.Admits id := by
  rw [h.admits_iff_mem_line hvisible reverse, stops, List.mem_map]
  simp only [List.mem_filter, and_assoc]
  exact exists_congr fun core => and_congr_right fun _ => and_comm

theorem stops_mapCores (view : View K) {f : ViewCore K → ViewCore K}
    (hid : ∀ core, (f core).id = core.id)
    (hvisible : ∀ core, (f core).visible = core.visible)
    (hfocusable : ∀ core, (f core).focusable = core.focusable) (reverse : Bool) :
    (view.mapCores f).stops reverse = view.stops reverse := by
  induction view using branch_induction with
  | step view ih =>
      rw [stops_eq, stops_eq, children_mapCores, List.flatMap_map, List.flatMap, List.flatMap]
      refine congrArg List.flatten (List.map_congr_left fun child hm => ?_)
      obtain ⟨branch, hbranch⟩ := exists_branch?_of_mem_children hm
      simp only [stopsFrom, ih branch child hbranch, View.id, core_mapCores, hid, hvisible,
        hfocusable]

end View

/-- The next in line is the next one on the round. -/
theorem Focus.successor?_map_id {line : List (ViewCore K)} (hdistinct : (line.map (·.id)).Nodup)
    {core : ViewCore K} (hm : core ∈ line) (hfocusable : core.focusable = true) :
    (Focus.successor? ⟨some core.id⟩ line).map (·.id) =
      some (((line.filter (·.focusable)).map (·.id)).formPerm core.id) := by
  obtain ⟨front, behind, rfl⟩ := List.append_of_mem hm
  have hfront : ∀ before ∈ front, before.id ≠ core.id := by
    rw [List.map_append, List.map_cons, List.nodup_append] at hdistinct
    exact fun before hm => hdistinct.2.2 _ (List.mem_map_of_mem hm) _ List.mem_cons_self
  have hround : (((front ++ core :: behind).filter (·.focusable)).map (·.id)).IsRotated
      (core.id :: ((behind.filter (·.focusable) ++ front.filter (·.focusable)).map (·.id))) := by
    rw [List.filter_append, List.filter_cons_of_pos hfocusable, List.map_append, List.map_append]
    exact List.isRotated_append
  have hnodup : (((front ++ core :: behind).filter (·.focusable)).map (·.id)).Nodup :=
    hdistinct.sublist (List.filter_sublist.map _)
  rw [List.formPerm_eq_of_isRotated hnodup hround, successor?, behind_append_cons hfront,
    ← List.head?_filter, ← List.head?_filter, List.filter_append,
    List.filter_cons_of_pos hfocusable]
  rw [hround.nodup_iff] at hnodup
  cases hbehind : behind.filter (·.focusable) with
  | cons next rest =>
      rw [hbehind] at hnodup
      exact congrArg some (List.formPerm_apply_head _ _ _ hnodup).symm
  | nil =>
      cases hahead : front.filter (·.focusable) with
      | cons next rest =>
          rw [hbehind, hahead] at hnodup
          exact congrArg some (List.formPerm_apply_head _ _ _ hnodup).symm
      | nil => simp

namespace View

/-! ## Mirrored rounds -/

/-- The children in groups, within which they keep their order: an item comes before its page, and
any other child is by itself. -/
def blocks : View K → List (List (View K))
  | .group _ _ children => children.map ([·])
  | .tab strip pages _ => (strip.items.zip pages).map fun pair => [.item pair.1, pair.2]
  | _ => []

theorem sequence_go_eq (tab : Tab K) {indices : List Nat}
    (hindices : ∀ index ∈ indices, index < (tab.strip.items.zip tab.pages).length) :
    Tab.sequence.go tab indices = (indices.filterMap (tab.toView.blocks[·]?)).flatten := by
  induction indices with
  | nil => rfl
  | cons index rest ih =>
      have hpair := List.getElem?_eq_getElem (hindices index List.mem_cons_self)
      have hblock : tab.toView.blocks[index]? = _ :=
        (List.getElem?_map ..).trans (congrArg (Option.map _) hpair)
      obtain ⟨hitem, hpage⟩ := List.getElem?_zip_eq_some.mp hpair
      have hrest := ih fun other hm => hindices other (List.mem_cons_of_mem _ hm)
      rw [List.filterMap_cons_some (f := (tab.toView.blocks[·]?)) hblock]
      simp only [Tab.sequence.go, hitem, hpage, hrest]
      rfl

/-- Where no page is missing, the other order of a tab is the other order of its groups. -/
theorem sequence_eq_blocks {tab : Tab K} (hpages : tab.strip.items.length ≤ tab.pages.length)
    (reverse : Bool) :
    tab.sequence reverse =
      (if reverse then tab.toView.blocks.reverse else tab.toView.blocks).flatten := by
  have hlength : (tab.strip.items.zip tab.pages).length = tab.strip.items.length := by
    rw [List.length_zip, Nat.min_eq_left hpages]
  have hall : (List.range tab.strip.items.length).filterMap (tab.toView.blocks[·]?) =
      tab.toView.blocks := by
    rw [filterMap_getElem?_range, List.take_of_length_le]
    rw [Tab.toView, blocks, List.length_map, hlength]
  cases reverse with
  | false =>
      refine (sequence_go_eq tab ?_).trans (congrArg List.flatten hall)
      simp [hlength]
  | true =>
      refine (sequence_go_eq tab ?_).trans (congrArg List.flatten ?_)
      · simp [hlength]
      · rw [if_pos rfl, List.filterMap_reverse]
        exact congrArg List.reverse hall

/-- The other order of the children is the other order of the groups. -/
theorem Regular.children_eq_blocks {view : View K} (h : view.Regular) (reverse : Bool) :
    view.children reverse =
      (if reverse then view.blocks.reverse else view.blocks).flatten := by
  cases view with
  | panel | plain | probe | item => cases reverse <;> rfl
  | group core widget children =>
      have hsingle : ∀ views : List (View K), (views.map ([·])).flatten = views := fun views =>
        List.flatMap_singleton' views
      cases reverse with
      | false => exact (hsingle children).symm
      | true => exact (hsingle children.reverse).symm.trans (by rw [List.map_reverse]; rfl)
  | tab strip pages changed =>
      let tab : Tab K := ⟨strip, pages, changed⟩
      have hpages : tab.strip.items.length ≤ tab.pages.length := by
        by_contra hless
        have hpage : pages.length < strip.items.length → pages.length < pages.length := by
          simpa [at?, branch?] using h.paired [] pages.length
        exact absurd (hpage (Nat.lt_of_not_le hless)) (Nat.lt_irrefl _)
      exact sequence_eq_blocks hpages reverse

theorem mem_children_of_mem_blocks {view child : View K} (h : view.Regular)
    {block : List (View K)} (hblock : block ∈ view.blocks) (hchild : child ∈ block) :
    child ∈ view.children false := by
  rw [h.children_eq_blocks false]
  exact List.mem_flatten_of_mem hblock hchild

/-- No view that can have the focus has another such view below it, and an item that can have the
focus has no such view in its page, and is not beside one. -/
structure Unstacked (root : View K) : Prop where
  below : ∀ view ∈ root.shown false, view.core.focusable = true → view.stops false = []
  beside : ∀ view ∈ root :: root.shown false, ∀ tab ∈ view.tab?,
    ∀ pair ∈ tab.strip.items.zip tab.pages,
      (View.item pair.1).stopsFrom false = [] ∨ pair.2.stopsFrom false = []

theorem shown_subset_of_child {view child : View K} (hchild : child ∈ view.children false)
    (hvisible : child.core.visible = true) : child :: child.shown false ⊆ view.shown false := by
  intro below hm
  rw [shown_eq view, List.mem_flatMap]
  refine ⟨child, hchild, ?_⟩
  rw [if_pos hvisible, List.mem_append, List.mem_singleton]
  exact (List.mem_cons.mp hm).symm

theorem Unstacked.child {view child : View K} (h : view.Unstacked)
    (hchild : child ∈ view.children false) (hvisible : child.core.visible = true) :
    child.Unstacked :=
  have hsubset := shown_subset_of_child hchild hvisible
  ⟨fun below hm => h.below below (hsubset (List.mem_cons_of_mem _ hm)),
    fun below hm => h.beside below (List.mem_cons_of_mem _ (hsubset hm))⟩

/-- The round backward is the round forward from its end. -/
theorem Regular.stops_true {root : View K} (h : root.Regular) (hunstacked : root.Unstacked) :
    root.stops true = (root.stops false).reverse := by
  induction root using branch_induction with
  | step view ih =>
      have hfrom : ∀ child ∈ view.children false,
          child.stopsFrom true = (child.stopsFrom false).reverse := by
        intro child hchild
        obtain ⟨branch, hbranch⟩ := exists_branch?_of_mem_children hchild
        rw [stopsFrom, stopsFrom]
        cases hvisible : child.core.visible with
        | false => rfl
        | true =>
            have hback := ih branch child hbranch (h.branch hbranch)
              (hunstacked.child hchild hvisible)
            have hshown := shown_subset_of_child hchild hvisible List.mem_cons_self
            rw [hback]
            cases hfocusable : child.core.focusable with
            | false => simp
            | true => simp [hunstacked.below child hshown hfocusable]
      -- What keeps its order comes to one view that can have the focus, or to one side.
      have hblock : ∀ block ∈ view.blocks, block.flatMap (stopsFrom true) =
          (block.flatMap (stopsFrom false)).reverse := by
        intro block hblock
        have hchildren : ∀ child ∈ block, child ∈ view.children false := fun _ hm =>
          mem_children_of_mem_blocks h hblock hm
        cases view with
        | panel | plain | probe | item => cases hblock
        | group core widget children =>
            obtain ⟨child, -, rfl⟩ := List.mem_map.mp hblock
            have hchild := hfrom child (hchildren child List.mem_cons_self)
            simp [hchild]
        | tab strip pages changed =>
            obtain ⟨pair, hpair, rfl⟩ := List.mem_map.mp hblock
            have hitem := hfrom _ (hchildren (.item pair.1) List.mem_cons_self)
            have hpage := hfrom _ (hchildren pair.2 (by simp))
            have hside := hunstacked.beside _ List.mem_cons_self ⟨strip, pages, changed⟩ rfl
              pair hpair
            rcases hside with hside | hside <;> simp [hitem, hpage, hside]
      have hflat : ∀ reverse, view.stops reverse =
          (if reverse then view.blocks.reverse else view.blocks).flatMap
            fun block => block.flatMap (stopsFrom reverse) := fun reverse => by
        rw [stops_eq, h.children_eq_blocks reverse, ← List.flatMap_id, List.flatMap_assoc]
        rfl
      rw [hflat true, hflat false, if_pos rfl, if_neg Bool.false_ne_true, List.reverse_flatMap]
      refine congrArg List.flatten (List.map_congr_left fun block hm => ?_)
      exact hblock block (List.mem_reverse.mp hm)

end View

variable [Coord K]

namespace Focus

variable {root : View K}

/-- From a view that can have the focus, it goes to the next one on the round. -/
theorem advance_of_mem_stops (hcontainer : root.isContainer = true)
    (hvisible : root.core.visible = true) (hregular : root.Regular) {reverse : Bool}
    {id : ViewId} (hid : id ∈ root.stops reverse) :
    ∃ flags, Focus.advance ⟨some id⟩ root reverse =
      (true, ⟨some ((root.stops reverse).formPerm id)⟩,
        root.mapCores (ViewCore.setFlags flags)) := by
  obtain ⟨core, hm, rfl⟩ := List.mem_map.mp hid
  obtain ⟨hm, hfocusable⟩ := List.mem_filter.mp hm
  have hline : core.id ∈ (root.line reverse).map (·.id) := List.mem_map_of_mem hm
  have hroot : (Focus.mk (some core.id)).focused ≠ some root.id := by
    intro heq
    exact hregular.id_notMem_line reverse (Option.some.inj heq ▸ hline)
  have hkept : Focus.forgetHidden ⟨some core.id⟩ root = ⟨some core.id⟩ := by
    rw [forgetHidden_eq hvisible hregular hroot reverse, Option.filter_some, if_pos]
    exact decide_eq_true hline
  have hadvance : Focus.advance ⟨some core.id⟩ root reverse = _ :=
    advance_eq_handOver hcontainer hregular reverse fun id hid => by
      rw [hkept] at hid
      exact Option.some.inj hid ▸ hline
  have hnext := successor?_map_id (View.nodup_line hregular reverse) hm hfocusable
  simp only [hkept, hnext] at hadvance
  exact ⟨_, hadvance⟩

end Focus

namespace View

/-- Moving on from a view and back leads to the view again, whichever comes first. -/
def Retraces (root : View K) (id : ViewId) : Prop :=
  ∀ reverse, let there := Focus.advance ⟨some id⟩ root reverse
    (there.2.1.advance there.2.2 (!reverse)).2.1.focused = some id

theorem retraces_iff {root : View K} (hcontainer : root.isContainer = true)
    (hvisible : root.core.visible = true) (hregular : root.Regular) {id : ViewId}
    (hid : id ∈ root.stops false) :
    root.Retraces id ↔ ∀ reverse,
      (root.stops (!reverse)).formPerm ((root.stops reverse).formPerm id) = id := by
  refine forall_congr' fun reverse => ?_
  have hmem : ∀ reverse id, id ∈ root.stops reverse ↔ id ∈ root.stops false := fun _ _ =>
    (hregular.mem_stops_iff hvisible _).trans (hregular.mem_stops_iff hvisible _).symm
  obtain ⟨flags, hthere⟩ := Focus.advance_of_mem_stops hcontainer hvisible hregular
    ((hmem reverse id).mpr hid)
  have hstops : ∀ reverse, (root.mapCores (ViewCore.setFlags flags)).stops reverse =
      root.stops reverse :=
    stops_mapCores root (ViewCore.setFlags_id flags) (ViewCore.setFlags_visible flags)
      (ViewCore.setFlags_focusable flags)
  have hnext : (root.stops reverse).formPerm id ∈
      (root.mapCores (ViewCore.setFlags flags)).stops (!reverse) := by
    rw [hstops, hmem, ← hmem reverse]
    exact List.formPerm_apply_mem_of_mem ((hmem reverse id).mpr hid)
  obtain ⟨flags', hback⟩ := Focus.advance_of_mem_stops
    ((isContainer_mapCores root _).trans hcontainer)
    ((congrArg ViewCore.visible (core_mapCores root _)).trans
      ((ViewCore.setFlags_visible flags _).trans hvisible))
    (hregular.mapCores (ViewCore.setFlags_id flags)) hnext
  rw [hthere]
  simp only [hback, hstops, Option.some.injEq]

/-- The rounds are those of a mirror if every step of one is undone by a step of the other. -/
theorem isRotated_reverse_iff {forward backward : List ViewId} (hforward : forward.Nodup)
    (hbackward : backward.Nodup) (hmem : ∀ id, id ∈ backward ↔ id ∈ forward) :
    backward.IsRotated forward.reverse ↔
      ∀ id ∈ forward, backward.formPerm (forward.formPerm id) = id ∧
        forward.formPerm (backward.formPerm id) = id := by
  have hreverse := List.nodup_reverse.mpr hforward
  constructor
  · intro hrotated id _
    rw [List.formPerm_eq_of_isRotated hbackward hrotated, List.formPerm_reverse]
    exact ⟨forward.formPerm.symm_apply_apply id, forward.formPerm.apply_symm_apply id⟩
  · intro hundone
    have hperm : backward.formPerm = forward.reverse.formPerm := by
      rw [List.formPerm_reverse, eq_inv_iff_mul_eq_one]
      refine Equiv.ext fun id => ?_
      by_cases hid : id ∈ forward
      · exact (hundone id hid).1
      · have hback : id ∉ backward := fun hm => hid ((hmem id).mp hm)
        rw [Equiv.Perm.mul_apply, List.formPerm_apply_of_notMem hid,
          List.formPerm_apply_of_notMem hback]
        rfl
    rcases (List.formPerm_eq_formPerm_iff hbackward hreverse).mp hperm with h | ⟨hshort, -⟩
    · exact h
    · have hsame : backward.Perm forward.reverse := by
        rw [List.perm_ext_iff_of_nodup hbackward hreverse]
        simp [hmem]
      match backward, hshort with
      | [], _ => rw [hsame.nil_eq]
      | [id], _ => rw [hsame.singleton_eq]

/-- Moving on and back leads to the view that it began at, for every view that can have the focus,
exactly if the round backward is the round forward from its end, wherever it begins. This is so if
no such view is below another one, and no item is beside one. -/
theorem retraces_iff_mirrored {root : View K} (hcontainer : root.isContainer = true)
    (hvisible : root.core.visible = true) (hregular : root.Regular) :
    ((∀ id, id ≠ root.id → root.Admits id → root.Retraces id) ↔
        (root.stops true).IsRotated (root.stops false).reverse) ∧
      (root.Unstacked → ∀ id, id ≠ root.id → root.Admits id → root.Retraces id) := by
  have hstops : ∀ reverse id, id ∈ root.stops reverse ↔ id ≠ root.id ∧ root.Admits id :=
    fun reverse _ => hregular.mem_stops_iff hvisible reverse
  have hmirror : (∀ id, id ≠ root.id → root.Admits id → root.Retraces id) ↔
      (root.stops true).IsRotated (root.stops false).reverse := by
    rw [isRotated_reverse_iff (hregular.nodup_stops false) (hregular.nodup_stops true)
      fun id => (hstops true id).trans (hstops false id).symm]
    refine forall_congr' fun id => ?_
    rw [← and_imp, ← hstops false id]
    refine forall_congr' fun hid => ?_
    rw [retraces_iff hcontainer hvisible hregular hid, Bool.forall_bool]
    rfl
  refine ⟨hmirror, fun hunstacked => hmirror.mpr ?_⟩
  rw [hregular.stops_true hunstacked]

/-- From the last field of a form with a tab around to the first one, and back. -/
theorem retraces_iff_mirrored_form :
    let metrics : TextMetrics Rat := ⟨fun _ _ => .zero⟩
    let field (number : Nat) : View Rat :=
      .plain { ViewCore.new (.view number) with focusable := true } ⟨"crate", "Field"⟩
    let tab : Tab Rat := ((Tab.new (.view 2) metrics .standard).addPage "page" (field 3)).value
    let part : View Rat := .group (.new (.view 4)) ⟨"crate", "Form"⟩ [field 5, field 6]
    let root : View Rat :=
      .group (.new (.view 0)) ⟨"crate", "Form"⟩ [field 1, tab.toView, part]
    root.Regular ∧ root.stops false = [.view 1, .view 3, .view 5, .view 6] ∧
      root.Retraces (.view 6) := by
  intro metrics field tab part root
  have hregular : root.Regular := by decide +kernel
  have hvisible : root.core.visible = true := rfl
  have hstops : root.stops false = [.view 1, .view 3, .view 5, .view 6] := by decide +kernel
  have hadmits : .view 6 ≠ root.id ∧ root.Admits (.view 6) :=
    (hregular.mem_stops_iff hvisible false).mp (by rw [hstops]; simp)
  have hunstacked : root.Unstacked := ⟨by decide +kernel, by decide +kernel⟩
  refine ⟨hregular, hstops, ?_⟩
  exact (retraces_iff_mirrored rfl hvisible hregular).2 hunstacked _ hadmits.1 hadmits.2

/-- The items of a tab can have the focus, and so can its pages. From the first page the focus goes
on to the second item, and back to the first item. -/
theorem retraces_not_items_and_pages :
    let metrics : TextMetrics Rat := ⟨fun _ _ => .zero⟩
    let page (number : Nat) : View Rat :=
      .panel { ViewCore.new (.view number) with focusable := true } .empty
    let single : Tab Rat := ((Tab.new (.view 0) metrics .standard).addPage "one" (page 1)).value
    let tab : Tab Rat := (single.addPage "two" (page 2)).value
    let items := tab.strip.items.map fun entry =>
      { entry with core := entry.core.setFocusable true }
    let root : View Rat := .tab { tab.strip with items := items } tab.pages tab.changed
    let there := Focus.advance ⟨some (.view 1)⟩ root false
    root.Regular ∧ root.isContainer = true ∧ root.core.visible = true ∧
      .view 1 ≠ root.id ∧ root.Admits (.view 1) ∧
      there.2.1.focused = some (.item (.view 0) 1) ∧
      (there.2.1.advance there.2.2 true).2.1.focused = some (.item (.view 0) 0) := by
  intro metrics page single tab items root there
  have hregular : root.Regular := by decide +kernel
  have hvisible : root.core.visible = true := by decide +kernel
  have hadmits : .view 1 ≠ root.id ∧ root.Admits (.view 1) :=
    (hregular.mem_stops_iff hvisible false).mp (by decide +kernel)
  exact ⟨hregular, rfl, hvisible, hadmits.1, hadmits.2, by decide +kernel, by decide +kernel⟩

end View

end WidgetToolkit
