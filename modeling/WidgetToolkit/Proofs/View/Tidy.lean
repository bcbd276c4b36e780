import WidgetToolkit.Proofs.Tab.Arrangement
import WidgetToolkit.Proofs.View.Branches

/-! # Tidy trees

In a tidy tree every tab has laid out its items and its selected page as it would lay them out now,
keeps no measure that is out of date, and has pages at its own scale factor. -/

namespace WidgetToolkit

variable {K : Type} [Coord K] {same : K → K → Prop}

/-- What is kept and where things are is what it would be now. -/
structure Tab.Tidy (same : K → K → Prop) (tab : Tab K) : Prop where
  uniform : tab.strip.Uniform
  scales : ∀ page ∈ tab.pages, Coord.Agree page.core.scale tab.strip.core.scale
  arranged : tab.strip.Arranged same
  placed : ∀ page, tab.selectedPage? = some page →
    page.core.rect.Same same tab.strip.pageRect

/-- Every tab in the tree is tidy. -/
def View.Tidy (same : K → K → Prop) (root : View K) : Prop := root.EveryTab (Tab.Tidy same)

theorem View.tidy_toView {tab : Tab K} :
    tab.toView.Tidy same ↔ tab.Tidy same ∧ ∀ page ∈ tab.pages, page.Tidy same :=
  everyTab_tab

/-! ## Placement -/

/-- What a placement does to the view that is placed. -/
def ViewCore.Placed (same : K → K → Prop) (core core' : ViewCore K) : Placement K → Prop
  | .allocate rect => core'.rect.Same same rect ∧ core'.scale = core.scale
  | .layout => core'.rect = core.rect ∧ core'.scale = core.scale
  | .rescale scale => core'.scale = scale

theorem TabStrip.placed_core (hsame : Coord.IsCongruence same) (strip : TabStrip K)
    (placement : Placement K) : strip.core.Placed same (strip.placed placement).core placement := by
  cases placement with
  | allocate rect =>
      have hstays := (strip.core.allocate rect).2.stays_invalidate
      refine ⟨?_, hstays.scale_eq.trans (strip.core.sameLook_allocate rect).scale_eq⟩
      exact hstays.rect_eq ▸ strip.core.same_allocate hsame rect
  | layout => exact ⟨strip.core.stays_invalidate.rect_eq, strip.core.stays_invalidate.scale_eq⟩
  | rescale scale => exact (ViewCore.stays_invalidate _).scale_eq

theorem View.placed_placeWithin (hsame : Coord.IsCongruence same) {levels : Nat}
    (hlevels : 0 < levels) (placement : Placement K) (view : View K) :
    view.core.Placed same (placeWithin levels placement view).value.core placement := by
  cases levels with
  | zero => exact absurd hlevels (Nat.lt_irrefl 0)
  | succ levels =>
      cases view with
      | tab strip pages changed =>
          have hstrip := Tab.placeBy_strip (placeWithin levels) ⟨strip, pages, changed⟩ placement
          have hcore := strip.placed_core hsame placement
          rw [← hstrip] at hcore
          exact hcore
      | panel core | plain core | probe core | group core =>
          cases placement with
          | allocate rect =>
              exact ⟨core.same_allocate hsame rect, (core.sameLook_allocate rect).scale_eq⟩
          | layout => exact ⟨rfl, rfl⟩
          | rescale scale => rfl
      | item entry =>
          have hlook := entry.core.sameLook_allocate
          cases placement with
          | allocate rect => exact ⟨entry.core.same_allocate hsame rect, (hlook rect).scale_eq⟩
          | layout => exact ⟨rfl, rfl⟩
          | rescale scale => exact (ViewCore.stays_invalidate _).scale_eq

/-! ## Levels -/

/-- A placement leaves a tree as deep as it is. -/
def View.SameDepth (view view' : View K) : Prop := view'.depth = view.depth

omit [Coord K] in
theorem View.SameDepth.refl (view : View K) : view.SameDepth view := rfl

omit [Coord K] in
theorem View.SameDepth.trans (a b c : View K) (hab : a.SameDepth b) (hbc : b.SameDepth c) :
    a.SameDepth c :=
  Eq.trans hbc hab

omit [Coord K] in
theorem View.depths_eq {views views' : List (View K)} (h : List.Forall₂ SameDepth views views') :
    depths views' = depths views := by
  induction h with
  | nil => rfl
  | cons hview _ ih => rw [depths, depths, hview, ih]

theorem View.keeps_depth_placeWithin (levels : Nat) (placement : Placement K) :
    View.Keeps (fun _ => True) View.SameDepth (fun _ => True) (placeWithin levels placement) := by
  induction levels generalizing placement with
  | zero => exact fun view _ => Told.meets_pure ⟨trivial, rfl⟩
  | succ levels ih =>
      intro view _
      cases view with
      | tab strip pages changed =>
          refine (Tab.meets_placeBy SameDepth.refl SameDepth.trans ih ⟨strip, pages, changed⟩
            (fun _ _ => trivial) placement).bind fun tab' h => Told.meets_pure ⟨trivial, ?_⟩
          exact congrArg (· + 1) (depths_eq h.rel)
      | panel | plain | probe | group | item =>
          cases placement <;> exact ⟨⟨trivial, rfl⟩, fun _ _ => trivial⟩

/-! ## Layout -/

namespace Tab

/-- A tab with nothing out of date, whose items and pages may not be where they belong. -/
structure Dressed (same : K → K → Prop) (good : View K → Prop) (tab : Tab K) : Prop where
  uniform : tab.strip.Uniform
  scales : ∀ page ∈ tab.pages, Coord.Agree page.core.scale tab.strip.core.scale
  pages : ∀ page ∈ tab.pages, good page

variable {good : View K → Prop} {place : Placement K → View K → Told (Notice K) (View K)}
  {tab : Tab K}

section

variable (hsame : Coord.IsCongruence same) (h : tab.Dressed same good)
  (hgood : ∀ placement page, good page → good (place placement page).value)
  (hplaced : ∀ placement page, good page →
    page.core.Placed same (place placement page).value.core placement)

include hsame h hgood hplaced

/-- What is laid out comes to lie where it belongs. -/
theorem Dressed.layoutBy : (tab.layoutBy place).value.Tidy same ∧
    ∀ page ∈ (tab.layoutBy place).value.pages, good page := by
  have hstrip := layoutBy_strip place tab
  have hallocated := fun page hm =>
    hplaced (.allocate tab.strip.layout.pageRect) page (h.pages page hm)
  have hlaid := fun page hm =>
    hplaced .layout _ (hgood (.allocate tab.strip.layout.pageRect) page (h.pages page hm))
  refine ⟨⟨?_, ?_, ?_, ?_⟩, ?_⟩
  · rw [hstrip]
    exact h.uniform.layout
  · rw [hstrip]
    have hscale : tab.strip.layout.core.scale = tab.strip.core.scale :=
      tab.strip.core.stays_invalidate.scale_eq
    rw [hscale]
    refine forall_mem_layoutBy_pages h.scales fun page hm => ?_
    have hkept := (hlaid page hm).2.trans (hallocated page hm).2
    rw [settleBy, hkept]
    exact h.scales page hm
  · rw [hstrip]
    exact tab.strip.arranged_layout hsame
  · intro page hpage
    rw [layoutBy_selectedPage?, Option.map_eq_some_iff] at hpage
    obtain ⟨before, hbefore, rfl⟩ := hpage
    have hm := mem_of_selectedPage? hbefore
    rw [hstrip, settleBy, (hlaid before hm).1]
    exact (tab.strip.layout.layout_pageRect).symm ▸ (hallocated before hm).1
  · exact forall_mem_layoutBy_pages h.pages fun page hm =>
      hgood _ _ (hgood _ page (h.pages page hm))

theorem Dressed.placeBy (placement : Placement K) :
    (tab.placeBy place placement).value.Tidy same ∧
      ∀ page ∈ (tab.placeBy place placement).value.pages, good page := by
  cases placement with
  | allocate rect =>
      let moved : Tab K :=
        { tab with strip := { tab.strip with core := (tab.strip.core.allocate rect).2 } }
      have hmoved : moved.Dressed same good := by
        refine ⟨h.uniform.allocate rect, ?_, h.pages⟩
        exact (tab.strip.core.sameLook_allocate rect).scale_eq ▸ h.scales
      exact hmoved.layoutBy hsame hgood hplaced
  | layout => exact h.layoutBy hsame hgood hplaced
  | rescale scale =>
      let rescaled : Tab K :=
        { tab with
          strip := tab.strip.setScale scale
          pages := (Told.each (place (.rescale scale)) tab.pages).value }
      have hrescaled : rescaled.Dressed same good := by
        refine ⟨h.uniform.setScale scale, ?_, ?_⟩
        · simp only [rescaled, Told.each_value, List.forall_mem_map]
          intro page hm
          have hscale : (place (.rescale scale) page).value.core.scale = scale :=
            hplaced (.rescale scale) page (h.pages page hm)
          exact .inl hscale
        · simp only [rescaled, Told.each_value, List.forall_mem_map]
          exact fun page hm => hgood _ page (h.pages page hm)
      exact hrescaled.layoutBy hsame hgood hplaced

end

end Tab

namespace View

theorem Tidy.dressed {tab : Tab K} (h : tab.toView.Tidy same) :
    tab.Dressed same (View.Tidy same) := by
  obtain ⟨htab, hpages⟩ := tidy_toView.mp h
  exact ⟨htab.uniform, htab.scales, hpages⟩

theorem tidy_placeWithin (hsame : Coord.IsCongruence same) (levels : Nat) (placement : Placement K)
    {view : View K} (hdepth : view.depth ≤ levels) (h : view.Tidy same) :
    (placeWithin levels placement view).value.Tidy same := by
  induction levels generalizing placement view with
  | zero => exact h
  | succ levels ih =>
      cases htab : view.tab? with
      | none => exact (settled_placeWithin htab (levels + 1) placement).value.everyTab h
      | some tab =>
          obtain rfl := eq_toView_of_tab? htab
          have hlevels : ∀ page ∈ tab.pages, page.depth ≤ levels :=
            depths_le_iff.mp (Nat.le_of_succ_le_succ hdepth)
          let good (page : View K) : Prop := page.depth ≤ levels ∧ page.Tidy same
          have hdressed : tab.Dressed same good :=
            { h.dressed with pages := fun page hm => ⟨hlevels page hm, h.dressed.pages page hm⟩ }
          have hgood (placement : Placement K) (page : View K) (hpage : good page) :
              good (placeWithin levels placement page).value := by
            have hkept := (keeps_depth_placeWithin levels placement page trivial).value.2
            exact ⟨Nat.le_trans (Nat.le_of_eq hkept) hpage.1, ih placement hpage.1 hpage.2⟩
          have hthere (placement : Placement K) (page : View K) (hpage : good page) :
              page.core.Placed same (placeWithin levels placement page).value.core placement :=
            placed_placeWithin hsame (Nat.lt_of_lt_of_le page.depth_pos hpage.1) placement page
          have hplaced := hdressed.placeBy hsame hgood hthere placement
          exact tidy_toView.mpr ⟨hplaced.1, fun page hm => (hplaced.2 page hm).2⟩

theorem tidy_place (hsame : Coord.IsCongruence same) (placement : Placement K) {view : View K}
    (h : view.Tidy same) : (view.place placement).value.Tidy same :=
  tidy_placeWithin hsame view.depth placement (Nat.le_refl _) h

theorem placed_place (hsame : Coord.IsCongruence same) (placement : Placement K) (view : View K) :
    view.core.Placed same (view.place placement).value.core placement :=
  placed_placeWithin hsame view.depth_pos placement view

end View

end WidgetToolkit
