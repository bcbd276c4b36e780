import Mathlib.Data.List.Nodup
import WidgetToolkit.Proofs.Lists
import WidgetToolkit.Proofs.View.Tree

/-! # Views and their branches

A view is told by what it is itself and by what is on its branches. Its children are what is on its
branches, one after the other. -/

namespace WidgetToolkit.View

variable {K : Type}

/-! ## Views and their branches -/

/-- What a view is itself, without what is below it. -/
def frame : View K → View K
  | .group core widget _ => .group core widget []
  | .tab strip _ changed => .tab { strip with items := [] } [] changed
  | view => view

theorem ext_branches {view view' : View K} (hframe : view.frame = view'.frame)
    (hbranch : ∀ branch, view.branch? branch = view'.branch? branch) : view = view' := by
  cases view with
  | panel | plain | probe | item => cases view' <;> first | exact hframe | cases hframe
  | group core widget children =>
      cases view' with
      | group core' widget' children' =>
          have hchildren : children = children' := List.ext_getElem? fun index =>
            hbranch (.child index)
          cases hframe
          rw [hchildren]
      | _ => cases hframe
  | tab strip pages changed =>
      cases view' with
      | tab strip' pages' changed' =>
          have hpages : pages = pages' := List.ext_getElem? fun index => hbranch (.child index)
          have hitems : strip.items = strip'.items := by
            refine List.ext_getElem? fun index => ?_
            exact Option.map_injective (fun _ _ => View.item.inj) (hbranch (.item index))
          obtain ⟨hstrip, -, rfl⟩ := View.tab.inj hframe
          have hstrip : strip = strip' := by
            cases strip
            cases strip'
            simp_all
          rw [hstrip, hpages]
      | _ => cases hframe

theorem branch?_of_leaf {view : View K} (h : view.isContainer = false) (branch : Branch) :
    view.branch? branch = none := by
  cases view <;> cases branch <;> first | rfl | cases h

/-- What holds of a view as soon as it holds of everything on its branches holds of every view. -/
@[elab_as_elim]
theorem branch_induction {p : View K → Prop}
    (step : ∀ view, (∀ branch child, view.branch? branch = some child → p child) → p view)
    (view : View K) : p view := by
  have hleaf : ∀ view : View K, view.isContainer = false → p view := by
    refine fun view hview => step view fun branch child hchild => ?_
    cases (branch?_of_leaf hview branch).symm.trans hchild
  refine @View.rec K p (fun views => ∀ view ∈ views, p view) (fun _ _ => hleaf _ rfl)
    (fun _ _ => hleaf _ rfl) (fun _ _ _ => hleaf _ rfl) ?_ (fun _ => hleaf _ rfl) ?_
    (fun _ hm => absurd hm List.not_mem_nil)
    (fun _ _ hhead htail => List.forall_mem_cons.mpr ⟨hhead, htail⟩) view
  · refine fun core widget children ih => step _ fun branch child hchild => ?_
    cases branch with
    | child index => exact ih child (List.mem_of_getElem? hchild)
    | item index => cases hchild
  · refine fun strip pages changed ih => step _ fun branch child hchild => ?_
    cases branch with
    | child index => exact ih child (List.mem_of_getElem? hchild)
    | item index =>
        obtain ⟨entry, -, rfl⟩ := Option.map_eq_some_iff.mp hchild
        exact hleaf _ rfl

theorem at?_cons_of_branch? {view child : View K} {branch : Branch}
    (hchild : view.branch? branch = some child) (path : List Branch) :
    view.at? (branch :: path) = child.at? path := by
  rw [at?, hchild, Option.bind_some]

theorem at?_append (view : View K) (path path' : List Branch) :
    view.at? (path ++ path') = (view.at? path).bind (·.at? path') := by
  induction path generalizing view with
  | nil => rfl
  | cons branch path ih =>
      rw [List.cons_append, at?, at?, Option.bind_assoc]
      exact congrArg _ (funext ih)

/-! ## Replacing what is on a branch -/

@[simp] theorem replaceAt_nil (view new : View K) : view.replaceAt [] new = new := by
  cases view <;> rfl

@[simp] theorem frame_replaceAt_singleton (view : View K) (branch : Branch) (new : View K) :
    (view.replaceAt [branch] new).frame = view.frame := by
  cases branch with
  | child index => cases view <;> rfl
  | item index =>
      cases view with
      | tab => cases new <;> rfl
      | _ => rfl

theorem branch?_replaceAt_of_ne (view : View K) {branch other : Branch} (hne : other ≠ branch)
    (new : View K) : (view.replaceAt [branch] new).branch? other = view.branch? other := by
  cases branch with
  | child index =>
      have hmodify : ∀ (views : List (View K)) (index' : Nat), other = .child index' →
          (views.modify index (·.replaceAt [] new))[index']? = views[index']? := by
        rintro views index' rfl
        have hindex : index ≠ index' := fun h => hne (h ▸ rfl)
        simp [hindex]
      cases other with
      | child index' =>
          cases view with
          | group _ _ children => exact hmodify children index' rfl
          | tab _ pages _ => exact hmodify pages index' rfl
          | _ => rfl
      | item => cases view <;> rfl
  | item index =>
      cases view with
      | tab strip pages changed =>
          cases new with
          | item entry =>
              cases other with
              | child => rfl
              | item index' =>
                  have hindex : index ≠ index' := fun h => hne (h ▸ rfl)
                  simp [replaceAt, branch?, TabStrip.modifyItem, hindex]
          | _ => rfl
      | _ => rfl

/-- An item is replaced by an item only. -/
theorem branch?_replaceAt_self {view child new : View K} {branch : Branch}
    (hchild : view.branch? branch = some child)
    (hitem : ∀ entry, child = .item entry → ∃ entry', new = .item entry') :
    (view.replaceAt [branch] new).branch? branch = some new := by
  cases branch with
  | child index =>
      cases view with
      | group _ _ children =>
          have hget : children[index]? = some child := hchild
          simp [replaceAt, branch?, hget]
      | tab _ pages _ =>
          have hget : pages[index]? = some child := hchild
          simp [replaceAt, branch?, hget]
      | _ => cases hchild
  | item index =>
      cases view with
      | tab strip pages changed =>
          obtain ⟨entry, hentry, rfl⟩ := Option.map_eq_some_iff.mp hchild
          obtain ⟨entry', rfl⟩ := hitem entry rfl
          simp [replaceAt, branch?, TabStrip.modifyItem, hentry]
      | _ => cases hchild

/-- A replacement deep down is one on the first branch. -/
theorem replaceAt_cons {view child : View K} {branch : Branch} {path : List Branch}
    (hchild : view.branch? branch = some child) (hat : (child.at? path).isSome) (new : View K) :
    view.replaceAt (branch :: path) new = view.replaceAt [branch] (child.replaceAt path new) := by
  cases branch with
  | child index =>
      have hmodify : ∀ views : List (View K), views[index]? = some child →
          views.modify index (·.replaceAt path new) =
            views.modify index (·.replaceAt [] (child.replaceAt path new)) := by
        intro views hget
        simp only [List.modify_eq_set_getElem?, hget, replaceAt_nil]
        rfl
      cases view with
      | group core widget children =>
          exact congrArg (View.group core widget) (hmodify children hchild)
      | tab strip pages changed =>
          exact congrArg (View.tab strip · changed) (hmodify pages hchild)
      | _ => cases hchild
  | item index =>
      cases view with
      | tab strip pages changed =>
          obtain ⟨entry, -, rfl⟩ := Option.map_eq_some_iff.mp hchild
          obtain ⟨below, hbelow⟩ := Option.isSome_iff_exists.mp hat
          obtain ⟨rfl, -⟩ := at?_item hbelow
          rw [replaceAt_nil]
      | _ => cases hchild

/-- What is put at an address is there. -/
theorem at?_replaceAt {root view new : View K} {path : List Branch} (hat : root.at? path = some view)
    (hitem : ∀ entry, view = .item entry → ∃ entry', new = .item entry') :
    (root.replaceAt path new).at? path = some new := by
  induction path generalizing root with
  | nil => rw [replaceAt_nil, at?]
  | cons branch path ih =>
      obtain ⟨child, hchild, hthere⟩ := at?_cons_eq_some_iff.mp hat
      rw [replaceAt_cons hchild (Option.isSome_of_eq_some hthere)]
      refine at?_cons_eq_some_iff.mpr ⟨_, branch?_replaceAt_self hchild ?_, ih hthere⟩
      rintro entry rfl
      obtain ⟨rfl, rfl⟩ := at?_item hthere
      rw [replaceAt_nil]
      exact hitem entry rfl

theorem isContainer_of_branch? {view child : View K} {branch : Branch}
    (hchild : view.branch? branch = some child) : view.isContainer := by
  by_contra hleaf
  cases (branch?_of_leaf (by simpa using hleaf) branch).symm.trans hchild

/-- A property of all tabs outlives a replacement, if a tab keeps it when what is on one of its
branches becomes another view to which it is related. -/
theorem EveryTab.replaceAt {p : Tab K → Prop} {rel : View K → View K → Prop}
    (hstep : ∀ (tab tab' : Tab K) branch child new, p tab →
      tab.toView.branch? branch = some child → rel child new →
      tab.toView.replaceAt [branch] new = tab'.toView → p tab')
    (hcore : ∀ view view' : View K, view.isContainer → view'.core = view.core → rel view view')
    {root view new : View K} {path : List Branch} (h : root.EveryTab p)
    (hat : root.at? path = some view) (hnew : new.EveryTab p)
    (hrel : root.IsBelowTab path → rel view new)
    (hitem : ∀ entry, view = .item entry → ∃ entry', new = .item entry') :
    (root.replaceAt path new).EveryTab p := by
  induction path generalizing root with
  | nil => rwa [replaceAt_nil]
  | cons branch path ih =>
      obtain ⟨child, hchild, hthere⟩ := at?_cons_eq_some_iff.mp hat
      have hbelow : (child.replaceAt path new).EveryTab p :=
        ih (h.branch branch hchild) hthere fun hbelow => hrel (hbelow.cons hchild)
      rw [replaceAt_cons hchild (by rw [hthere]; rfl)]
      apply everyTab_of_branches
      · intro tab' heq
        have hframe := frame_replaceAt_singleton root branch (child.replaceAt path new)
        rw [heq] at hframe
        cases root with
        | tab strip pages changed =>
            refine hstep ⟨strip, pages, changed⟩ tab' branch child _ (h [] _ rfl) hchild ?_ heq
            cases path with
            | nil =>
                obtain rfl : child = view := Option.some.inj hthere
                rw [replaceAt_nil]
                exact hrel (isBelowTab_singleton ⟨strip, pages, changed⟩ branch)
            | cons branch' path =>
                obtain ⟨_, hchild', -⟩ := at?_cons_eq_some_iff.mp hthere
                exact hcore _ _ (isContainer_of_branch? hchild')
                  (core_replaceAt child branch' path new)
        | _ => cases hframe
      · intro other view' hview'
        by_cases hother : other = branch
        · rw [hother, branch?_replaceAt_self hchild] at hview'
          · exact Option.some.inj hview' ▸ hbelow
          · rintro entry rfl
            obtain ⟨rfl, rfl⟩ := at?_item hthere
            rw [replaceAt_nil]
            exact hitem entry rfl
        · rw [branch?_replaceAt_of_ne root hother] at hview'
          exact h.branch other hview'

/-! ## Children

They come in order or in reverse order, but for an item whose page is missing: it ends them. -/

/-- What is on branches, one after the other, up to the first one with nothing on it. -/
def childrenAlong (view : View K) : List Branch → List (View K)
  | [] => []
  | branch :: rest =>
    match view.branch? branch with
    | none => []
    | some child => child :: view.childrenAlong rest

theorem childrenAlong_group (core : ViewCore K) (widget : WidgetType) (children : List (View K))
    {indices : List Nat} (hindices : ∀ index ∈ indices, index < children.length) :
    (View.group core widget children).childrenAlong (indices.map .child) =
      indices.filterMap (children[·]?) := by
  induction indices with
  | nil => rfl
  | cons index rest ih =>
      have hget := List.getElem?_eq_getElem (hindices index List.mem_cons_self)
      have hrest := ih fun index hm => hindices index (List.mem_cons_of_mem _ hm)
      simp only [List.map_cons, childrenAlong, branch?, hget, List.filterMap_cons, hrest]

theorem childrenAlong_tab (tab : Tab K) {indices : List Nat}
    (hindices : ∀ index ∈ indices, index < tab.strip.items.length) :
    tab.toView.childrenAlong (indices.flatMap fun index => [.item index, .child index]) =
      Tab.sequence.go tab indices := by
  induction indices with
  | nil => rfl
  | cons index rest ih =>
      have hitem := List.getElem?_eq_getElem (hindices index List.mem_cons_self)
      have hrest := ih fun index hm => hindices index (List.mem_cons_of_mem _ hm)
      simp only [List.flatMap_cons, List.cons_append, List.nil_append, childrenAlong, Tab.toView,
        branch?, hitem, Option.map_some, Tab.sequence.go]
      cases hpage : tab.pages[index]? with
      | none => rfl
      | some page => exact congrArg (View.item _ :: page :: ·) hrest

theorem children_eq (view : View K) (reverse : Bool) :
    view.children reverse = view.childrenAlong (view.branches reverse) := by
  cases view with
  | panel | plain | probe | item => rfl
  | group core widget children =>
      have hall := filterMap_getElem?_range children children.length
      rw [List.take_length] at hall
      cases reverse with
      | false => exact (hall.symm.trans (childrenAlong_group core widget children (by simp)).symm)
      | true =>
          have hback : children.reverse =
              (List.range children.length).reverse.filterMap (children[·]?) := by
            rw [List.filterMap_reverse, hall]
          exact hback.trans (childrenAlong_group core widget children (by simp)).symm
  | tab strip pages changed =>
      cases reverse <;> exact (childrenAlong_tab ⟨strip, pages, changed⟩ (by simp)).symm

theorem mem_childrenAlong {view child : View K} {branches : List Branch}
    (h : child ∈ view.childrenAlong branches) :
    ∃ branch ∈ branches, view.branch? branch = some child := by
  induction branches with
  | nil => cases h
  | cons branch rest ih =>
      rw [childrenAlong] at h
      cases hfirst : view.branch? branch with
      | none => simp [hfirst] at h
      | some first =>
          simp only [hfirst, List.mem_cons] at h
          rcases h with rfl | h
          · exact ⟨branch, List.mem_cons_self, hfirst⟩
          · obtain ⟨other, hm, hother⟩ := ih h
            exact ⟨other, List.mem_cons_of_mem _ hm, hother⟩

theorem exists_branch?_of_mem_children {view child : View K} {reverse : Bool}
    (h : child ∈ view.children reverse) : ∃ branch, view.branch? branch = some child := by
  rw [children_eq] at h
  obtain ⟨branch, -, hbranch⟩ := mem_childrenAlong h
  exact ⟨branch, hbranch⟩

theorem children_of_leaf {view : View K} (h : view.isContainer = false) (reverse : Bool) :
    view.children reverse = [] := by
  cases view <;> first | rfl | cases h

theorem nodup_branches (view : View K) (reverse : Bool) : (view.branches reverse).Nodup := by
  have hindices : ∀ count,
      (if reverse then (List.range count).reverse else List.range count).Nodup := by
    intro count
    cases reverse <;> simp [List.nodup_range]
  cases view with
  | panel | plain | probe | item => exact .nil
  | group core widget children =>
      exact (hindices children.length).map fun _ _ h => Branch.child.inj h
  | tab strip pages changed =>
      refine List.nodup_flatMap.mpr ⟨fun index _ => by simp, ?_⟩
      refine (hindices strip.items.length).imp fun {index index'} hne => ?_
      simp [Function.onFun, Ne.symm hne]

theorem mem_branches_true_iff {view : View K} {branch : Branch} :
    branch ∈ view.branches true ↔ branch ∈ view.branches false := by
  cases view <;> simp [branches]

/-! ## Levels -/

theorem depths_le_iff {views : List (View K)} {bound : Nat} :
    depths views ≤ bound ↔ ∀ view ∈ views, view.depth ≤ bound := by
  induction views with
  | nil => simp [depths]
  | cons view rest ih => rw [depths, Nat.max_le, ih, List.forall_mem_cons]

theorem depth_pos (view : View K) : 0 < view.depth := by
  cases view <;> simp [depth]

/-- Items have no page of their own, and what has nothing below it needs no level. -/
theorem depth_lt_of_branch? {view child : View K} {branch : Branch}
    (hchild : view.branch? branch = some child) (hcontainer : child.isContainer) :
    child.depth < view.depth := by
  have hlist : ∀ views : List (View K), child ∈ views → child.depth < depths views + 1 :=
    fun views hm => Nat.lt_succ_of_le (depths_le_iff.mp (Nat.le_refl _) child hm)
  cases branch with
  | child index =>
      cases view with
      | group _ _ children => exact hlist children (List.mem_of_getElem? hchild)
      | tab _ pages _ => exact hlist pages (List.mem_of_getElem? hchild)
      | _ => cases hchild
  | item index =>
      cases view with
      | tab strip _ _ =>
          obtain ⟨entry, -, rfl⟩ := Option.map_eq_some_iff.mp hchild
          cases hcontainer
      | _ => cases hchild

end WidgetToolkit.View
