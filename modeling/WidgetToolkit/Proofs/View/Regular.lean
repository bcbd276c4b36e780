import WidgetToolkit.Proofs.View.Branches
import WidgetToolkit.Proofs.View.Selection

/-! # Regular trees

In a regular tree views are told apart by their identities, and nothing is missing. -/

namespace WidgetToolkit.View

variable {K : Type}

/-- No two views have the same identity, and behind every item there is its page. -/
structure Regular (root : View K) : Prop where
  distinct : ∀ path path' view view', root.at? path = some view → root.at? path' = some view' →
    view.id = view'.id → path = path'
  paired : ∀ path index, (root.at? (path ++ [.item index])).isSome →
    (root.at? (path ++ [.child index])).isSome

/-- Whether a tree is regular is told by the identities at its addresses. -/
theorem Regular.congr {root root' : View K} (h : root.Regular)
    (hsame : ∀ path, (root'.at? path).map (·.id) = (root.at? path).map (·.id)) :
    root'.Regular := by
  have hsome : ∀ path, (root'.at? path).isSome = (root.at? path).isSome := fun path => by
    simpa using congrArg Option.isSome (hsame path)
  have hbefore : ∀ path view', root'.at? path = some view' →
      ∃ view, root.at? path = some view ∧ view.id = view'.id := fun path view' hview' => by
    simpa [hview', eq_comm] using hsame path
  constructor
  · intro path path' view view' hview hview' hid
    obtain ⟨before, hat, hbefore_id⟩ := hbefore path view hview
    obtain ⟨before', hat', hbefore_id'⟩ := hbefore path' view' hview'
    exact h.distinct _ _ _ _ hat hat' (by rw [hbefore_id, hbefore_id', hid])
  · intro path index
    rw [hsome, hsome]
    exact h.paired path index

/-- Where the selections of all tabs are in order, no page is missing. -/
theorem Coherent.regular {root : View K} (h : root.Coherent)
    (hdistinct : ∀ path path' view view', root.at? path = some view →
      root.at? path' = some view' → view.id = view'.id → path = path') : root.Regular := by
  refine ⟨hdistinct, fun path index hitem => ?_⟩
  rw [at?_append, Option.isSome_bind, Option.any_eq_true] at hitem ⊢
  obtain ⟨view, hview, hitem⟩ := hitem
  refine ⟨view, hview, ?_⟩
  simp only [at?, Option.bind_fun_some] at hitem ⊢
  cases view with
  | tab strip pages changed =>
      have hlength : strip.items.length = pages.length :=
        (h path ⟨strip, pages, changed⟩ hview).length_eq
      simpa [branch?, hlength] using hitem
  | _ => cases hitem

theorem Regular.branch {root child : View K} (h : root.Regular) {branch : Branch}
    (hchild : root.branch? branch = some child) : child.Regular := by
  constructor
  · intro path path' view view' hview hview' hid
    rw [← at?_cons_of_branch? hchild] at hview hview'
    exact (List.cons.inj (h.distinct _ _ _ _ hview hview' hid)).2
  · intro path index hitem
    rw [← at?_cons_of_branch? hchild] at hitem ⊢
    exact h.paired (branch :: path) index hitem

/-- The views right below another are told apart. -/
theorem Regular.branch_eq {view child child' : View K} (h : view.Regular) {branch branch' : Branch}
    (hchild : view.branch? branch = some child) (hchild' : view.branch? branch' = some child')
    (hid : child.id = child'.id) : branch = branch' := by
  have hat : view.at? [branch] = some child := by simp [at?, hchild]
  have hat' : view.at? [branch'] = some child' := by simp [at?, hchild']
  exact (List.cons.inj (h.distinct _ _ _ _ hat hat' hid)).1

/-- Nothing below a view has the identity of the view. -/
theorem Regular.id_ne {root below : View K} (h : root.Regular) {branch : Branch}
    {path : List Branch} (hbelow : root.at? (branch :: path) = some below) : below.id ≠ root.id := by
  intro hid
  cases h.distinct _ _ _ _ hbelow (show root.at? [] = some root from rfl) hid

/-- Nothing is missing in a regular tree. -/
theorem Regular.branch?_isSome {view : View K} (h : view.Regular) {branch : Branch} {reverse : Bool}
    (hm : branch ∈ view.branches reverse) : (view.branch? branch).isSome := by
  have hindices : ∀ count index,
      index ∈ (if reverse then (List.range count).reverse else List.range count) → index < count := by
    intro count index
    cases reverse <;> simp
  cases view with
  | panel | plain | probe | item => cases hm
  | group core widget children =>
      obtain ⟨index, hindex, rfl⟩ := List.mem_map.mp hm
      simpa [branch?] using hindices _ _ hindex
  | tab strip pages changed =>
      obtain ⟨index, hindex, hm⟩ := List.mem_flatMap.mp hm
      have hitem : ((View.tab strip pages changed).branch? (.item index)).isSome := by
        simpa [branch?] using hindices _ _ hindex
      rcases List.mem_pair.mp hm with rfl | rfl
      · exact hitem
      · have hpage := h.paired [] index
        simp only [List.nil_append, at?, Option.bind_fun_some] at hpage
        exact hpage hitem

theorem mem_childrenAlong_iff {view child : View K} {branches : List Branch}
    (hall : ∀ branch ∈ branches, (view.branch? branch).isSome) :
    child ∈ view.childrenAlong branches ↔ ∃ branch ∈ branches, view.branch? branch = some child := by
  refine ⟨mem_childrenAlong, ?_⟩
  induction branches with
  | nil => simp
  | cons branch rest ih =>
      obtain ⟨first, hfirst⟩ := Option.isSome_iff_exists.mp (hall branch List.mem_cons_self)
      have hrest := ih fun other hm => hall other (List.mem_cons_of_mem _ hm)
      rintro ⟨other, hm, hother⟩
      simp only [childrenAlong, hfirst, List.mem_cons]
      rcases List.mem_cons.mp hm with rfl | hm
      · exact .inl (Option.some.inj (hother.symm.trans hfirst))
      · exact .inr (hrest ⟨other, hm, hother⟩)

/-- In a regular tree the children are the same in both orders. -/
theorem Regular.mem_children_true_iff {view child : View K} (h : view.Regular) :
    child ∈ view.children true ↔ child ∈ view.children false := by
  rw [children_eq, children_eq, mem_childrenAlong_iff fun _ => h.branch?_isSome,
    mem_childrenAlong_iff fun _ => h.branch?_isSome]
  simp only [mem_branches_true_iff]

/-! ## Telling whether a tree is regular -/

/-- The branches that something is on. -/
def occupied : View K → List Branch
  | .group _ _ children => (List.range children.length).map .child
  | .tab strip pages _ =>
    (List.range strip.items.length).map .item ++ (List.range pages.length).map .child
  | _ => []

theorem mem_occupied_iff {view : View K} {branch : Branch} :
    branch ∈ view.occupied ↔ (view.branch? branch).isSome := by
  cases view <;> cases branch <;> simp [occupied, branch?]

/-- The addresses in a tree, up to a length. -/
def addressesWithin : Nat → View K → List (List Branch)
  | 0, _ => [[]]
  | length + 1, view =>
    [] :: view.occupied.flatMap fun branch =>
      (((view.branch? branch).map (addressesWithin length)).getD []).map (branch :: ·)

/-- The addresses in a tree. -/
def addresses (view : View K) : List (List Branch) := view.addressesWithin view.depth

theorem mem_addressesWithin_iff {view : View K} {path : List Branch} {length : Nat} :
    path ∈ view.addressesWithin length ↔ (view.at? path).isSome ∧ path.length ≤ length := by
  induction path generalizing view length with
  | nil => cases length <;> simp [addressesWithin, at?]
  | cons branch path ih =>
      cases length with
      | zero => simp [addressesWithin]
      | succ length =>
          cases hchild : view.branch? branch with
          | none => simp [addressesWithin, at?, hchild, mem_occupied_iff]
          | some child => simp [addressesWithin, at?, hchild, mem_occupied_iff, ih]

theorem length_le_depth {view : View K} {path : List Branch} (hat : (view.at? path).isSome) :
    path.length ≤ view.depth := by
  induction path generalizing view with
  | nil => exact Nat.zero_le _
  | cons branch path ih =>
      cases hchild : view.branch? branch with
      | none => simp [at?, hchild] at hat
      | some child =>
          rw [at?_cons_of_branch? hchild] at hat
          rw [List.length_cons]
          cases hcontainer : child.isContainer with
          | true =>
              have hdepth := depth_lt_of_branch? hchild hcontainer
              have hbelow := ih hat
              omega
          | false =>
              have hnil : path = [] := by
                cases path with
                | nil => rfl
                | cons branch' path => simp [at?, branch?_of_leaf hcontainer] at hat
              rw [hnil]
              exact view.depth_pos

theorem mem_addresses_iff {view : View K} {path : List Branch} :
    path ∈ view.addresses ↔ (view.at? path).isSome := by
  rw [addresses, mem_addressesWithin_iff]
  exact and_iff_left_of_imp length_le_depth

/-- What holds of all views of a tree can be looked up at its addresses. -/
theorem forall_at?_iff {root : View K} {p : View K → Prop} :
    (∀ path view, root.at? path = some view → p view) ↔
      ∀ path ∈ root.addresses, ∀ view ∈ root.at? path, p view :=
  ⟨fun h path _ => h path,
    fun h path view hat => h path (mem_addresses_iff.mpr (by simp [hat])) view hat⟩

/-- The address of the page that belongs to the item at an address. -/
def pageBeside? (path : List Branch) : Option (List Branch) :=
  match path.getLast? with
  | some (.item index) => some (path.dropLast ++ [.child index])
  | _ => none

theorem pageBeside?_eq_some_iff {path page : List Branch} :
    pageBeside? path = some page ↔
      ∃ front index, path = front ++ [.item index] ∧ page = front ++ [.child index] := by
  constructor
  · intro h
    unfold pageBeside? at h
    split at h
    · rename_i index hlast
      exact ⟨path.dropLast, index, (List.dropLast_append_getLast? _ hlast).symm,
        (Option.some.inj h).symm⟩
    · cases h
  · rintro ⟨front, index, rfl, rfl⟩
    simp [pageBeside?]

theorem regular_iff {root : View K} :
    root.Regular ↔
      (∀ path ∈ root.addresses, ∀ path' ∈ root.addresses,
        (root.at? path).map (·.id) = (root.at? path').map (·.id) → path = path') ∧
      ∀ path ∈ root.addresses, ∀ page ∈ pageBeside? path, page ∈ root.addresses := by
  simp only [mem_addresses_iff]
  constructor
  · intro h
    refine ⟨fun path hpath path' hpath' hid => ?_, fun path hpath page hpage => ?_⟩
    · obtain ⟨view, hview⟩ := Option.isSome_iff_exists.mp hpath
      obtain ⟨view', hview'⟩ := Option.isSome_iff_exists.mp hpath'
      refine h.distinct path path' view view' hview hview' ?_
      simpa [hview, hview'] using hid
    · obtain ⟨front, index, rfl, rfl⟩ := pageBeside?_eq_some_iff.mp hpage
      exact h.paired front index hpath
  · rintro ⟨hdistinct, hpaired⟩
    constructor
    · intro path path' view view' hview hview' hid
      exact hdistinct path (by simp [hview]) path' (by simp [hview']) (by simp [hview, hview', hid])
    · intro path index hitem
      exact hpaired _ hitem _ (pageBeside?_eq_some_iff.mpr ⟨path, index, rfl, rfl⟩)

instance (root : View K) : Decidable root.Regular := decidable_of_iff' _ regular_iff

/-- So can what holds of all tabs. -/
theorem everyTab_iff {root : View K} {p : Tab K → Prop} :
    root.EveryTab p ↔ ∀ path ∈ root.addresses, ∀ view ∈ root.at? path, ∀ tab ∈ view.tab?, p tab := by
  rw [← forall_at?_iff (p := fun view => ∀ tab ∈ view.tab?, p tab)]
  constructor
  · intro h path view hat tab htab
    exact h path tab (hat.trans (congrArg some (eq_toView_of_tab? htab)))
  · exact fun h path tab hat => h path _ hat tab rfl

instance (root : View K) (p : Tab K → Prop) [DecidablePred p] : Decidable (root.EveryTab p) :=
  decidable_of_iff' _ everyTab_iff

end WidgetToolkit.View
