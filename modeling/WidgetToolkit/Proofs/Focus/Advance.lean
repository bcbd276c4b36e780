import Mathlib.Data.List.TakeWhile
import WidgetToolkit.Proofs.Focus.Search

/-! # Moving the focus on

The focus goes to the next view in line that can have it. The line is that of the views that are shown,
and it begins again behind its end. -/

namespace WidgetToolkit

variable {K : Type}

/-! ## One list, gone through once or twice -/

namespace Search

variable {cores : List (ViewCore K)} {focused : Option ViewId}

/-- Once a view is wanted, the first one that can have the focus takes it. -/
theorem scan_ready (h : ∀ core ∈ cores, focused ≠ some core.id) :
    scan ⟨focused, true⟩ cores =
      match cores.find? (·.focusable) with
      | some core => ⟨true, ⟨some core.id, true⟩, [(core.id, true)]⟩
      | none => ⟨false, ⟨focused, true⟩, []⟩ := by
  induction cores with
  | nil => rfl
  | cons core rest ih =>
      obtain ⟨hcore, hrest⟩ := List.forall_mem_cons.mp h
      rw [scan, if_neg hcore, ih hrest, List.find?_cons]
      cases core.focusable <;> rfl

/-- Until the focused view is met, nothing happens. -/
theorem scan_append_of_not_mem {front : List (ViewCore K)}
    (h : ∀ core ∈ front, focused ≠ some core.id) (behind : List (ViewCore K)) :
    scan ⟨focused, false⟩ (front ++ behind) = scan ⟨focused, false⟩ behind := by
  induction front with
  | nil => rfl
  | cons core rest ih =>
      obtain ⟨hcore, hrest⟩ := List.forall_mem_cons.mp h
      rw [List.cons_append, scan, if_neg hcore, Bool.false_and, if_neg Bool.false_ne_true, ih hrest]

theorem scan_not_mem (h : ∀ core ∈ cores, focused ≠ some core.id) :
    scan ⟨focused, false⟩ cores = ⟨false, ⟨focused, false⟩, []⟩ := by
  rw [← List.append_nil cores, scan_append_of_not_mem h, scan]

/-- Only identities matter, and which views can have the focus. -/
theorem scan_map {f : ViewCore K → ViewCore K} (hid : ∀ core, (f core).id = core.id)
    (hfocusable : ∀ core, (f core).focusable = core.focusable) (search : Search)
    (cores : List (ViewCore K)) : search.scan (cores.map f) = search.scan cores := by
  induction cores generalizing search with
  | nil => rfl
  | cons core rest ih => simp only [List.map_cons, scan, hid, hfocusable, ih]

end Search

namespace Focus

/-- What is behind the focused view in a line of views. -/
def behind (focus : Focus) (line : List (ViewCore K)) : List (ViewCore K) :=
  match focus.focused with
  | none => []
  | some id => (line.dropWhile (·.id != id)).tail

/-- The next in line: the first one behind the focused one that can have the focus, or else the first
one of all that can. -/
def successor? (focus : Focus) (line : List (ViewCore K)) : Option (ViewCore K) :=
  ((focus.behind line).find? (·.focusable)).or (line.find? (·.focusable))

theorem behind_sublist (focus : Focus) (line : List (ViewCore K)) :
    (focus.behind line).Sublist line := by
  unfold behind
  split
  · exact List.nil_sublist line
  · exact (List.tail_sublist _).trans (List.dropWhile_sublist _)

/-- There is a next one in line if there is any that can have the focus. -/
theorem successor?_isSome (focus : Focus) (line : List (ViewCore K)) :
    (focus.successor? line).isSome = line.any (·.focusable) := by
  rw [successor?, Option.isSome_or, List.isSome_find?, List.isSome_find?, Bool.or_eq_right_iff_imp]
  intro hbehind
  obtain ⟨core, hm, hcore⟩ := List.any_eq_true.mp hbehind
  exact List.any_eq_true.mpr ⟨core, (focus.behind_sublist line).subset hm, hcore⟩

theorem behind_of_not_mem {focus : Focus} {line : List (ViewCore K)}
    (h : ∀ id, focus.focused = some id → id ∉ line.map (·.id)) : focus.behind line = [] := by
  unfold behind
  split
  · rfl
  · rename_i id hid
    have hdrop : line.dropWhile (·.id != id) = [] := by
      refine List.dropWhile_eq_nil_iff.mpr fun core hm => ?_
      rw [bne_iff_ne]
      rintro rfl
      exact h _ hid (List.mem_map_of_mem hm)
    rw [hdrop, List.tail_nil]

theorem behind_append_cons {front behind : List (ViewCore K)} {core : ViewCore K}
    (hfront : ∀ before ∈ front, before.id ≠ core.id) :
    Focus.behind ⟨some core.id⟩ (front ++ core :: behind) = behind := by
  have hdrop : (front ++ core :: behind).dropWhile (·.id != core.id) = core :: behind := by
    rw [List.dropWhile_append_of_pos (by simpa using hfront), List.dropWhile_cons_of_neg (by simp)]
  simp only [Focus.behind, hdrop, List.tail_cons]

theorem mem_of_successor? (focus : Focus) {line : List (ViewCore K)} {next : ViewCore K}
    (h : focus.successor? line = some next) : next ∈ line ∧ next.focusable := by
  rcases Option.or_eq_some_iff.mp h with hfind | ⟨-, hfind⟩
  · exact ⟨(focus.behind_sublist line).subset (List.mem_of_find?_eq_some hfind),
      List.find?_some hfind⟩
  · exact ⟨List.mem_of_find?_eq_some hfind, List.find?_some hfind⟩

/-- A view that is not in the line is as good as none. -/
theorem successor?_filter (focus : Focus) (line : List (ViewCore K)) :
    Focus.successor? ⟨focus.focused.filter (· ∈ line.map (·.id))⟩ line =
      focus.successor? line := by
  obtain ⟨focused⟩ := focus
  cases focused with
  | none => rfl
  | some id =>
      by_cases hid : id ∈ line.map (·.id)
      · rw [Option.filter_some, if_pos (by simpa using hid)]
      · rw [Option.filter_some, if_neg (by simpa using hid), successor?, successor?,
          behind_of_not_mem (by simp), behind_of_not_mem (by simpa using hid)]

/-- Goes through a line of views, and through it again if the focused one was met and nothing behind it
can have the focus. -/
def goThrough (focus : Focus) (line : List (ViewCore K)) :
    Search.Outcome (List (ViewId × Bool)) :=
  let first := Search.scan ⟨focus.focused, focus.focused.isNone⟩ line
  if !first.found && first.search.ready && first.search.focused.isSome then
    let second := Search.scan ⟨none, true⟩ line
    { second with visited := first.visited ++ second.visited }
  else first

/-- The flags that are set and cleared when the focus goes from one view to another. -/
def handOver (old new : Option ViewId) : List (ViewId × Bool) :=
  old.toList.map (·, false) ++ new.toList.map (·, true)

theorem goThrough_eq (focus : Focus) {line : List (ViewCore K)}
    (hdistinct : (line.map (·.id)).Nodup)
    (hfocus : ∀ id, focus.focused = some id → id ∈ line.map (·.id)) :
    let next := (focus.successor? line).map (·.id)
    (focus.goThrough line).found = next.isSome ∧ (focus.goThrough line).search.focused = next ∧
      (focus.goThrough line).visited = handOver focus.focused next := by
  obtain ⟨focused⟩ := focus
  cases focused with
  | none =>
      have hfirst : Search.scan ⟨none, true⟩ line = _ :=
        Search.scan_ready fun _ _ => (Option.some_ne_none _).symm
      simp only [goThrough, Option.isNone_none, hfirst, successor?, behind, List.find?_nil,
        Option.none_or]
      cases line.find? (·.focusable) <;> simp [handOver]
  | some id =>
      obtain ⟨core, hm, rfl⟩ := List.mem_map.mp (hfocus id rfl)
      obtain ⟨front, behind, rfl⟩ := List.append_of_mem hm
      rw [List.map_append, List.map_cons, List.nodup_append, List.nodup_cons] at hdistinct
      obtain ⟨-, ⟨hbehind, -⟩, hfront⟩ := hdistinct
      have hfront : ∀ before ∈ front, before.id ≠ core.id := fun before hm =>
        hfront _ (List.mem_map_of_mem hm) _ List.mem_cons_self
      have hbehind : ∀ after ∈ behind, some core.id ≠ some after.id := fun after hm heq =>
        hbehind (Option.some.inj heq ▸ List.mem_map_of_mem hm)
      have hfirst : Search.scan ⟨some core.id, false⟩ (front ++ core :: behind) =
          let outcome := Search.scan ⟨some core.id, true⟩ behind
          { outcome with visited := (core.id, false) :: outcome.visited } := by
        rw [Search.scan_append_of_not_mem (by simpa using fun a hm => (hfront a hm).symm),
          Search.scan, if_pos rfl]
      have hsecond : Search.scan ⟨none, true⟩ (front ++ core :: behind) = _ :=
        Search.scan_ready fun _ _ => (Option.some_ne_none _).symm
      simp only [goThrough, Option.isNone_some, hfirst, Search.scan_ready hbehind, hsecond,
        successor?, behind_append_cons hfront]
      cases behind.find? (·.focusable) with
      | some next => simp [handOver]
      | none =>
          cases (front ++ core :: behind).find? (·.focusable) <;> simp [handOver]

end Focus

/-! ## The tree -/

/-- The views that are shown, in order or in reverse order, as far as the focus is concerned. -/
def View.line (root : View K) (reverse : Bool) : List (ViewCore K) :=
  (root.shown reverse).map (·.core)

theorem View.nodup_line {root : View K} (h : root.Regular) (reverse : Bool) :
    ((root.line reverse).map (·.id)).Nodup := by
  rw [line, List.map_map]
  exact h.nodup_shownWithin root.depth reverse

/-- What a view shows is the view itself and what is in the line. -/
theorem View.shows_eq_true_iff {root : View K} (hregular : root.Regular) (reverse : Bool)
    (id : ViewId) :
    root.shows id = true ↔
      root.core.visible ∧ (root.id = id ∨ id ∈ (root.line reverse).map (·.id)) := by
  have hsame : ∀ view, view ∈ root.shown reverse ↔ view ∈ root.shown false := by
    cases reverse with
    | false => exact fun _ => Iff.rfl
    | true => exact fun _ => hregular.mem_shownWithin_true_iff
  simp [shows, line, hsame, View.id]

namespace Focus

/-- The focus is kept if it is in the line. -/
theorem forgetHidden_eq {root : View K} {focus : Focus} (hvisible : root.core.visible)
    (hregular : root.Regular) (hfocus : focus.focused ≠ some root.id) (reverse : Bool) :
    focus.forgetHidden root = ⟨focus.focused.filter (· ∈ (root.line reverse).map (·.id))⟩ := by
  obtain ⟨focused⟩ := focus
  cases focused with
  | none => rfl
  | some id =>
      have hroot : root.id ≠ id := fun heq => hfocus (heq ▸ rfl)
      have hshows := View.shows_eq_true_iff hregular reverse id
      simp only [hvisible, hroot, false_or, true_and] at hshows
      simp only [forgetHidden, Option.all_some, hshows, Option.filter_some, decide_eq_true_eq]
      split <;> rfl

end Focus

variable [Coord K]

theorem ViewCore.setFlags_toList_focused (id : Option ViewId) (focused : Bool)
    (core : ViewCore K) :
    (core.setFlags (id.toList.map (·, focused))).focused =
      if id = some core.id then focused else core.focused := by
  cases id with
  | none => rfl
  | some id =>
      simp only [Option.toList_some, List.map_cons, List.map_nil, setFlags, List.foldl_cons,
        List.foldl_nil, Option.some.injEq, eq_comm (a := id)]
      split <;> simp

/-- What the flag of a view is after the focus has gone from one view to another. -/
theorem ViewCore.setFlags_handOver_focused (old new : Option ViewId) (core : ViewCore K) :
    (core.setFlags (Focus.handOver old new)).focused =
      if new = some core.id then true
      else if old = some core.id then false
      else core.focused := by
  rw [Focus.handOver, setFlags_append, Function.comp_apply, setFlags_toList_focused, setFlags_id,
    setFlags_toList_focused]

/-- A search goes through the views that are shown, whatever flags have been set before. -/
theorem View.Regular.searchWithin_setFlags {root : View K} (h : root.Regular)
    (flags : List (ViewId × Bool)) (reverse : Bool) (search : Search) :
    (root.mapCores (ViewCore.setFlags flags)).searchWithin root.depth reverse search =
      let outcome := search.scan (root.line reverse)
      ⟨outcome.found, outcome.search,
        root.mapCores (ViewCore.setFlags (flags ++ outcome.visited))⟩ := by
  have hscan : search.scan (((root.mapCores (ViewCore.setFlags flags)).shownWithin root.depth
        reverse).map (·.core)) = search.scan (root.line reverse) := by
    rw [shownWithin_mapCores root (ViewCore.setFlags_visible flags), List.map_map]
    rw [← Search.scan_map (ViewCore.setFlags_id flags) (ViewCore.setFlags_focusable flags) search
      (root.line reverse), line, List.map_map]
    refine congrArg _ (List.map_congr_left fun view _ => ?_)
    exact view.core_mapCores _
  have hthrough := (h.mapCores (ViewCore.setFlags_id flags)).through_searchWithin root.depth reverse
    search
  rw [hscan] at hthrough
  rw [hthrough, mapCores_mapCores, ← ViewCore.setFlags_append]

namespace Focus

variable {root : View K} {focus : Focus}

/-- In a regular tree the line is that of the views that are shown. -/
theorem advance_eq_goThrough (hcontainer : root.isContainer) (hregular : root.Regular)
    (reverse : Bool) :
    focus.advance root reverse =
      let outcome := (focus.forgetHidden root).goThrough (root.line reverse)
      (outcome.found, ⟨outcome.search.focused⟩,
        root.mapCores (ViewCore.setFlags outcome.visited)) := by
  rcases hkept : focus.forgetHidden root with ⟨focused⟩
  have hfirst := hregular.searchWithin_setFlags [] reverse ⟨focused, focused.isNone⟩
  rw [View.mapCores_eq_self fun _ _ _ => rfl] at hfirst
  simp only [advance, hkept, hcontainer, Bool.not_true, Bool.false_eq_true, if_false, goThrough,
    hfirst, List.nil_append]
  split
  · simp only [hregular.searchWithin_setFlags]
  · rfl

/-- From a view in the line, or from none, the focus goes to the next one in line. -/
theorem advance_eq_handOver (hcontainer : root.isContainer) (hregular : root.Regular)
    (reverse : Bool)
    (hline : ∀ id, (focus.forgetHidden root).focused = some id →
      id ∈ (root.line reverse).map (·.id)) :
    focus.advance root reverse =
      let kept := focus.forgetHidden root
      let next := (kept.successor? (root.line reverse)).map (·.id)
      (next.isSome, ⟨next⟩, root.mapCores (ViewCore.setFlags (handOver kept.focused next))) := by
  obtain ⟨hfound, hnext, hvisited⟩ := goThrough_eq _ (View.nodup_line hregular reverse) hline
  rw [advance_eq_goThrough hcontainer hregular reverse]
  refine Prod.ext hfound (Prod.ext (congrArg Focus.mk hnext) ?_)
  exact congrArg (fun flags => root.mapCores (ViewCore.setFlags flags)) hvisited

/-- From a view that is not in the line, the focus goes nowhere. -/
theorem advance_of_not_mem (hcontainer : root.isContainer) (hregular : root.Regular)
    (reverse : Bool) {id : ViewId} (hkept : focus.forgetHidden root = ⟨some id⟩)
    (hline : id ∉ (root.line reverse).map (·.id)) :
    focus.advance root reverse = (false, ⟨some id⟩, root) := by
  have hnone : ∀ core ∈ root.line reverse, some id ≠ some core.id :=
    fun core hm heq => hline (Option.some.inj heq ▸ List.mem_map_of_mem hm)
  rw [advance_eq_goThrough hcontainer hregular reverse, hkept]
  simp only [goThrough, Option.isNone_some, Search.scan_not_mem hnone]
  rw [View.mapCores_eq_self fun _ _ _ => rfl]
  rfl

/-- Moving the focus on hands it over from the view that has kept it, or changes nothing more. -/
theorem advance_cases (focus : Focus) (hregular : root.Regular) (reverse : Bool) :
    let kept := focus.forgetHidden root
    (focus.advance root reverse).2 = (kept, root) ∨
      ∃ next : Option ViewId, (∀ id, next = some id → id ∈ (root.line reverse).map (·.id)) ∧
        (focus.advance root reverse).2 =
          (⟨next⟩, root.mapCores (ViewCore.setFlags (handOver kept.focused next))) := by
  intro kept
  cases hcontainer : root.isContainer with
  | false =>
      left
      simp [advance, hcontainer, kept]
  | true =>
      by_cases hline : ∀ id, kept.focused = some id → id ∈ (root.line reverse).map (·.id)
      · right
        refine ⟨(kept.successor? (root.line reverse)).map (·.id), fun id hid => ?_, ?_⟩
        · obtain ⟨next, hnext, rfl⟩ := Option.map_eq_some_iff.mp hid
          exact List.mem_map_of_mem (kept.mem_of_successor? hnext).1
        · exact congrArg Prod.snd (advance_eq_handOver hcontainer hregular reverse hline)
      · left
        push Not at hline
        obtain ⟨id, hid, hline⟩ := hline
        have hkept : focus.forgetHidden root = ⟨some id⟩ := congrArg Focus.mk hid
        rw [advance_of_not_mem hcontainer hregular reverse hkept hline, ← hkept]

/-- The focus moves to the next view in line that can have it, around the end of the line if need be.
The flags follow it. -/
theorem advance_to_successor (hcontainer : root.isContainer) (hvisible : root.core.visible)
    (hregular : root.Regular) (hfocus : focus.focused ≠ some root.id) (reverse : Bool) :
    let line := root.line reverse
    ∃ moved focus' root', focus.advance root reverse = (moved, focus', root') ∧
      ((∀ core ∈ line, core.focusable = false) → moved = false ∧ focus'.focused = none) ∧
      ((∃ core ∈ line, core.focusable = true) → moved = true ∧
        ∃ next ∈ line, focus.successor? line = some next ∧ focus'.focused = some next.id) ∧
      ∀ path, (root'.at? path).map (fun view => (view.id, view.core.focused)) =
        (root.at? path).map fun view => (view.id,
          if focus'.focused = some view.id then true
          else if focus.focused = some view.id ∧ view.id ∈ line.map (·.id) then false
          else view.core.focused) := by
  intro line
  have hkept : focus.forgetHidden root = ⟨focus.focused.filter (· ∈ line.map (·.id))⟩ :=
    forgetHidden_eq hvisible hregular hfocus reverse
  have hline : ∀ id, (focus.forgetHidden root).focused = some id → id ∈ line.map (·.id) := by
    intro id hid
    rw [hkept] at hid
    simpa using (Option.filter_eq_some_iff.mp hid).2
  have hadvance := advance_eq_handOver hcontainer hregular reverse hline
  simp only [hkept, line, successor?_filter] at hadvance
  have hsome := focus.successor?_isSome line
  refine ⟨_, _, _, hadvance, fun hnone => ?_, fun ⟨core, hm, hcore⟩ => ?_, fun path => ?_⟩
  · have hany : line.any (·.focusable) = false := by simpa using hnone
    rw [hany, Option.isSome_eq_false_iff, Option.isNone_iff_eq_none] at hsome
    simp [line, hsome]
  · rw [List.any_eq_true.mpr ⟨core, hm, hcore⟩, Option.isSome_iff_exists] at hsome
    obtain ⟨next, hnext⟩ := hsome
    rw [hnext]
    exact ⟨rfl, next, (focus.mem_of_successor? hnext).1, rfl, rfl⟩
  · rw [View.at?_mapCores, Option.map_map]
    refine congrArg (Option.map · _) (funext fun view => ?_)
    simp only [Function.comp_apply, View.id, View.core_mapCores, ViewCore.setFlags_id,
      ViewCore.setFlags_handOver_focused, Option.filter_eq_some_iff, decide_eq_true_eq]
    rfl

/-- From the last field of a form to the first one, past a field in a hidden part. -/
theorem advance_to_successor_around :
    let field (number : Nat) : View Rat :=
      .plain { ViewCore.new (.view number) with focusable := true } ⟨"crate", "Field"⟩
    let hidden : View Rat :=
      .group { ViewCore.new (.view 2) with visible := false } ⟨"crate", "Form"⟩ [field 3]
    let root : View Rat :=
      .group (.new (.view 0)) ⟨"crate", "Form"⟩ [field 1, hidden, field 4]
    root.Regular ∧ ∃ focus' root',
      Focus.advance ⟨some (.view 4)⟩ root false = (true, focus', root') ∧
        focus'.focused = some (.view 1) ∧ (root'.at? [.child 0]).map (·.core.focused) = some true := by
  intro field hidden root
  have hregular : root.Regular := by decide
  have hfocus : (Focus.mk (some (.view 4))).focused ≠ some root.id := by decide
  have hline : root.line false = [(field 1).core, (field 4).core] := rfl
  obtain ⟨moved, focus', root', hadvance, -, hmoved, hflags⟩ :=
    advance_to_successor rfl rfl hregular hfocus false
  rw [hline] at hmoved
  obtain ⟨rfl, next, -, hnext, hfocus'⟩ := hmoved ⟨(field 1).core, List.mem_cons_self, rfl⟩
  obtain rfl : (field 1).core = next := Option.some.inj hnext
  refine ⟨hregular, focus', root', hadvance, hfocus', ?_⟩
  have hflag := congrArg (Option.map Prod.snd) (hflags [.child 0])
  rw [hfocus', Option.map_map] at hflag
  exact hflag

end Focus

end WidgetToolkit
