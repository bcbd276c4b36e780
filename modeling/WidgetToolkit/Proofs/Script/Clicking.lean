import Mathlib.Logic.Function.Iterate
import WidgetToolkit.Proofs.Script.Marks
import WidgetToolkit.Proofs.Script.Performed

/-! # No click is lost or doubled

Slots may click the items whose slots they are. A checkbox is toggled by every click that gets past
the checks, at whatever depth, and slots see it toggled. -/

namespace WidgetToolkit

namespace Desk.SlotFree

variable {p : Desk Slot → Prop} {run run' : Run}

/-- A step that performs no action does nothing to such a property. -/
theorem next_of_due?_eq_none (h : SlotFree p) (hnext : run.next? = some run')
    (hdue : run.due? = none) (hp : p run.session.desk) : p run'.session.desk := by
  refine h.next hnext hp fun tag action acts below hstack => ?_
  rw [Run.due?_eq_some_iff.mpr ⟨tag, acts, below, hstack⟩] at hdue
  cases hdue

theorem keepsKinds (desk : Desk Slot) : SlotFree desk.KeepsKinds :=
  fun desk' id _ h => h.trans (keepsKinds_modifyItem desk' id fun _ => rfl)

theorem isChecked (item : ItemId) (on : Bool) : SlotFree (·.isChecked item = on) := by
  intro desk id signal h
  rw [isChecked_setClicked]
  exact h

end Desk.SlotFree

/-! ## The flag of a checkbox -/

namespace Run

variable {outset run run' after : Run} {action : Action} {base : List Frame} {item : ItemId}
  {performed : List (Session × Action)}

/-- The number of clicks on an item that get past the checks. -/
def clicksOn (item : ItemId) (performed : List (Session × Action)) : Nat :=
  performed.countP fun call => call.1.Hits item call.2

theorem clicksOn_append (performed further : List (Session × Action)) :
    clicksOn item (performed ++ further) = clicksOn item performed + clicksOn item further :=
  List.countP_append

theorem clicksOn_singleton (session : Session) (action : Action) :
    clicksOn item [(session, action)] = (decide (session.Hits item action)).toNat := by
  cases hhits : decide (session.Hits item action) <;> simp_all [clicksOn]

theorem iterate_not_toNat (hit on : Bool) : not^[hit.toNat] on = (on ^^ hit) := by
  cases hit <;> simp

theorem Performs.keepsKinds (h : outset.Performs run performed) :
    outset.session.desk.KeepsKinds run.session.desk := by
  have hfree := Desk.SlotFree.keepsKinds outset.session.desk
  induction h with
  | here => exact .refl outset.session.desk
  | @enter run _ _ _ action ih =>
      exact hfree.start (ih.trans (run.session.keepsKinds_perform action))
  | @next run _ _ _ hnext ih =>
      refine hfree.next hnext ih fun _ action _ _ _ => ?_
      exact ih.trans (run.session.keepsKinds_perform action)
  | revise _ _ _ ih => exact ih

theorem Asks.isChecked (h : run.Asks action base after)
    (hbox : run.session.desk.isCheckbox item = true) (hspares : run.session.Spares item action) :
    after.session.desk.isChecked item =
      not^[clicksOn item [(run.session, action)]] (run.session.desk.isChecked item) := by
  rw [clicksOn_singleton, iterate_not_toNat, h.session_eq]
  exact (Desk.SlotFree.isChecked item _).start (Session.isChecked_perform hbox hspares)

/-- One step toggles the checkbox if it performs a click that gets past the checks. -/
theorem isChecked_next (hnext : run.next? = some run')
    (hbox : run.session.desk.isCheckbox item = true)
    (hspares : ∀ action, run.due? = some action → run.session.Spares item action) :
    run'.session.desk.isChecked item =
      not^[clicksOn item (run.due?.toList.map (run.session, ·))]
        (run.session.desk.isChecked item) := by
  cases hdue : run.due? with
  | none => exact (Desk.SlotFree.isChecked item _).next_of_due?_eq_none hnext hdue rfl
  | some action =>
      obtain ⟨base, hasks⟩ := asks_of_due? hdue hnext
      exact hasks.isChecked hbox (hspares action hdue)

/-- The flag is the one at the outset, flipped once for every click that gets past the checks. -/
theorem Performs.isChecked (h : outset.Performs run performed)
    (hbox : outset.session.desk.isCheckbox item = true)
    (hspares : ∀ call ∈ performed, call.1.Spares item call.2) :
    run.session.desk.isChecked item =
      not^[clicksOn item performed] (outset.session.desk.isChecked item) := by
  induction h with
  | here => rfl
  | @enter run performed h hstack action ih =>
      have hnow := ih fun call hm => hspares call (List.mem_append_left _ hm)
      have hlast := hspares (run.session, action) (List.mem_append_right _ (by simp))
      have hasks : run.Asks action [] (run.enter action) := .outside hstack
      rw [hasks.isChecked (h.keepsKinds.isCheckbox hbox) hlast, hnow, clicksOn_append, Nat.add_comm,
        Function.iterate_add_apply]
  | @next run run' performed h hnext ih =>
      have hnow := ih fun call hm => hspares call (List.mem_append_left _ hm)
      have hlast : ∀ action, run.due? = some action → run.session.Spares item action := by
        intro action hdue
        exact hspares (run.session, action) (List.mem_append_right _ (by simp [hdue]))
      rw [isChecked_next hnext (h.keepsKinds.isCheckbox hbox) hlast, hnow, clicksOn_append,
        Nat.add_comm, Function.iterate_add_apply]
  | revise _ _ _ ih => exact ih hspares

/-! ## What slots see -/

/-- The flag of an item now, which a slot sees that is called next. -/
structure Shows (run : Run) (item : ItemId) (on : Bool) : Prop where
  now : run.session.desk.isChecked item = on
  called : ∀ next ref id slot value desk, run.next? = some next →
    next.events = run.events ++ [.called ref id slot value desk] → desk.isChecked item = on

/-- A slot that is called sees the item as it is. -/
theorem shows_of_isChecked {on : Bool} (hnow : run.session.desk.isChecked item = on) :
    run.Shows item on := by
  refine ⟨hnow, fun next ref id slot value desk hnext hcalled => ?_⟩
  obtain ⟨events, hevents, hshown⟩ := continues_next hnext
  obtain rfl := List.append_cancel_left (hevents.symm.trans hcalled)
  rw [hshown ref id slot value desk (List.mem_singleton_self _)]
  cases hdue : run.due? with
  | none => exact (Desk.SlotFree.isChecked item on).next_of_due?_eq_none hnext hdue hnow
  | some action =>
      -- The first step of an action calls no slot.
      obtain ⟨base, hasks⟩ := asks_of_due? hdue hnext
      obtain ⟨events, hfirst, hnone⟩ := hasks.events
      obtain rfl := List.append_cancel_left (hfirst.symm.trans hcalled)
      exact absurd (List.mem_singleton_self _) (hnone ref id slot value desk)

/-! ## Clicks on a checkbox -/

/-- All there is to say about a click on a checkbox, given its answer. -/
structure Toggles (run : Run) (action : Action) (menu : Option MenuId) (item : ItemId)
    (base : List Frame) (after : Run) (answer : Bool) : Prop where
  answer_eq : (start run.session action).1 = .flag answer
  /-- The answer tells whether the click gets past the checks. -/
  answer_iff : answer = true ↔ run.session.desk.Admits menu item
  /-- A slot that clicks the checkbox has this answer in the end. -/
  did : ∀ permits point tag acts below, base = .body tag acts :: below →
    Stretch permits base after point → point.stack = base →
      ∃ events, point.events = events ++ [.did tag action (.flag answer)]
  /-- A click that does not get through changes nothing and calls no slot. -/
  refused : answer = false → after.stack = base ∧ after.session = run.session ∧
    after.events.filterMap Event.call? = run.events.filterMap Event.call?
  /-- A click that gets through begins to call the slots of the checkbox. -/
  emits : answer = true → ∃ emission frames,
    after.stack = .emission (.click item) 0 emission :: frames ++ base
  /-- Slots that are called since see the checkbox toggled, and toggled again by further clicks. -/
  shown : ∀ point further, after.Performs point further →
    (∀ call ∈ further, call.1.Spares item call.2) →
      point.Shows item (not^[answer.toNat + clicksOn item further]
        (run.session.desk.isChecked item))

/-- The first step of a click leaves its answer, or the emission above what awaits the answer. -/
theorem Asks.emits (h : run.Asks action base after) {ref : SignalRef} {value : Int}
    {answer : Answer} {session : Session}
    (heffect : run.session.perform action = .emission ref value answer session) :
    ∃ emission frames, after.stack = .emission ref value emission :: frames ++ base := by
  cases h with
  | @slot tag acts below =>
      refine ⟨(session.signal ref).begin.1, [.awaiting tag action answer], ?_⟩
      simp only [act, heffect]
      rfl
  | outside =>
      refine ⟨(session.signal ref).begin.1, [], ?_⟩
      simp only [enter, start, heffect]
      rfl

/-- A click on a checkbox, at any point of a run. -/
theorem Asks.toggles {menu : Option MenuId} (h : run.Asks action base after)
    (hbox : run.session.desk.isCheckbox item = true)
    (hclick : run.session.clickOf? action = some (menu, item)) :
    ∃ answer, run.Toggles action menu item base after answer ∧
      clicksOn item [(run.session, action)] = answer.toNat := by
  have hperform := Session.perform_of_clickOf? hclick
  have hadmits : (run.session.desk.click? menu item).isSome ↔ run.session.desk.Admits menu item :=
    Desk.click?_isSome_iff hbox
  have hcount : clicksOn item [(run.session, action)] =
      (run.session.desk.click? menu item).isSome.toNat := by
    have hhits : decide (run.session.Hits item action) =
        (run.session.desk.click? menu item).isSome :=
      Bool.eq_iff_iff.mpr (by simp [Session.hits_iff hclick, hadmits])
    rw [clicksOn_singleton, hhits]
  have hanswer : (start run.session action).1 =
      .flag (run.session.desk.click? menu item).isSome := start_fst_of_clicked hperform
  refine ⟨_, ⟨hanswer, hadmits, ?_, h.refused hperform, ?_, ?_⟩, hcount⟩
  · intro permits point tag acts below hbase hstretch hreturned
    rw [← hanswer]
    exact h.did hbase hstretch hreturned
  · intro hsome
    obtain ⟨desk, hdesk⟩ := Option.isSome_iff_exists.mp hsome
    rw [hdesk] at hperform
    exact h.emits hperform
  · intro point further hfurther hspared
    have hperforms : run.Performs point ((run.session, action) :: further) :=
      h.performs.trans hfurther
    have hspares : ∀ call ∈ (run.session, action) :: further, call.1.Spares item call.2 :=
      List.forall_mem_cons.mpr ⟨Session.spares_of_clickOf? hclick, hspared⟩
    apply shows_of_isChecked
    rw [← hcount, ← clicksOn_append]
    exact hperforms.isChecked hbox hspares

/-- At every point of a run a checkbox shows its flag at the outset, flipped once for every click on
it that got past the checks. A click that comes next tells whether it gets past them, and counts if
it does. -/
theorem clicks_toggle_checkbox (hbox : outset.session.desk.isCheckbox item = true)
    (hperforms : outset.Performs run performed)
    (hspares : ∀ call ∈ performed, call.1.Spares item call.2) :
    run.Shows item (not^[clicksOn item performed] (outset.session.desk.isChecked item)) ∧
      ∀ action menu base after, run.session.clickOf? action = some (menu, item) →
        run.Asks action base after →
          ∃ answer, run.Toggles action menu item base after answer ∧
            outset.Performs after (performed ++ [(run.session, action)]) ∧
            clicksOn item (performed ++ [(run.session, action)]) =
              clicksOn item performed + answer.toNat := by
  refine ⟨shows_of_isChecked (hperforms.isChecked hbox hspares), ?_⟩
  intro action menu base after hclick hasks
  have hnow := hperforms.keepsKinds.isCheckbox hbox
  obtain ⟨answer, htoggles, hcount⟩ := hasks.toggles hnow hclick
  exact ⟨answer, htoggles, hperforms.trans hasks.performs, by rw [clicksOn_append, hcount]⟩

/-- The slot of a checkbox sees it checked and clicks it again, in a menu. This click gets past the
checks too, and a slot that is called next sees the checkbox unchecked. -/
theorem clicks_toggle_checkbox_clicked_by_slot :
    ∃ outset run performed base after, outset.session.desk.isChecked ⟨0⟩ = false ∧
      Performs outset run performed ∧ clicksOn ⟨0⟩ performed = 1 ∧ run.Shows ⟨0⟩ true ∧
      run.Toggles (.activate "format" "bold") (some ⟨0⟩) ⟨0⟩ base after true ∧
      outset.Performs after (performed ++ [(run.session, .activate "format" "bold")]) ∧
      clicksOn ⟨0⟩ (performed ++ [(run.session, .activate "format" "bold")]) = 2 ∧
      after.Shows ⟨0⟩ false := by
  have hcalled : Performs (List.foldl enter ⟨.new 0 none, [], []⟩
      [.makeItem "bold" .checkbox "Bold", .makeMenu "format" false, .append "format" "bold",
        .connect (.click "bold") "again" [.activate "format" "bold"] none])
      _ [(_, .click "bold")] := .next (Asks.performs (.outside rfl)) rfl
  obtain ⟨hshows, hclick⟩ := clicks_toggle_checkbox (by decide +kernel) hcalled <|
    List.forall_mem_singleton.mpr (show Session.Spares _ ⟨0⟩ (.click "bold") from nofun)
  obtain ⟨answer, htoggles, hperforms, hcount⟩ :=
    hclick (.activate "format" "bold") (some ⟨0⟩) _ _ rfl (.slot rfl)
  obtain rfl : answer = true := Answer.flag.inj htoggles.answer_eq.symm
  have hagain := htoggles.shown _ [] .here (List.forall_mem_nil _)
  rw [hshows.now] at hagain
  exact ⟨_, _, _, _, _, rfl, hcalled, by decide +kernel, hshows, htoggles, hperforms, hcount,
    hagain⟩

end Run

end WidgetToolkit
