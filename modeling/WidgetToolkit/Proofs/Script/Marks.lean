import WidgetToolkit.Proofs.Menu.Checkbox
import WidgetToolkit.Proofs.Script.Reports

/-! # What actions do to items

No action changes the kind of an item. Check marks are changed by clicks and by the action that sets
them, and by no other action. -/

namespace WidgetToolkit

/-! ## Clicks -/

/-- Clicks, and the action that sets a check mark. -/
def Action.marks : Action → Bool
  | .click _ | .activate .. | .setChecked .. => true
  | _ => false

namespace Session

variable {session : Session} {action : Action} {menu : Option MenuId} {item clicked : ItemId}

/-- The item that an action clicks, and the menu if it is clicked there. -/
def clickOf? (session : Session) : Action → Option (Option MenuId × ItemId)
  | .click name => (session.desk.itemNamed? name).map (none, ·)
  | .activate menu name => do
    let item ← session.desk.itemNamed? name
    return (some (← session.desk.menuNamed? menu), item)
  | _ => none

theorem perform_of_clickOf? (h : session.clickOf? action = some (menu, clicked)) :
    session.perform action = session.clicked clicked (session.desk.click? menu clicked) := by
  cases action with
  | click name =>
      obtain ⟨item, hitem, heq⟩ := Option.map_eq_some_iff.mp h
      obtain ⟨rfl, rfl⟩ := Prod.mk.inj heq
      simp only [perform, perform?, hitem]
      rfl
  | activate menu name =>
      obtain ⟨item, hitem, hmenu⟩ := Option.bind_eq_some_iff.mp h
      obtain ⟨id, hid, heq⟩ := Option.bind_eq_some_iff.mp hmenu
      obtain ⟨rfl, rfl⟩ := Prod.mk.inj (Option.some.inj heq)
      simp only [perform, perform?, hitem, hid]
      rfl
  | _ => cases h

/-! ## Other actions -/

/-- Whatever comes of looking things up, the items stay, with the check marks that they had. -/
def MarksKept (session : Session) (effect? : Option Effect) : Prop :=
  ∀ effect, effect? = some effect → session.desk.KeepsMarks effect.session.desk

theorem marksKept_pure {effect : Effect} (h : session.desk.KeepsMarks effect.session.desk) :
    session.MarksKept (pure effect) :=
  Effect.found_pure h

theorem marksKept_reply (answer : Answer) : session.MarksKept (pure (session.reply answer)) :=
  marksKept_pure (.refl session.desk)

theorem marksKept_bind {α : Type} {found : Option α} {next : α → Option Effect}
    (h : ∀ a, session.MarksKept (next a)) : session.MarksKept (found >>= next) :=
  Effect.found_bind fun a _ => h a

theorem keepsMarks_setSignal (ref : SignalRef) (signal : Signal Slot) :
    session.desk.KeepsMarks (session.setSignal ref signal).desk := by
  cases ref with
  | plain => exact .refl session.desk
  | click item => exact Desk.keepsMarks_modifyItem session.desk item fun _ => ⟨rfl, rfl⟩

theorem marksKept_setItem (item : ItemId) {change : MenuItem Slot → MenuItem Slot}
    (h : ∀ entry, (change entry).kind = entry.kind ∧ (change entry).checked = entry.checked) :
    session.MarksKept (pure (.done .nothing [] (session.setItem item change))) :=
  marksKept_pure (Desk.keepsMarks_modifyItem session.desk item h)

theorem keepsMarks_makeMenu (session : Session) (name : String) (recorded : Bool) :
    session.desk.KeepsMarks (session.makeMenu name recorded).session.desk := by
  have hnew := session.desk.keepsMarks_newMenu name recorded
  rw [makeMenu]
  cases session.desk.menuNamed? name with
  | none => exact hnew
  | some former => exact hnew.trans (Desk.keepsMarks_drop _ former)

theorem keepsMarks_perform (hmarks : action.marks = false) :
    session.desk.KeepsMarks (session.perform action).session.desk := by
  have hfound : session.MarksKept (session.perform? action) := by
    cases action with
    | connect name tag acts limit =>
        exact marksKept_bind fun ref => marksKept_pure (keepsMarks_setSignal ref _)
    | disconnect name tag =>
        refine marksKept_bind fun ref => marksKept_bind fun id => marksKept_pure ?_
        exact keepsMarks_setSignal ref _
    | disconnectAll name =>
        exact marksKept_bind fun ref => marksKept_pure (keepsMarks_setSignal ref _)
    | emit name value => exact marksKept_bind fun ref => marksKept_pure (.refl session.desk)
    | countSlots | isEmpty | describeSignal | countItems =>
        exact marksKept_bind fun _ => marksKept_reply _
    | itemAt | describeItem | describeMenu =>
        exact marksKept_bind fun _ => marksKept_bind fun _ => marksKept_reply _
    | indexOf =>
        refine marksKept_bind fun _ => marksKept_bind fun _ => marksKept_bind fun _ => ?_
        exact marksKept_reply _
    | makeItem name kind label =>
        exact marksKept_pure (session.desk.keepsMarks_newItem name kind label)
    | makeMenu name recorded => exact marksKept_pure (session.keepsMarks_makeMenu name recorded)
    | drop menu => exact marksKept_bind fun id => marksKept_pure (session.desk.keepsMarks_drop id)
    | append menu item =>
        refine marksKept_bind fun id => marksKept_bind fun item => marksKept_pure ?_
        exact session.desk.keepsMarks_insert id item _
    | insert menu item index =>
        refine marksKept_bind fun id => marksKept_bind fun item => marksKept_pure ?_
        exact session.desk.keepsMarks_insert id item index
    | remove menu item =>
        refine marksKept_bind fun id => marksKept_bind fun item => marksKept_pure ?_
        exact session.desk.keepsMarks_remove id item
    | setLabel | setEnabled | setVisible =>
        exact marksKept_bind fun item => marksKept_setItem item fun _ => ⟨rfl, rfl⟩
    | click | activate | setChecked => cases hmarks
  rw [perform]
  cases heffect : session.perform? action with
  | none => exact .refl session.desk
  | some effect => exact hfound effect heffect

/-! ## All actions -/

/-- What an action comes to: a click that gets through or does not, a check mark that is set, or
nothing that matters to check marks. -/
inductive Marked (session : Session) (action : Action) : Desk Slot → Prop
  | clicked {menu : Option MenuId} {clicked : ItemId} {desk : Desk Slot}
      (hclick : session.clickOf? action = some (menu, clicked))
      (hdesk : session.desk.click? menu clicked = some desk) : Marked session action desk
  | refused {menu : Option MenuId} {clicked : ItemId}
      (hclick : session.clickOf? action = some (menu, clicked))
      (hdesk : session.desk.click? menu clicked = none) : Marked session action session.desk
  | set {name : String} {on : Bool} {item : ItemId} (haction : action = .setChecked name on)
      (hitem : session.desk.itemNamed? name = some item) :
      Marked session action (session.desk.modifyItem item ({ · with checked := on }))
  | kept {desk : Desk Slot} (hclick : session.clickOf? action = none)
      (hdesk : session.desk.KeepsMarks desk) : Marked session action desk

theorem marked_perform (session : Session) (action : Action) :
    session.Marked action (session.perform action).session.desk := by
  cases hclick : session.clickOf? action with
  | some click =>
      obtain ⟨menu, clicked⟩ := click
      rw [perform_of_clickOf? hclick]
      cases hdesk : session.desk.click? menu clicked with
      | none => exact .refused hclick hdesk
      | some desk => exact .clicked hclick hdesk
  | none =>
      cases hmarks : action.marks with
      | false => exact .kept hclick (keepsMarks_perform hmarks)
      | true =>
          cases action with
          | click name =>
              have hitem : session.desk.itemNamed? name = none := Option.map_eq_none_iff.mp hclick
              simp only [perform, perform?, hitem]
              exact .kept hclick (.refl session.desk)
          | activate menu name =>
              cases hitem : session.desk.itemNamed? name with
              | none =>
                  simp only [perform, perform?, hitem]
                  exact .kept hclick (.refl session.desk)
              | some item =>
                  have hmenu : session.desk.menuNamed? menu = none :=
                    Option.eq_none_iff_forall_ne_some.mpr (by simpa [clickOf?, hitem] using hclick)
                  simp only [perform, perform?, hitem, hmenu]
                  exact .kept hclick (.refl session.desk)
          | setChecked name on =>
              cases hitem : session.desk.itemNamed? name with
              | none =>
                  simp only [perform, perform?, hitem]
                  exact .kept hclick (.refl session.desk)
              | some item =>
                  simp only [perform, perform?, hitem]
                  exact .set rfl hitem
          | _ => cases hmarks

/-- No action changes the kind of an item. -/
theorem keepsKinds_perform (session : Session) (action : Action) :
    session.desk.KeepsKinds (session.perform action).session.desk := by
  have hmarked := session.marked_perform action
  generalize (session.perform action).session.desk = desk at hmarked ⊢
  cases hmarked with
  | clicked _ hdesk => exact Desk.keepsKinds_click? hdesk
  | refused => exact .refl session.desk
  | set => exact Desk.keepsKinds_modifyItem session.desk _ fun _ => rfl
  | kept _ hdesk => exact hdesk.kinds

/-! ## Checkboxes -/

/-- The action is a click on the item that gets past the checks. -/
def Hits (session : Session) (item : ItemId) (action : Action) : Prop :=
  ∃ menu, session.clickOf? action = some (menu, item) ∧ session.desk.Admits menu item

/-- The action does not set the check mark of the item. -/
def Spares (session : Session) (item : ItemId) (action : Action) : Prop :=
  ∀ name on, action = .setChecked name on → session.desk.itemNamed? name ≠ some item

instance (session : Session) (item : ItemId) (action : Action) :
    Decidable (session.Hits item action) :=
  decidable_of_iff (∃ click ∈ session.clickOf? action,
      click.2 = item ∧ session.desk.Admits click.1 item) <| by
    constructor
    · rintro ⟨⟨menu, clicked⟩, hclick, rfl, hadmits⟩
      exact ⟨menu, hclick, hadmits⟩
    · rintro ⟨menu, hclick, hadmits⟩
      exact ⟨(menu, item), hclick, rfl, hadmits⟩

theorem hits_iff (hclick : session.clickOf? action = some (menu, clicked)) :
    session.Hits item action ↔ clicked = item ∧ session.desk.Admits menu item := by
  constructor
  · rintro ⟨menu', hclick', hadmits⟩
    obtain ⟨rfl, rfl⟩ := Prod.mk.inj (Option.some.inj (hclick.symm.trans hclick'))
    exact ⟨rfl, hadmits⟩
  · rintro ⟨rfl, hadmits⟩
    exact ⟨menu, hclick, hadmits⟩

theorem not_hits_of_clickOf?_eq_none (hclick : session.clickOf? action = none) :
    ¬session.Hits item action := by
  rintro ⟨menu, hclick', -⟩
  rw [hclick] at hclick'
  cases hclick'

theorem spares_of_clickOf? (hclick : session.clickOf? action = some (menu, clicked)) :
    session.Spares item action := by
  rintro name on rfl
  cases hclick

/-- A checkbox is toggled by the clicks on it that get past the checks, and by nothing else. -/
theorem isChecked_perform (hbox : session.desk.isCheckbox item = true)
    (hspares : session.Spares item action) :
    (session.perform action).session.desk.isChecked item =
      (session.desk.isChecked item ^^ decide (session.Hits item action)) := by
  have hmarked := session.marked_perform action
  generalize (session.perform action).session.desk = desk at hmarked ⊢
  cases hmarked with
  | @clicked menu clicked _ hclick hdesk =>
      have hhits : clicked = item ↔ session.Hits item action := by
        rw [hits_iff hclick, iff_self_and]
        rintro rfl
        exact (Desk.click?_isSome_iff hbox).mp (Option.isSome_of_eq_some hdesk)
      rw [Desk.isChecked_click? hbox hdesk, decide_eq_decide.mpr hhits]
  | @refused menu clicked hclick hdesk =>
      have hhits : ¬session.Hits item action := by
        rw [hits_iff hclick]
        rintro ⟨rfl, hadmits⟩
        have hsome := (Desk.click?_isSome_iff hbox).mpr hadmits
        rw [hdesk] at hsome
        cases hsome
      rw [decide_eq_false hhits, Bool.xor_false]
  | @set name on other haction hitem =>
      have hother : item ≠ other := by
        rintro rfl
        exact hspares name on haction hitem
      have hclick : session.clickOf? action = none := by
        rw [haction]
        rfl
      rw [Desk.isChecked_modifyItem_of_ne _ _ hother,
        decide_eq_false (not_hits_of_clickOf?_eq_none hclick), Bool.xor_false]
  | kept hclick hdesk =>
      rw [hdesk.isChecked_eq hbox, decide_eq_false (not_hits_of_clickOf?_eq_none hclick),
        Bool.xor_false]

end Session

end WidgetToolkit
