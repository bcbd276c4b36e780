import Mathlib.Data.List.Induction
import WidgetToolkit.Proofs.Lists
import WidgetToolkit.Proofs.Theme.Hexadecimal
import WidgetToolkit.Proofs.Toml.Keys
import WidgetToolkit.Theme.Loading

/-! # Overrides lie over the light palette

Maps may be gone through in any order. Whatever the order is, a color of the loaded palette is the
one that the text gives for it, or else that of the light palette. -/

namespace WidgetToolkit

/-- The two colors of a style. -/
inductive ColorField where
  | background
  | border

def ColorField.name : ColorField → String
  | .background => "background"
  | .border => "border"

def PartStyle.color (style : PartStyle) : ColorField → Color
  | .background => style.background
  | .border => style.border

namespace ControlState

theorem ofKey?_eq_some_iff {key : String} {state : ControlState} :
    ofKey? key = some state ↔ key = state.key := by
  constructor
  · intro h
    have hkey : state.key = key := by simpa using List.find?_some h
    exact hkey.symm
  · rintro rfl
    cases state <;> decide

end ControlState

namespace ThemePart

theorem ofKey?_eq_some_iff {key : String} {part : ThemePart} :
    ofKey? key = some part ↔ key = part.key := by
  constructor
  · intro h
    have hkey : part.key = key := by simpa using List.find?_some h
    exact hkey.symm
  · rintro rfl
    cases part <;> decide

end ThemePart

namespace Palette

def StyleEntry.color? (entry : StyleEntry) : ColorField → Option String
  | .background => entry.background
  | .border => entry.border

/-! ## One entry -/

/-- The colors that an entry gives replace those of a style. -/
def StyleEntry.Gives (entry : StyleEntry) (before after : PartStyle) : Prop :=
  ∀ field, (entry.color? field).elim (some (before.color field)) Color.ofHex? =
    some (after.color field)

/-- An error that names a color of an entry that cannot be read. -/
def StyleEntry.Refuses (entry : StyleEntry) (key : String) (error : InvalidColor) : Prop :=
  ∃ field, entry.color? field = some error.value ∧ Color.ofHex? error.value = none ∧
    error.key = key ++ "." ++ field.name

theorem overrideColor_eq_ok_iff {key : String} {present color : Color} {given : Option String} :
    overrideColor key present given = .ok color ↔
      given.elim (some present) Color.ofHex? = some color := by
  cases given with
  | none => simp [overrideColor]
  | some value => exact readColor_eq_ok_iff

theorem overrideColor_eq_error_iff {key : String} {present : Color} {given : Option String}
    {error : InvalidColor} :
    overrideColor key present given = .error error ↔
      given = some error.value ∧ Color.ofHex? error.value = none ∧ error.key = key := by
  cases given with
  | none => simp [overrideColor]
  | some value =>
      obtain ⟨key', value'⟩ := error
      rw [overrideColor, readColor_eq_error_iff]
      constructor
      · rintro ⟨h, hnone⟩
        cases h
        exact ⟨rfl, hnone, rfl⟩
      · rintro ⟨h, hnone, rfl⟩
        cases h
        exact ⟨rfl, hnone⟩

theorem overrideStyle_ok {key : String} {present style : PartStyle} {entry : StyleEntry}
    (h : overrideStyle key present entry = .ok style) : entry.Gives present style := by
  unfold overrideStyle at h
  cases hbackground : overrideColor (key ++ ".background") present.background entry.background with
  | error error => rw [hbackground] at h; cases h
  | ok background =>
      cases hborder : overrideColor (key ++ ".border") present.border entry.border with
      | error error => rw [hbackground, hborder] at h; cases h
      | ok border =>
          rw [hbackground, hborder] at h
          cases h
          intro field
          cases field with
          | background => exact overrideColor_eq_ok_iff.mp hbackground
          | border => exact overrideColor_eq_ok_iff.mp hborder

theorem overrideStyle_error {key : String} {present : PartStyle} {entry : StyleEntry}
    {error : InvalidColor} (h : overrideStyle key present entry = .error error) :
    entry.Refuses key error := by
  unfold overrideStyle at h
  cases hbackground : overrideColor (key ++ ".background") present.background entry.background with
  | error error' =>
      rw [hbackground] at h
      cases h
      obtain ⟨hgiven, hnone, hkey⟩ := overrideColor_eq_error_iff.mp hbackground
      exact ⟨.background, hgiven, hnone, by rw [hkey, String.append_assoc]; rfl⟩
  | ok background =>
      cases hborder : overrideColor (key ++ ".border") present.border entry.border with
      | error error' =>
          rw [hbackground, hborder] at h
          cases h
          obtain ⟨hgiven, hnone, hkey⟩ := overrideColor_eq_error_iff.mp hborder
          exact ⟨.border, hgiven, hnone, by rw [hkey, String.append_assoc]; rfl⟩
      | ok border => rw [hbackground, hborder] at h; cases h

/-! ## All entries in turn -/

/-- An entry of a known part in a known state. -/
structure KnownEntry where
  part : ThemePart
  state : ControlState
  entry : StyleEntry

def overrideKnown (palette : Palette) (known : KnownEntry) : Except InvalidColor Palette := do
  let style ← overrideStyle (known.part.key ++ "." ++ known.state.key)
    (palette.partStyle known.part known.state) known.entry
  return palette.set known.part known.state style

def knownStates (part : ThemePart) (states : List (String × StyleEntry)) : List KnownEntry :=
  states.filterMap fun entry =>
    (ControlState.ofKey? entry.1).map fun state => ⟨part, state, entry.2⟩

/-- The entries of known parts in known states, in the order in which they are gone through. -/
def Overrides.known (order : Overrides) : List KnownEntry :=
  order.flatMap fun states => (ThemePart.ofKey? states.1).elim [] (knownStates · states.2)

theorem map_fst_overrideStates (part : ThemePart) (states : List (String × StyleEntry))
    (palette : Palette) :
    (overrideStates part states palette).map Prod.fst =
      (knownStates part states).foldlM overrideKnown palette := by
  induction states generalizing palette with
  | nil => rfl
  | cons entry rest ih =>
      obtain ⟨key, entry⟩ := entry
      cases hstate : ControlState.ofKey? key with
      | none =>
          have hknown : knownStates part ((key, entry) :: rest) = knownStates part rest := by
            simp [knownStates, hstate]
          rw [hknown, ← ih, overrideStates, hstate]
          cases overrideStates part rest palette <;> rfl
      | some state =>
          have hknown : knownStates part ((key, entry) :: rest) =
              ⟨part, state, entry⟩ :: knownStates part rest := by
            simp [knownStates, hstate]
          obtain rfl := ControlState.ofKey?_eq_some_iff.mp hstate
          rw [hknown, List.foldlM_cons, overrideStates, hstate, overrideKnown]
          dsimp only
          cases overrideStyle (part.key ++ "." ++ state.key) (palette.partStyle part state)
            entry with
          | error error => rfl
          | ok style => exact ih _

/-- The two loops come to one over the known entries. What is not known adds warnings only. -/
theorem map_fst_override (order : Overrides) (palette : Palette) :
    (override order palette).map Prod.fst = order.known.foldlM overrideKnown palette := by
  induction order generalizing palette with
  | nil => rfl
  | cons states rest ih =>
      obtain ⟨key, states⟩ := states
      cases hpart : ThemePart.ofKey? key with
      | none =>
          have hknown : Overrides.known ((key, states) :: rest) = Overrides.known rest := by
            simp [Overrides.known, hpart]
          rw [hknown, ← ih, override, hpart]
          cases override rest palette <;> rfl
      | some part =>
          have hknown : Overrides.known ((key, states) :: rest) =
              knownStates part states ++ Overrides.known rest := by
            simp [Overrides.known, hpart]
          rw [hknown, List.foldlM_append, ← map_fst_overrideStates, override, hpart]
          dsimp only
          cases overrideStates part states palette with
          | error error => rfl
          | ok loaded =>
              refine Eq.trans ?_ (ih loaded.1)
              cases hrest : override rest loaded.1 <;>
                simp [hrest, bind, Except.bind, Except.map, pure, Except.pure]

/-- Each color is what an entry for its part and state makes it, and as before if there is none. -/
def Applied (entries : List KnownEntry) (before after : Palette) : Prop :=
  ∀ part state,
    (∀ entry, ⟨part, state, entry⟩ ∈ entries →
      entry.Gives (before.partStyle part state) (after.partStyle part state)) ∧
    ((∀ entry, ⟨part, state, entry⟩ ∉ entries) →
      after.partStyle part state = before.partStyle part state)

theorem set_partStyle (palette : Palette) (part part' : ThemePart) (state state' : ControlState)
    (style : PartStyle) :
    (palette.set part state style).partStyle part' state' =
      if part' = part ∧ state' = state then style else palette.partStyle part' state' := rfl

theorem overrideKnown_ok {palette next : Palette} {known : KnownEntry}
    (h : overrideKnown palette known = .ok next) :
    ∃ style, known.entry.Gives (palette.partStyle known.part known.state) style ∧
      next = palette.set known.part known.state style := by
  rw [overrideKnown] at h
  cases hstyle : overrideStyle (known.part.key ++ "." ++ known.state.key)
      (palette.partStyle known.part known.state) known.entry with
  | error error => rw [hstyle] at h; cases h
  | ok style =>
      rw [hstyle] at h
      cases h
      exact ⟨style, overrideStyle_ok hstyle, rfl⟩

theorem overrideKnown_error {palette : Palette} {known : KnownEntry} {error : InvalidColor}
    (h : overrideKnown palette known = .error error) :
    known.entry.Refuses (known.part.key ++ "." ++ known.state.key) error := by
  rw [overrideKnown] at h
  cases hstyle : overrideStyle (known.part.key ++ "." ++ known.state.key)
      (palette.partStyle known.part known.state) known.entry with
  | error error' =>
      rw [hstyle] at h
      cases h
      exact overrideStyle_error hstyle
  | ok style => rw [hstyle] at h; cases h

/-- What the first entry gives stays, as no other is for its part and state. -/
theorem Applied.cons {rest : List KnownEntry} {part : ThemePart} {state : ControlState}
    {entry : StyleEntry} {style : PartStyle} {before after : Palette}
    (hfresh : ∀ entry, ⟨part, state, entry⟩ ∉ rest)
    (hgives : entry.Gives (before.partStyle part state) style)
    (h : Applied rest (before.set part state style) after) :
    Applied (⟨part, state, entry⟩ :: rest) before after := by
  intro part' state'
  obtain ⟨hgiven, hkept⟩ := h part' state'
  by_cases hsame : part' = part ∧ state' = state
  · obtain ⟨rfl, rfl⟩ := hsame
    have hafter := hkept hfresh
    rw [set_partStyle, if_pos ⟨rfl, rfl⟩] at hafter
    refine ⟨fun entry' hentry' => ?_, fun hnone => absurd List.mem_cons_self (hnone entry)⟩
    rcases List.mem_cons.mp hentry' with heq | hentry'
    · cases heq
      exact hafter ▸ hgives
    · exact absurd hentry' (hfresh entry')
  · rw [set_partStyle, if_neg hsame] at hgiven hkept
    refine ⟨fun entry' hentry' => hgiven entry' ?_, fun hnone => hkept fun entry' hentry' =>
      hnone entry' (List.mem_cons_of_mem _ hentry')⟩
    rcases List.mem_cons.mp hentry' with heq | hentry'
    · cases heq
      exact absurd ⟨rfl, rfl⟩ hsame
    · exact hentry'

theorem applied_of_foldlM {entries : List KnownEntry}
    (hkeys : (entries.map fun known => (known.part, known.state)).Nodup) {before after : Palette}
    (h : entries.foldlM overrideKnown before = .ok after) : Applied entries before after := by
  induction entries generalizing before with
  | nil =>
      cases h
      exact fun part state => ⟨nofun, fun _ => rfl⟩
  | cons known rest ih =>
      obtain ⟨hfresh, hrest⟩ := List.nodup_cons.mp hkeys
      rw [List.foldlM_cons] at h
      cases hnext : overrideKnown before known with
      | error error => rw [hnext] at h; cases h
      | ok next =>
          rw [hnext] at h
          obtain ⟨style, hgives, rfl⟩ := overrideKnown_ok hnext
          refine Applied.cons (fun entry hentry => ?_) hgives (ih hrest h)
          exact hfresh (List.mem_map.mpr ⟨_, hentry, rfl⟩)

theorem refuses_of_foldlM {entries : List KnownEntry} {before : Palette} {error : InvalidColor}
    (h : entries.foldlM overrideKnown before = .error error) :
    ∃ known ∈ entries, known.entry.Refuses (known.part.key ++ "." ++ known.state.key) error := by
  induction entries generalizing before with
  | nil => cases h
  | cons known rest ih =>
      rw [List.foldlM_cons] at h
      cases hnext : overrideKnown before known with
      | error error' =>
          rw [hnext] at h
          cases h
          exact ⟨known, List.mem_cons_self, overrideKnown_error hnext⟩
      | ok next =>
          rw [hnext] at h
          obtain ⟨other, hother, hrefuses⟩ := ih h
          exact ⟨other, List.mem_cons_of_mem _ hother, hrefuses⟩

/-! ## Orders

The known entries come in another order then, but there is one at most for a part in a state. -/

/-- No key stands twice, as in every map. -/
structure Overrides.Distinct (doc : Overrides) : Prop where
  parts : (doc.map Prod.fst).Nodup
  states : ∀ states ∈ doc, (states.2.map Prod.fst).Nodup

/-- The same maps gone through in some order. -/
def Overrides.Reorders (doc order : Overrides) : Prop :=
  ∃ parts : Overrides, doc.Perm parts ∧
    List.Forall₂ (fun states states' => states'.1 = states.1 ∧ states.2.Perm states'.2) parts order

/-- The entry for a part in a state. -/
def Overrides.lookup? (doc : Overrides) (part : ThemePart) (state : ControlState) :
    Option StyleEntry :=
  (doc.lookup part.key).bind fun states => states.lookup state.key

/-- The text that is given for a color. -/
def Overrides.given? (doc : Overrides) (part : ThemePart) (state : ControlState)
    (field : ColorField) : Option String :=
  (doc.lookup? part state).bind fun entry => entry.color? field

theorem Overrides.Reorders.refl (doc : Overrides) : doc.Reorders doc :=
  ⟨doc, .refl doc, List.forall₂_same.mpr fun states _ => ⟨rfl, .refl states.2⟩⟩

theorem Overrides.Reorders.distinct {doc order : Overrides} (h : doc.Reorders order)
    (hdoc : doc.Distinct) : order.Distinct := by
  obtain ⟨parts, hperm, horder⟩ := h
  have hkeys : order.map Prod.fst = parts.map Prod.fst :=
    map_eq_of_forall₂ horder fun _ _ hsame => hsame.1
  refine ⟨hkeys ▸ (hperm.map Prod.fst).nodup_iff.mp hdoc.parts, ?_⟩
  refine forall_of_forall₂_imp (List.Forall₂.imp ?_ horder) fun states hstates =>
    hdoc.states states (hperm.mem_iff.mpr hstates)
  exact fun _ _ hsame hnodup => (hsame.2.map Prod.fst).nodup_iff.mp hnodup

theorem mem_knownStates {part : ThemePart} {states : List (String × StyleEntry)}
    {known : KnownEntry} :
    known ∈ knownStates part states ↔
      known.part = part ∧ (known.state.key, known.entry) ∈ states := by
  rw [knownStates, List.mem_filterMap]
  constructor
  · rintro ⟨⟨key, entry⟩, hmem, hknown⟩
    obtain ⟨state, hstate, rfl⟩ := Option.map_eq_some_iff.mp hknown
    obtain rfl := ControlState.ofKey?_eq_some_iff.mp hstate
    exact ⟨rfl, hmem⟩
  · rintro ⟨rfl, hmem⟩
    exact ⟨_, hmem, by rw [ControlState.ofKey?_eq_some_iff.mpr rfl]; rfl⟩

theorem mem_known {order : Overrides} {known : KnownEntry} :
    known ∈ order.known ↔
      ∃ states, (known.part.key, states) ∈ order ∧ (known.state.key, known.entry) ∈ states := by
  rw [Overrides.known, List.mem_flatMap]
  constructor
  · rintro ⟨⟨key, states⟩, hmem, hknown⟩
    cases hpart : ThemePart.ofKey? key with
    | none => simp [hpart] at hknown
    | some part =>
        obtain rfl := ThemePart.ofKey?_eq_some_iff.mp hpart
        rw [hpart, Option.elim_some, mem_knownStates] at hknown
        obtain ⟨rfl, hentry⟩ := hknown
        exact ⟨states, hmem, hentry⟩
  · rintro ⟨states, hmem, hentry⟩
    refine ⟨_, hmem, ?_⟩
    rw [ThemePart.ofKey?_eq_some_iff.mpr rfl, Option.elim_some, mem_knownStates]
    exact ⟨rfl, hentry⟩

theorem nodup_knownStates (part : ThemePart) {states : List (String × StyleEntry)}
    (hkeys : (states.map Prod.fst).Nodup) :
    ((knownStates part states).map fun known => (known.part, known.state)).Nodup := by
  induction states with
  | nil => exact List.nodup_nil
  | cons entry rest ih =>
      obtain ⟨key, entry⟩ := entry
      obtain ⟨hfresh, hrest⟩ := List.nodup_cons.mp hkeys
      cases hstate : ControlState.ofKey? key with
      | none => simpa [knownStates, hstate] using ih hrest
      | some state =>
          obtain rfl := ControlState.ofKey?_eq_some_iff.mp hstate
          have hknown : knownStates part ((state.key, entry) :: rest) =
              ⟨part, state, entry⟩ :: knownStates part rest := by
            simp [knownStates, hstate]
          rw [hknown, List.map_cons, List.nodup_cons]
          refine ⟨fun hmem => ?_, ih hrest⟩
          obtain ⟨other, hother, hsame⟩ := List.mem_map.mp hmem
          have hstate' : other.state = state := (Prod.mk.inj hsame).2
          have hentry := (mem_knownStates.mp hother).2
          exact hfresh (List.mem_map.mpr ⟨_, hentry, congrArg ControlState.key hstate'⟩)

theorem nodup_known {order : Overrides} (h : order.Distinct) :
    (order.known.map fun known => (known.part, known.state)).Nodup := by
  induction order with
  | nil => exact List.nodup_nil
  | cons states rest ih =>
      obtain ⟨key, states⟩ := states
      obtain ⟨hfresh, hparts⟩ := List.nodup_cons.mp h.parts
      obtain ⟨hhead, hstates⟩ := List.forall_mem_cons.mp h.states
      have hrest := ih ⟨hparts, hstates⟩
      cases hpart : ThemePart.ofKey? key with
      | none => simpa [Overrides.known, hpart] using hrest
      | some part =>
          obtain rfl := ThemePart.ofKey?_eq_some_iff.mp hpart
          have hknown : Overrides.known ((part.key, states) :: rest) =
              knownStates part states ++ Overrides.known rest := by
            simp [Overrides.known, hpart]
          rw [hknown, List.map_append]
          refine (nodup_knownStates part hhead).append hrest fun place hhere hthere => ?_
          obtain ⟨known, hknown, rfl⟩ := List.mem_map.mp hhere
          obtain ⟨other, hother, hsame⟩ := List.mem_map.mp hthere
          obtain ⟨rfl, -⟩ := mem_knownStates.mp hknown
          obtain ⟨states', hmem, -⟩ := mem_known.mp hother
          exact hfresh (List.mem_map.mpr
            ⟨_, hmem, congrArg ThemePart.key (Prod.mk.inj hsame).1⟩)

/-- Another order brings the same entries. -/
theorem mem_known_iff_lookup {doc order : Overrides} (hdoc : doc.Distinct)
    (horder : doc.Reorders order) {part : ThemePart} {state : ControlState} {entry : StyleEntry} :
    ⟨part, state, entry⟩ ∈ order.known ↔ doc.lookup? part state = some entry := by
  obtain ⟨parts, hperm, hsame⟩ := horder
  rw [mem_known, Overrides.lookup?, Option.bind_eq_some_iff]
  constructor
  · rintro ⟨states', hmem', hentry⟩
    obtain ⟨⟨key, states⟩, hmem, hkey, hstates⟩ := exists_left_of_forall₂ hsame hmem'
    obtain rfl : part.key = key := hkey
    have hmem := hperm.mem_iff.mpr hmem
    refine ⟨states, (Toml.lookup_eq_some_iff_mem hdoc.parts).mpr hmem, ?_⟩
    exact (Toml.lookup_eq_some_iff_mem (hdoc.states _ hmem)).mpr (hstates.mem_iff.mpr hentry)
  · rintro ⟨states, hlookup, hentry⟩
    have hmem := Toml.mem_of_lookup hlookup
    obtain ⟨⟨key, states'⟩, hmem', hkey, hstates⟩ :=
      exists_right_of_forall₂ hsame (hperm.mem_iff.mp hmem)
    obtain rfl : key = part.key := hkey
    exact ⟨states', hmem', hstates.mem_iff.mp (Toml.mem_of_lookup hentry)⟩

/-! ## Documents -/

theorem map_fst_of_mapM {α β : Type} {f : String × α → Option (String × β)}
    (hf : ∀ {entry entry'}, f entry = some entry' → entry'.1 = entry.1)
    {entries : List (String × α)} {entries' : List (String × β)}
    (h : entries.mapM f = some entries') :
    entries'.map Prod.fst = entries.map Prod.fst :=
  map_eq_of_forall₂ (forall₂_of_mapM h) fun _ _ => hf

theorem distinct_of_ofTable {table : Toml.Table} {doc : Overrides}
    (htable : (Toml.Value.table table).Distinct) (h : Overrides.ofTable? table = some doc) :
    doc.Distinct := by
  cases htable with
  | table hkeys hvalues =>
      refine ⟨?_, fun states hstates => ?_⟩
      · refine map_fst_of_mapM (fun hpart => ?_) h ▸ hkeys
        obtain ⟨inner, -, hpart⟩ := Option.bind_eq_some_iff.mp hpart
        obtain ⟨states, -, hpart⟩ := Option.bind_eq_some_iff.mp hpart
        cases hpart
        rfl
      · obtain ⟨part, hmem, hpart⟩ := exists_left_of_forall₂ (forall₂_of_mapM h) hstates
        obtain ⟨inner, hinner, hpart⟩ := Option.bind_eq_some_iff.mp hpart
        obtain ⟨states', hread, hpart⟩ := Option.bind_eq_some_iff.mp hpart
        cases hpart
        have hdistinct := hvalues part hmem
        cases hvalue : part.2 with
        | table inner' =>
            rw [hvalue] at hinner hdistinct
            cases hinner
            cases hdistinct with
            | table hinnerKeys _ =>
                refine map_fst_of_mapM (fun hstate => ?_) hread ▸ hinnerKeys
                obtain ⟨entry, -, hstate⟩ := Option.bind_eq_some_iff.mp hstate
                cases hstate
                rfl
        | _ => rw [hvalue] at hinner; cases hinner

theorem distinct_of_read {text : String} {doc : Overrides}
    (h : (Toml.read? text).bind Overrides.ofTable? = some doc) : doc.Distinct := by
  obtain ⟨table, htable, hdoc⟩ := Option.bind_eq_some_iff.mp h
  exact distinct_of_ofTable (Toml.distinct_of_read htable) hdoc

/-! ## All orders alike -/

/-- The key of a color, as errors name it. -/
def colorKey (part : ThemePart) (state : ControlState) (field : ColorField) : String :=
  part.key ++ "." ++ state.key ++ "." ++ field.name

theorem color_of_override {doc order : Overrides} (hdoc : doc.Distinct)
    (horder : doc.Reorders order) {before after : Palette} {warnings : List Warning}
    (h : override order before = .ok (after, warnings)) (part : ThemePart) (state : ControlState)
    (field : ColorField) :
    (doc.given? part state field).elim (some ((before.partStyle part state).color field))
      Color.ofHex? = some ((after.partStyle part state).color field) := by
  have hfold : order.known.foldlM overrideKnown before = .ok after := by
    rw [← map_fst_override, h]
    rfl
  obtain ⟨hgiven, hkept⟩ := applied_of_foldlM (nodup_known (horder.distinct hdoc)) hfold part state
  rw [Overrides.given?]
  cases hentry : doc.lookup? part state with
  | some entry => exact hgiven entry ((mem_known_iff_lookup hdoc horder).mpr hentry) field
  | none =>
      have hnone : ∀ entry, ⟨part, state, entry⟩ ∉ order.known := fun entry hmem => by
        rw [mem_known_iff_lookup hdoc horder, hentry] at hmem
        cases hmem
      rw [hkept hnone]
      rfl

theorem error_of_override {doc order : Overrides} (hdoc : doc.Distinct)
    (horder : doc.Reorders order) {before : Palette} {error : InvalidColor}
    (h : override order before = .error error) :
    ∃ part state field, doc.given? part state field = some error.value ∧
      Color.ofHex? error.value = none ∧ error.key = colorKey part state field := by
  have hfold : order.known.foldlM overrideKnown before = .error error := by
    rw [← map_fst_override, h]
    rfl
  obtain ⟨⟨part, state, entry⟩, hmem, field, hcolor, hnone, hkey⟩ := refuses_of_foldlM hfold
  refine ⟨part, state, field, ?_, hnone, hkey⟩
  rw [Overrides.given?, (mem_known_iff_lookup hdoc horder).mp hmem]
  exact hcolor

/-! ## Loading -/

/-- What loading a text may come to, as a map may be gone through in any order. -/
inductive Loads (text : String) : Except LoadError (Palette × List Warning) → Prop
  | malformed (h : (Toml.read? text).bind Overrides.ofTable? = none) :
      Loads text (.error .malformed)
  | overridden {doc order : Overrides} (h : (Toml.read? text).bind Overrides.ofTable? = some doc)
      (horder : doc.Reorders order) : Loads text ((light.override order).mapError .invalidColor)

theorem loads_ofText (text : String) : Loads text (ofText text) := by
  unfold ofText
  split
  · exact .malformed ‹_›
  · exact .overridden ‹_› (.refl _)

/-- Some styles replaced one after another. -/
def setAll (palette : Palette) (changes : List ((ThemePart × ControlState) × PartStyle)) :
    Palette :=
  changes.foldl (fun palette change => palette.set change.1.1 change.1.2 change.2) palette

theorem setAll_partStyle (palette : Palette)
    (changes : List ((ThemePart × ControlState) × PartStyle)) (part : ThemePart)
    (state : ControlState) :
    (palette.setAll changes).partStyle part state =
      (changes.reverse.lookup (part, state)).getD (palette.partStyle part state) := by
  induction changes using List.reverseRecOn with
  | nil => rfl
  | append_singleton changes change ih =>
      obtain ⟨⟨part', state'⟩, style⟩ := change
      rw [setAll, List.foldl_append, List.reverse_append, List.reverse_singleton,
        List.singleton_append, List.lookup_cons]
      refine (set_partStyle _ part' part state' state style).trans ?_
      by_cases hsame : part = part' ∧ state = state'
      · obtain ⟨rfl, rfl⟩ := hsame
        simp
      · have hkey : ((part, state) == (part', state')) = false := by simpa using hsame
        rw [if_neg hsame, hkey]
        exact ih

/-- The overrides that a text gives a palette lie over the light one, in whatever order its maps are
gone through. Of the styles that are replaced afterwards the last for a part in a state holds. -/
theorem loads_overlay {text : String} {doc : Overrides}
    {outcome : Except LoadError (Palette × List Warning)}
    (hdoc : (Toml.read? text).bind Overrides.ofTable? = some doc) (houtcome : Loads text outcome) :
    ((∃ loaded, outcome = .ok loaded) ↔
      ∀ part state field value, doc.given? part state field = some value →
        ∃ color, readColor (colorKey part state field) value = .ok color) ∧
    (∀ palette warnings, outcome = .ok (palette, warnings) →
      (∀ part state field,
        (∀ value, doc.given? part state field = some value →
          readColor (colorKey part state field) value =
            .ok ((palette.partStyle part state).color field)) ∧
        (doc.given? part state field = none →
          (palette.partStyle part state).color field = (light.partStyle part state).color field)) ∧
      ∀ changes part state, (palette.setAll changes).partStyle part state =
        (changes.reverse.lookup (part, state)).getD (palette.partStyle part state)) ∧
    (∀ error, outcome = .error error →
      ∃ part state field value, doc.given? part state field = some value ∧
        error = .invalidColor ⟨colorKey part state field, value⟩ ∧
        readColor (colorKey part state field) value =
          .error ⟨colorKey part state field, value⟩) := by
  have hdistinct := distinct_of_read hdoc
  cases houtcome with
  | malformed h => rw [hdoc] at h; cases h
  | @overridden doc' order h horder =>
      obtain rfl : doc = doc' := Option.some.inj (hdoc.symm.trans h)
      cases hrun : override order light with
      | error error =>
          obtain ⟨part, state, field, hgiven, hnone, hkey⟩ :=
            error_of_override hdistinct horder hrun
          have hread : readColor (colorKey part state field) error.value =
              .error ⟨colorKey part state field, error.value⟩ :=
            readColor_eq_error_iff.mpr ⟨rfl, hnone⟩
          refine ⟨⟨nofun, fun hall => ?_⟩, nofun, fun error' herror => ?_⟩
          · obtain ⟨color, hcolor⟩ := hall part state field _ hgiven
            rw [hread] at hcolor
            cases hcolor
          · cases herror
            exact ⟨part, state, field, _, hgiven, by rw [← hkey], hread⟩
      | ok loaded =>
          obtain ⟨palette, warnings⟩ := loaded
          have hcolor := color_of_override hdistinct horder hrun
          have hgiven : ∀ part state field value, doc.given? part state field = some value →
              readColor (colorKey part state field) value =
                .ok ((palette.partStyle part state).color field) := by
            intro part state field value hvalue
            have hof := hcolor part state field
            rw [hvalue] at hof
            exact readColor_eq_ok_iff.mpr hof
          refine ⟨⟨fun _ part state field value hvalue => ⟨_, hgiven part state field value hvalue⟩,
            fun _ => ⟨_, rfl⟩⟩, fun palette' warnings' hloaded => ?_, nofun⟩
          cases hloaded
          refine ⟨fun part state field => ⟨hgiven part state field, fun hnone => ?_⟩,
            setAll_partStyle palette⟩
          have hof := hcolor part state field
          rw [hnone] at hof
          exact (Option.some.inj hof).symm

/-- The border of a part that is not known need not be a color. -/
theorem loads_overlay_hovered :
    ∃ palette warnings,
      ofText "[tab_item.hovered]\nbackground = '#102030'\n[frame.normal]\nborder = 'red'" =
        .ok (palette, warnings) ∧
      (palette.partStyle .tabItem .hovered).color .background = ⟨16, 32, 48, 255⟩ ∧
      (palette.partStyle .tabItem .hovered).color .border = ⟨180, 180, 180, 255⟩ := by
  have hdoc : (Toml.read?
      "[tab_item.hovered]\nbackground = '#102030'\n[frame.normal]\nborder = 'red'").bind
      Overrides.ofTable? = some [("tab_item", [("hovered", ⟨some "#102030", none⟩)]),
        ("frame", [("normal", ⟨none, some "red"⟩)])] := by decide +kernel
  have honly : ∀ part state field,
      Overrides.given? [("tab_item", [("hovered", ⟨some "#102030", none⟩)]),
        ("frame", [("normal", ⟨none, some "red"⟩)])] part state field ∈
        [none, some "#102030"] := by
    intro part state field
    cases part <;> cases state <;> cases field <;> decide +kernel
  have hread : Color.ofHex? "#102030" = some ⟨16, 32, 48, 255⟩ := by decide +kernel
  obtain ⟨hsuccess, hloaded, -⟩ := loads_overlay hdoc (loads_ofText _)
  obtain ⟨⟨palette, warnings⟩, hok⟩ := hsuccess.mpr fun part state field value hvalue => by
    obtain rfl : value = "#102030" := by simpa [hvalue] using honly part state field
    exact ⟨_, readColor_eq_ok_iff.mpr hread⟩
  obtain ⟨hcolors, -⟩ := hloaded palette warnings hok
  refine ⟨palette, warnings, hok, ?_, (hcolors .tabItem .hovered .border).2 (by decide +kernel)⟩
  have hgiven := (hcolors .tabItem .hovered .background).1 "#102030" (by decide +kernel)
  exact Option.some.inj ((readColor_eq_ok_iff.mp hgiven).symm.trans hread)

end Palette

end WidgetToolkit
