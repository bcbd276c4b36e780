import WidgetToolkit.Proofs.Toml.Keys
import WidgetToolkit.Settings.Loading

/-! # A settings file lies over the standard settings

What a file gives is told by rules that do not invoke the reader: which value stands under a key,
and what a value means there. -/

namespace WidgetToolkit.Settings

open Toml (Table Value)
open Toml.Value (readField)

/-- The keys that a settings file may give. -/
inductive Key where
  | font
  | scaleFactor
  | tab
  | family
  | size
  | padding (which : Padding)
  | referenceText
  | notifyOnReselect
deriving DecidableEq

inductive Kind where
  | number
  | single
  | text
  | flag
  | record

namespace Key

def name : Key → String
  | font => "font"
  | scaleFactor => "scale_factor"
  | tab => "tab"
  | family => "family"
  | size => "size"
  | padding which => which.name
  | referenceText => "reference_text"
  | notifyOnReselect => "notify_on_reselect"

/-- The kind of value that belongs under a key. -/
def kind : Key → Kind
  | font | tab => .record
  | scaleFactor | padding _ => .number
  | size => .single
  | family | referenceText => .text
  | notifyOnReselect => .flag

/-- The record that a key stands in. -/
def record? : Key → Option Key
  | font | scaleFactor | tab => none
  | family | size => some font
  | padding _ | referenceText | notifyOnReselect => some tab

/-- The place of a key in its record. -/
def position : Key → Nat
  | size | padding .vertical => 1
  | padding .top => 2
  | padding .content => 3
  | referenceText => 4
  | notifyOnReselect => 5
  | _ => 0

/-- A key as errors name it. -/
def path (key : Key) : String :=
  match key.record? with
  | none => key.name
  | some record => record.name ++ "." ++ key.name

end Key

/-! ## What a file gives -/

/-- The value that stands under a key of a document. The elements of an array stand for the fields
of its record in their order. -/
inductive Holds (table : Table) : Key → Value → Prop
  | top {key : Key} {value : Value} (hkey : key.record? = none) (hmem : (key.name, value) ∈ table) :
      Holds table key value
  | named {key record : Key} {entries : Table} {value : Value} (hkey : key.record? = some record)
      (hrecord : Holds table record (.table entries)) (hmem : (key.name, value) ∈ entries) :
      Holds table key value
  | placed {key record : Key} {elements : List Value} {value : Value}
      (hkey : key.record? = some record) (hrecord : Holds table record (.array elements))
      (hget : elements[key.position]? = some value) : Holds table key value

/-- What a value means. Records mean nothing but what their fields do. -/
inductive Datum where
  | number (x : Float)
  | single (x : Float32)
  | text (s : String)
  | flag (b : Bool)
  | record

/-- A value is of a kind and means something. A moment is a record without fields. -/
inductive Denotes : Kind → Value → Datum → Prop
  | number (x : Float) : Denotes .number (.number x) (.number x)
  | integer (n : Int) : Denotes .number (.integer n) (.number (Float.ofInt n))
  | single (x : Float) : Denotes .single (.number x) (.single x.toFloat32)
  | singleInteger (n : Int) : Denotes .single (.integer n) (.single (Float32.ofInt n))
  | text (s : String) : Denotes .text (.text s) (.text s)
  | flag (b : Bool) : Denotes .flag (.flag b) (.flag b)
  | table (entries : Table) : Denotes .record (.table entries) .record
  | array (elements : List Value) : Denotes .record (.array elements) .record
  | moment (s : String) : Denotes .record (.moment s) .record

theorem Denotes.unique {kind : Kind} {value : Value} {datum datum' : Datum}
    (h : Denotes kind value datum) (h' : Denotes kind value datum') : datum = datum' := by
  cases h <;> cases h' <;> rfl

/-- What settings have under a key. -/
def datum (settings : Settings Float) : Key → Datum
  | .font | .tab => .record
  | .scaleFactor => .number settings.scaleFactor
  | .family => .text settings.font.family
  | .size => .single settings.font.size
  | .padding which => .number (settings.tab.padding which)
  | .referenceText => .text settings.tab.referenceText
  | .notifyOnReselect => .flag settings.tab.notifyOnReselect

/-- Settings have what a document gives, and else what is standard. -/
def Overlays (table : Table) (settings : Settings Float) : Prop :=
  ∀ key, (∀ value, Holds table key value → Denotes key.kind value (settings.datum key)) ∧
    ((∀ value, ¬Holds table key value) → settings.datum key = standard.datum key)

theorem eq_of_datum {settings settings' : Settings Float}
    (h : ∀ key, settings.datum key = settings'.datum key) : settings = settings' := by
  obtain ⟨⟨family, size⟩, scale, horizontal, vertical, top, content, text, notify⟩ := settings
  obtain ⟨⟨_, _⟩, _, _, _, _, _, _, _⟩ := settings'
  cases h .family
  cases h .size
  cases h .scaleFactor
  cases h (.padding .horizontal)
  cases h (.padding .vertical)
  cases h (.padding .top)
  cases h (.padding .content)
  cases h .referenceText
  cases h .notifyOnReselect
  rfl

theorem Overlays.unique {table : Table} {settings settings' : Settings Float}
    (h : Overlays table settings) (h' : Overlays table settings') : settings' = settings := by
  refine eq_of_datum fun key => ?_
  by_cases hheld : ∃ value, Holds table key value
  · obtain ⟨value, hvalue⟩ := hheld
    exact ((h' key).1 value hvalue).unique ((h key).1 value hvalue)
  · have hnone : ∀ value, ¬Holds table key value := fun value hvalue => hheld ⟨value, hvalue⟩
    exact ((h' key).2 hnone).trans ((h key).2 hnone).symm

/-! ## Lookups -/

namespace Key

/-- The names of the fields of a record, in their order. -/
def names : Key → List String
  | font => ["family", "size"]
  | tab => ["horizontal_padding", "vertical_padding", "top_padding", "content_padding",
      "reference_text", "notify_on_reselect"]
  | _ => []

theorem nodup_names (record : Key) : record.names.Nodup := by
  cases record with
  | padding => exact List.nodup_nil
  | _ => decide

theorem record?_of_record? {key record : Key} (h : key.record? = some record) :
    record.record? = none := by
  cases key <;> cases h <;> rfl

theorem names_position {key record : Key} (h : key.record? = some record) :
    record.names[key.position]? = some key.name := by
  cases key with
  | padding which => cases h; cases which <;> rfl
  | _ => cases h <;> rfl

end Key

/-- The value that the reader finds under a key: the first one, by names in a table and by the order
of names in an array. -/
def given? (table : Table) (key : Key) : Option Value :=
  match key.record? with
  | none => table.lookup key.name
  | some record =>
    ((table.lookup record.name).bind (Value.fields? record.names)).bind fun fields =>
      fields key.name

theorem lookup_zip {α : Type} {names : List String} (hnames : names.Nodup) {name : String} {i : Nat}
    (hname : names[i]? = some name) (elements : List α) :
    (names.zip elements).lookup name = elements[i]? := by
  induction names generalizing i elements with
  | nil => cases hname
  | cons first rest ih =>
      obtain ⟨hfresh, hrest⟩ := List.nodup_cons.mp hnames
      cases elements with
      | nil => simp
      | cons element elements =>
          cases i with
          | zero =>
              cases hname
              simp
          | succ i =>
              have hne : (name == first) = false := by
                refine beq_false_of_ne fun heq => hfresh ?_
                exact heq ▸ List.mem_of_getElem? hname
              rw [List.zip_cons_cons, List.lookup_cons, hne]
              exact ih hrest hname elements

theorem holds_top_iff {table : Table} (htable : (table.map Prod.fst).Nodup) {key : Key}
    (hkey : key.record? = none) {value : Value} :
    Holds table key value ↔ table.lookup key.name = some value := by
  rw [Toml.lookup_eq_some_iff_mem htable]
  constructor
  · intro h
    cases h with
    | top _ hmem => exact hmem
    | named hrecord => rw [hkey] at hrecord; cases hrecord
    | placed hrecord => rw [hkey] at hrecord; cases hrecord
  · exact .top hkey

theorem holds_field_iff {table : Table} (htable : (table.map Prod.fst).Nodup)
    (hvalues : ∀ entry ∈ table, entry.2.Distinct) {key record : Key}
    (hkey : key.record? = some record) {value : Value} :
    Holds table key value ↔ ∃ fields, (table.lookup record.name).bind (Value.fields? record.names) =
      some fields ∧ fields key.name = some value := by
  have htop : ∀ {value}, Holds table record value ↔ table.lookup record.name = some value :=
    holds_top_iff htable (Key.record?_of_record? hkey)
  constructor
  · intro h
    cases h with
    | top hnone => rw [hkey] at hnone; cases hnone
    | @named _ _ entries _ hrecord hheld hmem =>
        obtain rfl : record = _ := Option.some.inj (hkey.symm.trans hrecord)
        have hlookup := htop.mp hheld
        refine ⟨_, by rw [hlookup]; rfl, ?_⟩
        cases hvalues _ (Toml.mem_of_lookup hlookup) with
        | table hkeys => exact (Toml.lookup_eq_some_iff_mem hkeys).mpr hmem
    | @placed _ _ elements _ hrecord hheld hget =>
        obtain rfl : record = _ := Option.some.inj (hkey.symm.trans hrecord)
        refine ⟨_, by rw [htop.mp hheld]; rfl, ?_⟩
        exact (lookup_zip record.nodup_names (Key.names_position hkey) elements).trans hget
  · rintro ⟨fields, hfields, hvalue⟩
    obtain ⟨outer, hlookup, hfields⟩ := Option.bind_eq_some_iff.mp hfields
    cases outer with
    | table entries =>
        cases hfields
        exact .named hkey (htop.mpr hlookup) (Toml.mem_of_lookup hvalue)
    | array elements =>
        cases hfields
        have hget := lookup_zip record.nodup_names (Key.names_position hkey) elements
        exact .placed hkey (htop.mpr hlookup) (hget.symm.trans hvalue)
    | moment =>
        -- A moment is a record, but nothing stands in it.
        cases hfields
        cases hvalue
    | _ => cases hfields

/-- What the reader finds under a key is what stands there. -/
theorem holds_iff {table : Table} (htable : (Value.table table).Distinct) {key : Key}
    {value : Value} : Holds table key value ↔ given? table key = some value := by
  cases htable with
  | table hkeys hvalues =>
      rw [given?]
      cases hkey : key.record? with
      | none => exact holds_top_iff hkeys hkey
      | some record => exact (holds_field_iff hkeys hvalues hkey).trans Option.bind_eq_some_iff.symm

/-! ## Reading fields -/

/-- A field takes the value that is given for it, and else a standard one. -/
def Takes (kind : Kind) (given : Option Value) (standard datum : Datum) : Prop :=
  (∀ value, given = some value → Denotes kind value datum) ∧ (given = none → datum = standard)

/-- A reader of all values of a kind. -/
structure Reads {α : Type} (kind : Kind) (datum : α → Datum) (read? : Value → Option α) : Prop where
  denotes : ∀ {value a}, read? value = some a → Denotes kind value (datum a)
  every : ∀ {value d}, Denotes kind value d → ∃ a, read? value = some a

theorem reads_text : Reads .text .text Value.text? where
  denotes {value a} h := by cases value <;> cases h; exact .text a
  every h := by cases h; exact ⟨_, rfl⟩

theorem reads_flag : Reads .flag .flag Value.flag? where
  denotes {value a} h := by cases value <;> cases h; exact .flag a
  every h := by cases h; exact ⟨_, rfl⟩

theorem reads_number : Reads .number .number Value.float? where
  denotes {value a} h := by
    cases value with
    | number => cases h; exact .number a
    | integer n => cases h; exact .integer n
    | _ => cases h
  every h := by cases h <;> exact ⟨_, rfl⟩

theorem reads_single : Reads .single .single Value.float32? where
  denotes {value a} h := by
    cases value with
    | number x => cases h; exact .single x
    | integer n => cases h; exact .singleInteger n
    | _ => cases h
  every h := by cases h <;> exact ⟨_, rfl⟩

section

variable {α : Type} {kind : Kind} {datum : α → Datum} {read? : Value → Option α}
  {fields : String → Option Value} {name : String} {default a : α}

theorem Reads.takes (hreads : Reads kind datum read?)
    (h : readField fields name read? default = some a) :
    Takes kind (fields name) (datum default) (datum a) := by
  cases hfield : fields name with
  | none =>
      simp only [readField, hfield] at h
      cases h
      exact ⟨nofun, fun _ => rfl⟩
  | some value =>
      simp only [readField, hfield] at h
      refine ⟨fun value' hvalue => ?_, nofun⟩
      cases hvalue
      exact hreads.denotes h

theorem Reads.exists_readField (hreads : Reads kind datum read?) (default : α)
    (hfits : ∀ value, fields name = some value → ∃ d, Denotes kind value d) :
    ∃ a, readField fields name read? default = some a := by
  cases hfield : fields name with
  | none => exact ⟨default, by simp only [readField, hfield]⟩
  | some value =>
      obtain ⟨d, hd⟩ := hfits value hfield
      simpa only [readField, hfield] using hreads.every hd

end

theorem exists_fields?_iff {names : List String} {value : Value} :
    (∃ fields, value.fields? names = some fields) ↔ Denotes .record value .record := by
  constructor
  · rintro ⟨fields, h⟩
    cases value with
    | table entries => exact .table entries
    | array elements => exact .array elements
    | moment s => exact .moment s
    | _ => cases h
  · intro h
    cases h <;> exact ⟨_, rfl⟩

/-! ## Reading records -/

section

variable {table : Table}

theorem given?_of_fields (key : Key) {record : Key} (hkey : key.record? = some record)
    {value : Value} (hlookup : table.lookup record.name = some value)
    {fields : String → Option Value} (hfields : value.fields? record.names = some fields) :
    given? table key = fields key.name := by
  simp only [given?, hkey, hlookup, Option.bind_some, hfields]

theorem takes_of_absent (key : Key) {record : Key} (hkey : key.record? = some record)
    (hlookup : table.lookup record.name = none) (datum : Datum) :
    Takes key.kind (given? table key) datum datum := by
  simp only [given?, hkey, hlookup, Option.bind_none]
  exact ⟨nofun, fun _ => rfl⟩

theorem takes_record {given : Option Value}
    (hrecord : ∀ value, given = some value → Denotes .record value .record) :
    Takes .record given .record .record :=
  ⟨hrecord, fun _ => rfl⟩

theorem takes_of_font {font : Font}
    (h : readField (fun name => table.lookup name) "font" readFont? Font.standard = some font) :
    Takes .record (given? table .font) .record .record ∧
      Takes .text (given? table .family) (.text Font.standard.family) (.text font.family) ∧
      Takes .single (given? table .size) (.single Font.standard.size) (.single font.size) := by
  cases hlookup : table.lookup "font" with
  | none =>
      simp only [readField, hlookup] at h
      cases h
      refine ⟨takes_record fun value hvalue => ?_, takes_of_absent .family rfl hlookup _,
        takes_of_absent .size rfl hlookup _⟩
      cases hlookup.symm.trans hvalue
  | some value =>
      simp only [readField, hlookup] at h
      obtain ⟨fields, hfields, h⟩ := Option.bind_eq_some_iff.mp h
      obtain ⟨family, hfamily, h⟩ := Option.bind_eq_some_iff.mp h
      obtain ⟨size, hsize, h⟩ := Option.bind_eq_some_iff.mp h
      cases h
      rw [given?_of_fields .family rfl hlookup hfields, given?_of_fields .size rfl hlookup hfields]
      refine ⟨takes_record fun value' hvalue => ?_, reads_text.takes hfamily,
        reads_single.takes hsize⟩
      cases hlookup.symm.trans hvalue
      exact exists_fields?_iff.mp ⟨fields, hfields⟩

theorem takes_of_tab {tab standard : TabSettings Float} (hstandard : standard = .standard)
    (h : readField (fun name => table.lookup name) "tab" readTab? standard = some tab) :
    Takes .record (given? table .tab) .record .record ∧
      (∀ which, Takes .number (given? table (.padding which)) (.number (standard.padding which))
        (.number (tab.padding which))) ∧
      Takes .text (given? table .referenceText) (.text standard.referenceText)
        (.text tab.referenceText) ∧
      Takes .flag (given? table .notifyOnReselect) (.flag standard.notifyOnReselect)
        (.flag tab.notifyOnReselect) := by
  subst hstandard
  cases hlookup : table.lookup "tab" with
  | none =>
      simp only [readField, hlookup] at h
      cases h
      refine ⟨takes_record fun value hvalue => ?_,
        fun which => takes_of_absent (.padding which) rfl hlookup _,
        takes_of_absent .referenceText rfl hlookup _,
        takes_of_absent .notifyOnReselect rfl hlookup _⟩
      cases hlookup.symm.trans hvalue
  | some value =>
      simp only [readField, hlookup] at h
      obtain ⟨fields, hfields, h⟩ := Option.bind_eq_some_iff.mp h
      obtain ⟨horizontal, hhorizontal, h⟩ := Option.bind_eq_some_iff.mp h
      obtain ⟨vertical, hvertical, h⟩ := Option.bind_eq_some_iff.mp h
      obtain ⟨top, htop, h⟩ := Option.bind_eq_some_iff.mp h
      obtain ⟨content, hcontent, h⟩ := Option.bind_eq_some_iff.mp h
      obtain ⟨text, htext, h⟩ := Option.bind_eq_some_iff.mp h
      obtain ⟨notify, hnotify, h⟩ := Option.bind_eq_some_iff.mp h
      cases h
      rw [given?_of_fields .referenceText rfl hlookup hfields,
        given?_of_fields .notifyOnReselect rfl hlookup hfields]
      refine ⟨takes_record fun value' hvalue => ?_, fun which => ?_, reads_text.takes htext,
        reads_flag.takes hnotify⟩
      · cases hlookup.symm.trans hvalue
        exact exists_fields?_iff.mp ⟨fields, hfields⟩
      · rw [given?_of_fields (.padding which) rfl hlookup hfields]
        cases which with
        | horizontal => exact reads_number.takes hhorizontal
        | vertical => exact reads_number.takes hvertical
        | top => exact reads_number.takes htop
        | content => exact reads_number.takes hcontent

/-- The settings of a document have what it gives under each key. -/
theorem takes_of_ofTable {settings : Settings Float} (h : ofTable? table = some settings)
    (key : Key) : Takes key.kind (given? table key) (standard.datum key) (settings.datum key) := by
  obtain ⟨font, hfont, h⟩ := Option.bind_eq_some_iff.mp h
  obtain ⟨scaleFactor, hscale, h⟩ := Option.bind_eq_some_iff.mp h
  obtain ⟨tab, htab, h⟩ := Option.bind_eq_some_iff.mp h
  cases h
  obtain ⟨hfontRecord, hfamily, hsize⟩ := takes_of_font hfont
  obtain ⟨htabRecord, hpadding, htext, hnotify⟩ := takes_of_tab rfl htab
  cases key with
  | font => exact hfontRecord
  | scaleFactor => exact reads_number.takes hscale
  | tab => exact htabRecord
  | family => exact hfamily
  | size => exact hsize
  | padding which => exact hpadding which
  | referenceText => exact htext
  | notifyOnReselect => exact hnotify

/-- Every value that is given is of the kind that belongs under its key. -/
def Fits (table : Table) : Prop :=
  ∀ key value, given? table key = some value → ∃ datum, Denotes key.kind value datum

theorem Fits.fields (hfits : Fits table) (record : Key) (hrecord : record.record? = none)
    (hkind : record.kind = .record) {value : Value}
    (hlookup : table.lookup record.name = some value) :
    ∃ fields, value.fields? record.names = some fields ∧ ∀ key : Key, key.record? = some record →
      ∀ value, fields key.name = some value → ∃ datum, Denotes key.kind value datum := by
  have hgiven : given? table record = some value := by
    simpa only [given?, hrecord] using hlookup
  obtain ⟨datum, hdatum⟩ := hfits record value hgiven
  rw [hkind] at hdatum
  have hrecord : Denotes .record value .record := by cases hdatum <;> constructor
  obtain ⟨fields, hfields⟩ := exists_fields?_iff.mpr hrecord
  refine ⟨fields, hfields, fun key hkey value hvalue => hfits key value ?_⟩
  exact (given?_of_fields key hkey hlookup hfields).trans hvalue

theorem Fits.font (hfits : Fits table) : ∃ font,
    readField (fun name => table.lookup name) "font" readFont? Font.standard = some font := by
  cases hlookup : table.lookup "font" with
  | none => exact ⟨Font.standard, by simp only [readField, hlookup]⟩
  | some value =>
      obtain ⟨fields, hfields, hfield⟩ := hfits.fields .font rfl rfl hlookup
      obtain ⟨family, hfamily⟩ :=
        reads_text.exists_readField Font.standard.family (hfield .family rfl)
      obtain ⟨size, hsize⟩ := reads_single.exists_readField Font.standard.size (hfield .size rfl)
      have hfont : readFont? value = some ⟨family, size⟩ :=
        Option.bind_eq_some_iff.mpr ⟨fields, hfields,
          Option.bind_eq_some_iff.mpr ⟨family, hfamily,
          Option.bind_eq_some_iff.mpr ⟨size, hsize, rfl⟩⟩⟩
      exact ⟨_, by simpa only [readField, hlookup] using hfont⟩

theorem Fits.tab (hfits : Fits table) (standard : TabSettings Float) : ∃ tab,
    readField (fun name => table.lookup name) "tab" readTab? standard = some tab := by
  cases hlookup : table.lookup "tab" with
  | none => exact ⟨standard, by simp only [readField, hlookup]⟩
  | some value =>
      obtain ⟨fields, hfields, hfield⟩ := hfits.fields .tab rfl rfl hlookup
      have hpadding : ∀ (which : Padding) (standard : Float), ∃ x,
          readField fields which.name Value.float? standard = some x := fun which standard =>
        reads_number.exists_readField standard (hfield (.padding which) rfl)
      obtain ⟨horizontal, hhorizontal⟩ := hpadding .horizontal _
      obtain ⟨vertical, hvertical⟩ := hpadding .vertical _
      obtain ⟨top, htop⟩ := hpadding .top _
      obtain ⟨content, hcontent⟩ := hpadding .content _
      obtain ⟨text, htext⟩ := reads_text.exists_readField _ (hfield .referenceText rfl)
      obtain ⟨notify, hnotify⟩ := reads_flag.exists_readField _ (hfield .notifyOnReselect rfl)
      have htab : readTab? value = some ⟨horizontal, vertical, top, content, text, notify⟩ :=
        Option.bind_eq_some_iff.mpr ⟨fields, hfields,
          Option.bind_eq_some_iff.mpr ⟨horizontal, hhorizontal,
          Option.bind_eq_some_iff.mpr ⟨vertical, hvertical,
          Option.bind_eq_some_iff.mpr ⟨top, htop,
          Option.bind_eq_some_iff.mpr ⟨content, hcontent,
          Option.bind_eq_some_iff.mpr ⟨text, htext,
          Option.bind_eq_some_iff.mpr ⟨notify, hnotify, rfl⟩⟩⟩⟩⟩⟩⟩
      exact ⟨_, by simpa only [readField, hlookup] using htab⟩

theorem Fits.ofTable (hfits : Fits table) : ∃ settings, ofTable? table = some settings := by
  obtain ⟨font, hfont⟩ := hfits.font
  have hscale : ∃ x, readField (fun name => table.lookup name) "scale_factor" Value.float?
      (standard : Settings Float).scaleFactor = some x :=
    reads_number.exists_readField _ (hfits .scaleFactor)
  obtain ⟨scaleFactor, hscale⟩ := hscale
  obtain ⟨tab, htab⟩ := hfits.tab (standard : Settings Float).tab
  exact ⟨⟨font, scaleFactor, tab⟩,
    Option.bind_eq_some_iff.mpr ⟨font, hfont,
    Option.bind_eq_some_iff.mpr ⟨scaleFactor, hscale,
    Option.bind_eq_some_iff.mpr ⟨tab, htab, rfl⟩⟩⟩⟩

theorem overlays_of_ofTable (htable : (Value.table table).Distinct) {settings : Settings Float}
    (h : ofTable? table = some settings) : Overlays table settings := by
  intro key
  obtain ⟨hgiven, habsent⟩ := takes_of_ofTable h key
  refine ⟨fun value hvalue => hgiven value ((holds_iff htable).mp hvalue), fun hnone => habsent ?_⟩
  exact Option.eq_none_iff_forall_ne_some.mpr fun value hvalue =>
    hnone value ((holds_iff htable).mpr hvalue)

theorem ofTable?_eq_none_iff (htable : (Value.table table).Distinct) :
    ofTable? table = none ↔
      ∃ key value, Holds table key value ∧ ¬∃ datum, Denotes key.kind value datum := by
  constructor
  · intro hnone
    by_contra hall
    have hfits : Fits table := fun key value hvalue => by
      by_contra hwrong
      exact hall ⟨key, value, (holds_iff htable).mpr hvalue, hwrong⟩
    obtain ⟨settings, hsettings⟩ := hfits.ofTable
    rw [hnone] at hsettings
    cases hsettings
  · rintro ⟨key, value, hheld, hwrong⟩
    refine Option.eq_none_iff_forall_ne_some.mpr fun settings hsettings => hwrong ?_
    exact ⟨_, (overlays_of_ofTable htable hsettings key).1 value hheld⟩

/-- Documents that hold the same under the keys of settings give the same settings. -/
theorem ofTable?_congr {table' : Table} (htable : (Value.table table).Distinct)
    (htable' : (Value.table table').Distinct)
    (hsame : ∀ key value, Holds table' key value ↔ Holds table key value) :
    ofTable? table' = ofTable? table := by
  cases hsettings : ofTable? table with
  | none =>
      rw [ofTable?_eq_none_iff htable] at hsettings
      rw [ofTable?_eq_none_iff htable']
      simpa only [hsame] using hsettings
  | some settings =>
      have hoverlays := overlays_of_ofTable htable hsettings
      cases hsettings' : ofTable? table' with
      | none =>
          rw [ofTable?_eq_none_iff htable'] at hsettings'
          simp only [hsame] at hsettings'
          rw [(ofTable?_eq_none_iff htable).mpr hsettings'] at hsettings
          cases hsettings
      | some settings' =>
          have hoverlays' : Overlays table settings' := by
            simpa only [Overlays, hsame] using overlays_of_ofTable htable' hsettings'
          rw [hoverlays.unique hoverlays']

end

/-! ## Ranges -/

/-- The value under a key can be laid out with. -/
def InRange (settings : Settings Float) : Key → Prop
  | .scaleFactor => settings.scaleFactor.isFinite ∧ 0 < settings.scaleFactor
  | .size => settings.font.size.isFinite ∧ 0 < settings.font.size
  | .padding which => (settings.tab.padding which).isFinite ∧ 0 ≤ settings.tab.padding which
  | .referenceText => settings.tab.referenceText ≠ ""
  | _ => True

/-- The keys whose values are checked, in this order. -/
def checked : List Key :=
  [.scaleFactor, .size, .padding .horizontal, .padding .vertical, .padding .top, .padding .content,
    .referenceText]

instance (settings : Settings Float) (key : Key) : Decidable (settings.InRange key) :=
  match key with
  | .scaleFactor => inferInstanceAs (Decidable (_ ∧ _))
  | .size => inferInstanceAs (Decidable (_ ∧ _))
  | .padding _ => inferInstanceAs (Decidable (_ ∧ _))
  | .referenceText => inferInstanceAs (Decidable (_ ≠ _))
  | .font | .tab | .family | .notifyOnReselect => inferInstanceAs (Decidable True)

theorem find?_checked (p : Key → Bool) (hscale : p .scaleFactor = false) (hsize : p .size = false) :
    checked.find? p =
      (([Padding.horizontal, .vertical, .top, .content].find? fun which => p (.padding which)).map
        Key.padding).or ([Key.referenceText].find? p) := by
  have hchecked : checked = .scaleFactor :: .size ::
      ([Padding.horizontal, .vertical, .top, .content].map Key.padding ++ [.referenceText]) := rfl
  rw [hchecked, List.find?_cons_of_neg (by simp [hscale]), List.find?_cons_of_neg (by simp [hsize]),
    List.find?_append, List.find?_map]
  rfl

/-- What is reported is the first key out of range. -/
theorem map_field_fault? (settings : Settings Float) :
    settings.fault?.map SettingsFault.field =
      (checked.find? fun key => !decide (settings.InRange key)).map Key.path := by
  unfold fault?
  split
  · rename_i hscale
    have hout : ¬settings.InRange .scaleFactor := hscale
    have hfirst : (checked.find? fun key => !decide (settings.InRange key)) = some .scaleFactor :=
      List.find?_cons_of_pos (by simpa using hout)
    rw [hfirst]
    rfl
  rename_i hscale
  have hscale : settings.InRange .scaleFactor := not_not.mp hscale
  split
  · rename_i hsize
    have hout : ¬settings.InRange .size := hsize
    have hfirst : (checked.find? fun key => !decide (settings.InRange key)) = some .size :=
      (List.find?_cons_of_neg (by simpa using hscale)).trans
        (List.find?_cons_of_pos (by simpa using hout))
    rw [hfirst]
    rfl
  rename_i hsize
  have hsize : settings.InRange .size := not_not.mp hsize
  have hbad : (fun which => !decide (settings.InRange (.padding which))) = fun which =>
      !(Coord.isFinite (settings.tab.padding which) &&
        decide (0 ≤ settings.tab.padding which)) := by
    funext which
    have hrange : settings.InRange (.padding which) ↔
        Coord.isFinite (settings.tab.padding which) ∧ 0 ≤ settings.tab.padding which := Iff.rfl
    simp [hrange]
  rw [find?_checked _ (by simpa using hscale) (by simpa using hsize)]
  dsimp only
  split
  · rename_i which hwhich
    rw [(congrArg (List.find? · _) hbad).trans hwhich]
    rfl
  · rename_i hnone
    rw [(congrArg (List.find? · _) hbad).trans hnone]
    by_cases htext : settings.tab.referenceText = ""
    · have hout : ¬settings.InRange .referenceText := not_not_intro htext
      rw [List.find?_cons_of_pos (by simpa using hout), htext]
      rfl
    · have hin : settings.InRange .referenceText := htext
      rw [List.find?_cons_of_neg (by simpa using hin), if_neg (by simpa using htext)]
      rfl

theorem fault?_eq_none_iff {settings : Settings Float} :
    settings.fault? = none ↔ ∀ key ∈ checked, settings.InRange key := by
  rw [← Option.map_eq_none_iff (f := SettingsFault.field), map_field_fault?, Option.map_eq_none_iff,
    List.find?_eq_none]
  simp

theorem exists_fault?_of_first {settings : Settings Float} {front back : List Key} {key : Key}
    (hsplit : checked = front ++ key :: back) (hfront : ∀ earlier ∈ front, settings.InRange earlier)
    (hkey : ¬settings.InRange key) :
    ∃ fault, settings.fault? = some fault ∧ fault.field = key.path := by
  have hfirst : (checked.find? fun key => !decide (settings.InRange key)) = some key :=
    List.find?_eq_some_iff_append.mpr
      ⟨by simpa using hkey, front, back, hsplit, by simpa using hfront⟩
  refine Option.map_eq_some_iff.mp ?_
  rw [map_field_fault?, hfirst]
  rfl

/-! ## Loading -/

theorem ofText_of_read {text : String} {table : Table} (hread : Toml.read? text = some table) :
    ofText text = match ofTable? table with
      | none => .error .malformed
      | some settings =>
        match settings.fault? with
        | some fault => .error (.invalid fault)
        | none => .ok settings := by
  rw [ofText, hread]
  rfl

theorem ofText_eq_malformed_iff {text : String} {table : Table}
    (hread : Toml.read? text = some table) :
    ofText text = .error .malformed ↔ ofTable? table = none := by
  rw [ofText_of_read hread]
  cases ofTable? table with
  | none => simp
  | some settings => cases hfault : settings.fault? <;> simp [hfault]

theorem ofText_ne_malformed {text : String}
    (h : ((Toml.read? text).bind ofTable?).isSome) : ofText text ≠ .error .malformed := by
  obtain ⟨settings, hsettings⟩ := Option.isSome_iff_exists.mp h
  obtain ⟨table, hread, hloaded⟩ := Option.bind_eq_some_iff.mp hsettings
  simp [ofText_eq_malformed_iff hread, hloaded]

/-- Only a value of a wrong kind makes a document malformed. Otherwise there are settings that have
what the document gives and else what is standard, and loading comes to these or names the first key
that is out of range. What else the document holds, and in which order, makes no difference. -/
theorem ofText_overlay {text : String} {table : Table} (hread : Toml.read? text = some table) :
    (ofText text = .error .malformed ↔
      ∃ key value, Holds table key value ∧ ¬∃ datum, Denotes key.kind value datum) ∧
    (ofText text ≠ .error .malformed →
      ∃ settings, Overlays table settings ∧ (∀ other, Overlays table other → other = settings) ∧
        ((∀ key ∈ checked, settings.InRange key) →
          settings.isValid ∧ ofText text = .ok settings) ∧
        ∀ front key back, checked = front ++ key :: back →
          (∀ earlier ∈ front, settings.InRange earlier) → ¬settings.InRange key →
          ¬settings.isValid ∧
            ∃ fault, ofText text = .error (.invalid fault) ∧ fault.field = key.path) ∧
    ∀ text' table', Toml.read? text' = some table' →
      (∀ key value, Holds table' key value ↔ Holds table key value) →
      ofText text' = ofText text := by
  have hdistinct := Toml.distinct_of_read hread
  refine ⟨(ofText_eq_malformed_iff hread).trans (ofTable?_eq_none_iff hdistinct), fun hformed => ?_,
    fun text' table' hread' hsame => ?_⟩
  · rw [Ne, ofText_eq_malformed_iff hread, ← ne_eq, Option.ne_none_iff_exists'] at hformed
    obtain ⟨settings, hsettings⟩ := hformed
    have hoverlays := overlays_of_ofTable hdistinct hsettings
    refine ⟨settings, hoverlays, fun other hother => hoverlays.unique hother, fun hrange => ?_,
      fun front key back hsplit hfront hkey => ?_⟩
    · have hsound := fault?_eq_none_iff.mpr hrange
      refine ⟨Option.isNone_iff_eq_none.mpr hsound, ?_⟩
      simp [ofText_of_read hread, hsettings, hsound]
    · obtain ⟨fault, hfault, hfield⟩ := exists_fault?_of_first hsplit hfront hkey
      refine ⟨by simp [isValid, hfault], fault, ?_, hfield⟩
      simp [ofText_of_read hread, hsettings, hfault]
  · rw [ofText_of_read hread, ofText_of_read hread',
      ofTable?_congr hdistinct (Toml.distinct_of_read hread') hsame]

/-- Of two values out of range the one that is checked first is named. -/
theorem ofText_overlay_zero :
    ∃ fault, ofText "tab = [-1]\nscale_factor = 0" = .error (.invalid fault) ∧
      fault.field = "scale_factor" := by
  have hzero : (((Toml.read? "tab = [-1]\nscale_factor = 0").bind
      (List.lookup "scale_factor")).bind Value.float?).any fun x => ¬0 < x := by decide +kernel
  obtain ⟨x, hx, hnot⟩ := (Option.any_eq_true _ _).mp hzero
  obtain ⟨value, hvalue, hnumber⟩ := Option.bind_eq_some_iff.mp hx
  obtain ⟨table, hread, hlookup⟩ := Option.bind_eq_some_iff.mp hvalue
  have hformed : ofText "tab = [-1]\nscale_factor = 0" ≠ .error .malformed :=
    ofText_ne_malformed (by decide +kernel)
  obtain ⟨settings, hoverlays, -, -, hfirst⟩ := (ofText_overlay hread).2.1 hformed
  have hdenotes := (hoverlays .scaleFactor).1 value (.top rfl (Toml.mem_of_lookup hlookup))
  have hscale : settings.scaleFactor = x :=
    Datum.number.inj (hdenotes.unique (reads_number.denotes hnumber))
  have hout : ¬settings.InRange .scaleFactor := fun hrange => by
    have hpositive : 0 < x := hscale ▸ hrange.2
    simp [hpositive] at hnot
  exact (hfirst [] .scaleFactor _ rfl nofun hout).2

/-- A date is neither a table nor an array, but it is read as a font. -/
theorem ofText_moment_for_font :
    ∃ table value, Toml.read? "font = 1979-05-27" = some table ∧ Holds table .font value ∧
      (∀ entries, value ≠ .table entries) ∧ (∀ elements, value ≠ .array elements) ∧
      ofText "font = 1979-05-27" ≠ .error .malformed := by
  have hmoment : ((Toml.read? "font = 1979-05-27").bind (List.lookup "font")).any fun
      | .moment _ => true
      | _ => false := by decide +kernel
  obtain ⟨value, hvalue, hkind⟩ := (Option.any_eq_true _ _).mp hmoment
  obtain ⟨table, hread, hlookup⟩ := Option.bind_eq_some_iff.mp hvalue
  refine ⟨table, value, hread, .top rfl (Toml.mem_of_lookup hlookup), ?_, ?_, ?_⟩
  · rintro entries rfl
    cases hkind
  · rintro elements rfl
    cases hkind
  · exact ofText_ne_malformed (by decide +kernel)

end WidgetToolkit.Settings
