import Mathlib.Data.List.Nodup
import WidgetToolkit.Toml.Document

/-! # The keys of a document

A table of a document gives no key twice, however its pieces were named. So it does not matter in
which order a table is gone through. -/

namespace WidgetToolkit.Toml

/-! ## Lookups -/

section

variable {α : Type} {entries entries' : List (String × α)} {key : String} {a : α}

theorem mem_of_lookup (h : entries.lookup key = some a) : (key, a) ∈ entries := by
  obtain ⟨front, back, rfl, -⟩ := List.lookup_eq_some_iff.mp h
  simp

theorem lookup_eq_some_iff_mem (hkeys : (entries.map Prod.fst).Nodup) :
    entries.lookup key = some a ↔ (key, a) ∈ entries := by
  refine ⟨mem_of_lookup, fun hmem => ?_⟩
  obtain ⟨front, back, rfl⟩ := List.append_of_mem hmem
  refine List.lookup_eq_some_iff.mpr ⟨front, back, rfl, fun entry hentry => ?_⟩
  rw [List.map_append, List.nodup_append] at hkeys
  simpa using (hkeys.2.2 entry.1 (List.mem_map_of_mem hentry) key (by simp)).symm

theorem not_mem_keys_of_lookup (h : entries.lookup key = none) : key ∉ entries.map Prod.fst := by
  intro hmem
  obtain ⟨entry, hentry, rfl⟩ := List.mem_map.mp hmem
  simpa using List.lookup_eq_none_iff.mp h entry hentry

end

/-! ## Values and nodes -/

/-- No table in a value gives a key twice. -/
inductive Value.Distinct : Value → Prop
  | text (s : String) : Distinct (.text s)
  | integer (n : Int) : Distinct (.integer n)
  | number (x : Float) : Distinct (.number x)
  | flag (b : Bool) : Distinct (.flag b)
  | moment (s : String) : Distinct (.moment s)
  | array {elements : List Value} (helements : ∀ v ∈ elements, v.Distinct) :
      Distinct (.array elements)
  | table {entries : List (String × Value)} (hkeys : (entries.map Prod.fst).Nodup)
      (hentries : ∀ entry ∈ entries, entry.2.Distinct) : Distinct (.table entries)

/-- No table in what stands under a key gives a key twice. -/
inductive Node.Distinct : Node → Prop
  | value {v : Value} (hvalue : v.Distinct) : Distinct (.value v)
  | table {origin : Origin} {entries : List (String × Node)} (hkeys : (entries.map Prod.fst).Nodup)
      (hentries : ∀ entry ∈ entries, entry.2.Distinct) : Distinct (.table origin entries)
  | tables {finished : List Value} {last : List (String × Node)}
      (hfinished : ∀ v ∈ finished, v.Distinct) (hkeys : (last.map Prod.fst).Nodup)
      (hlast : ∀ entry ∈ last, entry.2.Distinct) : Distinct (.tables finished last)

/-- A table that is being read gives no key twice, and neither do those in it. -/
structure Nodes.Distinct (nodes : Nodes) : Prop where
  keys : (nodes.map Prod.fst).Nodup
  entries : ∀ entry ∈ nodes, entry.2.Distinct

theorem toTable_eq_map (nodes : Nodes) :
    toTable nodes = nodes.map fun entry => (entry.1, entry.2.toValue) := by
  induction nodes with
  | nil => rw [toTable, List.map_nil]
  | cons entry rest ih => rw [toTable, ih, List.map_cons]

theorem keys_toTable (nodes : Nodes) : (toTable nodes).map Prod.fst = nodes.map Prod.fst := by
  rw [toTable_eq_map, List.map_map]
  rfl

theorem distinct_toTable {nodes : Nodes} (hkeys : (nodes.map Prod.fst).Nodup)
    (hentries : ∀ entry ∈ nodes, entry.2.toValue.Distinct) :
    (Value.table (toTable nodes)).Distinct := by
  refine .table (keys_toTable nodes ▸ hkeys) fun entry hentry => ?_
  rw [toTable_eq_map] at hentry
  obtain ⟨entry, hmem, rfl⟩ := List.mem_map.mp hentry
  exact hentries entry hmem

theorem Node.Distinct.toValue {node : Node} (h : node.Distinct) : node.toValue.Distinct := by
  induction h with
  | value hvalue => rwa [Node.toValue]
  | table hkeys _ ih =>
      rw [Node.toValue]
      exact distinct_toTable hkeys ih
  | tables hfinished hkeys _ ih =>
      rw [Node.toValue]
      refine .array fun v hv => ?_
      rcases List.mem_append.mp hv with hv | hv
      · exact hfinished v hv
      · rw [List.mem_singleton.mp hv]
        exact distinct_toTable hkeys ih

theorem Nodes.Distinct.toTable {nodes : Nodes} (h : nodes.Distinct) :
    (Value.table (toTable nodes)).Distinct :=
  distinct_toTable h.keys fun entry hentry => (h.entries entry hentry).toValue

theorem Nodes.distinct_nil : Nodes.Distinct [] := ⟨List.nodup_nil, nofun⟩

/-! ## Changes -/

theorem Nodes.Distinct.append {nodes : Nodes} (h : nodes.Distinct) {key : String} {node : Node}
    (hfree : nodes.lookup key = none) (hnode : node.Distinct) :
    Nodes.Distinct (nodes ++ [(key, node)]) := by
  refine ⟨?_, fun entry hentry => ?_⟩
  · rw [List.map_append, List.map_singleton, ← List.concat_eq_append]
    exact h.keys.concat (not_mem_keys_of_lookup hfree)
  · rcases List.mem_append.mp hentry with hentry | hentry
    · exact h.entries entry hentry
    · rw [List.mem_singleton.mp hentry]
      exact hnode

theorem Nodes.Distinct.replace {nodes : Nodes} (h : nodes.Distinct) (key : String) {node : Node}
    (hnode : node.Distinct) : Nodes.Distinct (replace key node nodes) := by
  have hkeys : (Toml.replace key node nodes).map Prod.fst = nodes.map Prod.fst := by
    rw [Toml.replace, List.map_map]
    refine List.map_congr_left fun entry _ => ?_
    by_cases hkey : entry.1 == key <;> simp_all
  refine ⟨hkeys ▸ h.keys, fun entry hentry => ?_⟩
  obtain ⟨old, hold, rfl⟩ := List.mem_map.mp hentry
  split
  · exact hnode
  · exact h.entries old hold

theorem Nodes.Distinct.lookup {nodes : Nodes} (h : nodes.Distinct) {key : String} {node : Node}
    (hlookup : nodes.lookup key = some node) : node.Distinct :=
  h.entries _ (mem_of_lookup hlookup)

/-- A change that makes no key stand twice. -/
def KeepsDistinct (change : Nodes → Option Nodes) : Prop :=
  ∀ {nodes nodes'}, Nodes.Distinct nodes → change nodes = some nodes' → Nodes.Distinct nodes'

theorem keepsDistinct_descend {making : Origin} {change : Origin → Nodes → Option Nodes}
    (hchange : ∀ origin, KeepsDistinct (change origin)) (path : List String) (origin : Origin) :
    KeepsDistinct (descend making change path origin) := by
  induction path generalizing origin with
  | nil => exact hchange origin
  | cons key path ih =>
      intro nodes nodes' hnodes hdescend
      rw [descend] at hdescend
      split at hdescend
      · rename_i hfree
        obtain ⟨inner, hinner, rfl⟩ := by simpa [Option.bind_eq_some_iff] using hdescend
        have hdistinct := ih making Nodes.distinct_nil hinner
        exact hnodes.append hfree (.table hdistinct.keys hdistinct.entries)
      · contradiction
      · rename_i origin inner hlookup
        split at hdescend
        · contradiction
        · obtain ⟨inner', hinner, rfl⟩ := by simpa [Option.bind_eq_some_iff] using hdescend
          cases hnodes.lookup hlookup with
          | table hkeys hentries =>
              have hdistinct := ih origin ⟨hkeys, hentries⟩ hinner
              exact hnodes.replace key (.table hdistinct.keys hdistinct.entries)
      · rename_i finished last hlookup
        obtain ⟨last', hlast, rfl⟩ := by simpa [Option.bind_eq_some_iff] using hdescend
        cases hnodes.lookup hlookup with
        | tables hfinished hkeys hentries =>
            have hdistinct := ih .header ⟨hkeys, hentries⟩ hlast
            exact hnodes.replace key (.tables hfinished hdistinct.keys hdistinct.entries)

theorem keepsDistinct_insertValue (path : List String) (key : String) {v : Value}
    (hv : v.Distinct) (origin : Origin) : KeepsDistinct (insertValue path key v origin) := by
  refine keepsDistinct_descend (fun origin nodes nodes' hnodes hinsert => ?_) path origin
  split at hinsert
  · contradiction
  · split at hinsert
    · contradiction
    · rename_i hfree
      cases hinsert
      exact hnodes.append (Option.not_isSome_iff_eq_none.mp hfree) (.value hv)

theorem keepsDistinct_openTable (path : List String) (key : String) :
    KeepsDistinct (openTable path key) := by
  refine keepsDistinct_descend (fun origin nodes nodes' hnodes hopen => ?_) path .header
  split at hopen
  · rename_i hfree
    cases hopen
    exact hnodes.append hfree (.table List.nodup_nil nofun)
  · rename_i inner hlookup
    cases hopen
    cases hnodes.lookup hlookup with
    | table hkeys hentries => exact hnodes.replace key (.table hkeys hentries)
  · contradiction

theorem keepsDistinct_openElement (path : List String) (key : String) :
    KeepsDistinct (openElement path key) := by
  refine keepsDistinct_descend (fun origin nodes nodes' hnodes hopen => ?_) path .header
  split at hopen
  · rename_i hfree
    cases hopen
    exact hnodes.append hfree (.tables nofun List.nodup_nil nofun)
  · rename_i finished last hlookup
    cases hopen
    cases hnodes.lookup hlookup with
    | tables hfinished hkeys hentries =>
        refine hnodes.replace key (.tables (fun v hv => ?_) List.nodup_nil nofun)
        rcases List.mem_append.mp hv with hv | hv
        · exact hfinished v hv
        · rw [List.mem_singleton.mp hv]
          exact Nodes.Distinct.toTable ⟨hkeys, hentries⟩
  · contradiction

/-! ## Readers -/

/-- A reader of values in which no table gives a key twice. -/
def ReadsDistinct (value? : List Char → Option (Value × List Char)) : Prop :=
  ∀ {cs v rest}, value? cs = some (v, rest) → v.Distinct

theorem readsDistinct_moment : ReadsDistinct moment? := by
  intro cs v rest h
  unfold moment? at h
  dsimp only at h
  split at h
  · obtain ⟨rfl, -⟩ := Prod.mk.inj (Option.some.inj h)
    exact .moment _
  · obtain ⟨behind, -, h⟩ := Option.bind_eq_some_iff.mp h
    obtain ⟨rfl, -⟩ := Prod.mk.inj (Option.some.inj h)
    exact .moment _

theorem readsDistinct_inBase (base : Nat) : ReadsDistinct (inBase? base) := by
  intro cs v rest h
  obtain ⟨⟨digits, behind⟩, -, h⟩ := Option.bind_eq_some_iff.mp h
  obtain ⟨-, h⟩ := Option.ite_none_right_eq_some.mp h
  obtain ⟨rfl, -⟩ := Prod.mk.inj (Option.some.inj h)
  exact .integer _

theorem readsDistinct_decimal (negative : Bool) : ReadsDistinct (decimal? negative) := by
  intro cs v rest h
  obtain ⟨⟨whole, behind⟩, -, h⟩ := Option.bind_eq_some_iff.mp h
  obtain ⟨⟨fraction, behind'⟩, -, h⟩ := Option.bind_eq_some_iff.mp h
  obtain ⟨⟨exponent, behind''⟩, -, h⟩ := Option.bind_eq_some_iff.mp h
  by_cases hwhole : fraction.isNone ∧ exponent.isNone
  · obtain ⟨-, h⟩ := Option.ite_none_right_eq_some.mp ((if_pos hwhole).symm.trans h)
    obtain ⟨rfl, -⟩ := Prod.mk.inj (Option.some.inj h)
    exact .integer _
  · obtain ⟨-, h⟩ := Option.ite_none_right_eq_some.mp ((if_neg hwhole).symm.trans h)
    obtain ⟨rfl, -⟩ := Prod.mk.inj (Option.some.inj h)
    exact .number _

theorem readsDistinct_signed (negative : Bool) : ReadsDistinct (signed? negative) := by
  intro cs v rest h
  unfold signed? at h
  split at h
  · obtain ⟨rfl, -⟩ := Prod.mk.inj (Option.some.inj h)
    exact .number _
  · obtain ⟨rfl, -⟩ := Prod.mk.inj (Option.some.inj h)
    exact .number _
  · exact readsDistinct_decimal _ h

theorem readsDistinct_number : ReadsDistinct number? := by
  intro cs v rest h
  unfold number? at h
  split at h
  · exact readsDistinct_inBase 16 h
  · exact readsDistinct_inBase 8 h
  · exact readsDistinct_inBase 2 h
  · exact readsDistinct_signed _ h

/-- A value other than a collection holds no table. -/
theorem readsDistinct_scalar : ReadsDistinct scalar? := by
  intro cs v rest h
  unfold scalar? at h
  split at h
  · obtain ⟨⟨s, behind⟩, -, h⟩ := Option.map_eq_some_iff.mp h
    cases h
    exact .text s
  · obtain ⟨⟨s, behind⟩, -, h⟩ := Option.map_eq_some_iff.mp h
    cases h
    exact .text s
  · cases h
    exact .flag true
  · cases h
    exact .flag false
  · rcases Option.or_eq_some_iff.mp h with h | ⟨-, h⟩
    · exact readsDistinct_moment h
    · exact readsDistinct_number h

theorem distinct_of_elements {value? : List Char → Option (Value × List Char)}
    (hvalue : ReadsDistinct value?) {steps : Nat} {cs rest : List Char} {vs : List Value}
    (h : elements? value? steps cs = some (vs, rest)) : ∀ v ∈ vs, v.Distinct := by
  induction steps generalizing cs vs with
  | zero => contradiction
  | succ steps ih =>
      rw [elements?] at h
      split at h
      · cases h
        nofun
      · obtain ⟨⟨v, behind⟩, hv, h⟩ := Option.bind_eq_some_iff.mp h
        dsimp only at h
        split at h
        · obtain ⟨⟨others, behind⟩, hothers, h⟩ := Option.bind_eq_some_iff.mp h
          cases h
          exact List.forall_mem_cons.mpr ⟨hvalue hv, ih hothers⟩
        · cases h
          exact List.forall_mem_cons.mpr ⟨hvalue hv, nofun⟩
        · contradiction

theorem distinct_of_keyValue {value? : List Char → Option (Value × List Char)}
    (hvalue : ReadsDistinct value?) {cs rest : List Char} {path : List String} {key : String}
    {v : Value} (h : keyValue? value? cs = some ((path, key, v), rest)) : v.Distinct := by
  obtain ⟨⟨parts, behind⟩, -, h⟩ := Option.bind_eq_some_iff.mp h
  obtain ⟨⟨path', key'⟩, -, h⟩ := Option.bind_eq_some_iff.mp h
  obtain ⟨behind', -, h⟩ := Option.bind_eq_some_iff.mp h
  obtain ⟨⟨v', rest'⟩, hv, h⟩ := Option.bind_eq_some_iff.mp h
  cases h
  exact hvalue hv

theorem distinct_of_inlineEntries {value? : List Char → Option (Value × List Char)}
    (hvalue : ReadsDistinct value?) {steps : Nat} {nodes nodes' : Nodes} {cs rest : List Char}
    (hnodes : nodes.Distinct) (h : inlineEntries? value? steps nodes cs = some (nodes', rest)) :
    nodes'.Distinct := by
  induction steps generalizing cs nodes with
  | zero => contradiction
  | succ steps ih =>
      rw [inlineEntries?] at h
      obtain ⟨⟨⟨path, key, v⟩, behind⟩, hentry, h⟩ := Option.bind_eq_some_iff.mp h
      obtain ⟨inserted, hinsert, h⟩ := Option.bind_eq_some_iff.mp h
      have hv := distinct_of_keyValue hvalue hentry
      have hinserted := keepsDistinct_insertValue path key hv .header hnodes hinsert
      split at h
      · exact ih hinserted h
      · cases h
        exact hinserted
      · contradiction

theorem readsDistinct_value (depth : Nat) : ReadsDistinct (value? depth) := by
  induction depth with
  | zero => exact readsDistinct_scalar
  | succ depth ih =>
      intro cs v rest h
      unfold value? at h
      split at h
      · obtain ⟨⟨vs, behind⟩, helements, h⟩ := Option.map_eq_some_iff.mp h
        cases h
        exact .array (distinct_of_elements ih helements)
      · split at h
        · cases h
          exact .table List.nodup_nil nofun
        · obtain ⟨⟨nodes, behind⟩, hentries, h⟩ := Option.map_eq_some_iff.mp h
          cases h
          exact (distinct_of_inlineEntries ih Nodes.distinct_nil hentries).toTable
      · exact readsDistinct_scalar h

theorem distinct_of_lines {steps : Nat} {path : List String} {nodes nodes' : Nodes} {cs : List Char}
    (hnodes : nodes.Distinct) (h : lines? steps path nodes cs = some nodes') : nodes'.Distinct := by
  induction steps generalizing path nodes cs with
  | zero => contradiction
  | succ steps ih =>
      rw [lines?] at h
      split at h
      · cases h
        exact hnodes
      · obtain ⟨⟨⟨outer, key⟩, behind⟩, -, h⟩ := Option.bind_eq_some_iff.mp h
        obtain ⟨behind', -, h⟩ := Option.bind_eq_some_iff.mp h
        obtain ⟨behind'', -, h⟩ := Option.bind_eq_some_iff.mp h
        obtain ⟨opened, hopen, h⟩ := Option.bind_eq_some_iff.mp h
        exact ih (keepsDistinct_openElement outer key hnodes hopen) h
      · obtain ⟨⟨⟨outer, key⟩, behind⟩, -, h⟩ := Option.bind_eq_some_iff.mp h
        obtain ⟨opened, hopen, h⟩ := Option.bind_eq_some_iff.mp h
        obtain ⟨behind', -, h⟩ := Option.bind_eq_some_iff.mp h
        exact ih (keepsDistinct_openTable outer key hnodes hopen) h
      · split at h
        · exact ih hnodes h
        · obtain ⟨⟨⟨inner, key, v⟩, behind⟩, hentry, h⟩ := Option.bind_eq_some_iff.mp h
          obtain ⟨inserted, hinsert, h⟩ := Option.bind_eq_some_iff.mp h
          obtain ⟨behind', -, h⟩ := Option.bind_eq_some_iff.mp h
          have hv := distinct_of_keyValue (readsDistinct_value nestingLimit) hentry
          refine ih (keepsDistinct_descend (fun origin => ?_) path .header hnodes hinsert) h
          exact keepsDistinct_insertValue inner key hv origin

/-- No table of a document gives a key twice. -/
theorem distinct_of_read {text : String} {table : Table} (h : read? text = some table) :
    (Value.table table).Distinct := by
  obtain ⟨nodes, hlines, rfl⟩ := Option.map_eq_some_iff.mp h
  exact (distinct_of_lines Nodes.distinct_nil hlines).toTable

end WidgetToolkit.Toml
