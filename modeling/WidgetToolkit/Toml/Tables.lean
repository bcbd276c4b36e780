import WidgetToolkit.Toml.Value

/-!
# The tables of a document

A document names its tables piece by piece: by headers, by headers of other tables inside them, and
by keys with points. A table is defined once. A header may add to a table that only other headers
have implied, and a key with points only to a table that such keys have made.
-/

namespace WidgetToolkit.Toml

/-- How a table has come about. -/
inductive Origin where
  /-- By a header of its own. -/
  | header
  /-- By the header of a table inside it. -/
  | implied
  /-- By a key with points. -/
  | dotted
deriving DecidableEq, Repr

/-- What stands under a key while a document is read. -/
inductive Node where
  | value (v : Value)
  | table (origin : Origin) (entries : List (String × Node))
  /-- An array of tables: the finished ones, and the entries of the last. -/
  | tables (finished : List Value) (last : List (String × Node))

abbrev Nodes := List (String × Node)

mutual

def Node.toValue : Node → Value
  | .value v => v
  | .table _ entries => .table (toTable entries)
  | .tables finished last => .array (finished ++ [.table (toTable last)])

def toTable : List (String × Node) → Table
  | [] => []
  | (key, node) :: rest => (key, node.toValue) :: toTable rest

end

/-- Replaces what stands under a key. -/
def replace (key : String) (node : Node) (nodes : Nodes) : Nodes :=
  nodes.map fun entry => if entry.1 == key then (key, node) else entry

/-- Changes the table at the end of a path, and makes the tables that are missing on the way. The
change is told how its table has come about. An array of tables is entered at its last table. A path
of keys with points does not lead through a table that has a header. -/
def descend (making : Origin) (change : Origin → Nodes → Option Nodes) :
    List String → Origin → Nodes → Option Nodes
  | [], origin, nodes => change origin nodes
  | key :: path, _, nodes =>
    match nodes.lookup key with
    | none => do
      let inner ← descend making change path making []
      some (nodes ++ [(key, .table making inner)])
    | some (.value _) => none
    | some (.table origin inner) =>
      if making = .dotted ∧ origin = .header then none
      else do
        let inner ← descend making change path origin inner
        some (replace key (.table origin inner) nodes)
    | some (.tables finished last) => do
      let last ← descend making change path .header last
      some (replace key (.tables finished last) nodes)

/-- Puts a value under a key. A key may be given once. The last part of a key with points goes into
a table that such keys have made, and a plain key into any other. -/
def insertValue (path : List String) (key : String) (value : Value) (origin : Origin) (nodes : Nodes) :
    Option Nodes :=
  descend .dotted
    (fun origin nodes =>
      if (origin == .dotted) == path.isEmpty then none
      else if (nodes.lookup key).isSome then none
      else some (nodes ++ [(key, .value value)]))
    path origin nodes

/-- Opens a table by its header. -/
def openTable (path : List String) (key : String) (nodes : Nodes) : Option Nodes :=
  descend .implied
    (fun _ nodes =>
      match nodes.lookup key with
      | none => some (nodes ++ [(key, .table .header [])])
      | some (.table .implied inner) => some (replace key (.table .header inner) nodes)
      | some _ => none)
    path .header nodes

/-- Opens a further table of an array of tables. -/
def openElement (path : List String) (key : String) (nodes : Nodes) : Option Nodes :=
  descend .implied
    (fun _ nodes =>
      match nodes.lookup key with
      | none => some (nodes ++ [(key, .tables [] [])])
      | some (.tables finished last) =>
        some (replace key (.tables (finished ++ [.table (toTable last)]) []) nodes)
      | some _ => none)
    path .header nodes

/-- Changes the table that the last header has opened. -/
def withinTable (path : List String) (change : Origin → Nodes → Option Nodes) (nodes : Nodes) :
    Option Nodes :=
  descend .implied change path .header nodes

end WidgetToolkit.Toml
