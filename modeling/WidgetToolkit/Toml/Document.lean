import WidgetToolkit.Toml.Scalar
import WidgetToolkit.Toml.Tables

/-!
# Documents

A TOML 1.0 document is read as one table. Collections may be nested up to a fixed depth, and keys
have a bounded number of parts.
-/

namespace WidgetToolkit.Toml

/-- The deepest nesting of arrays and inline tables, and the most parts of a key. -/
def nestingLimit : Nat := 79

/-- Splits the parts of a key into a path and the last one. -/
def splitKey? (parts : List String) : Option (List String × String) :=
  parts.getLast?.map fun key => (parts.dropLast, key)

/-- The elements of an array behind its opening bracket. A comma may stand behind the last. -/
def elements? (value? : List Char → Option (Value × List Char)) :
    (steps : Nat) → List Char → Option (List Value × List Char)
  | 0, _ => none
  | steps + 1, cs =>
    match skipBlank false cs with
    | ']' :: rest => some ([], rest)
    | cs => do
      let (v, rest) ← value? cs
      match skipBlank false rest with
      | ',' :: rest => do
        let (vs, rest) ← elements? value? steps rest
        some (v :: vs, rest)
      | ']' :: rest => some ([v], rest)
      | _ => none

/-- A key and its value, with space before the value. -/
def keyValue? (value? : List Char → Option (Value × List Char)) (cs : List Char) :
    Option ((List String × String × Value) × List Char) := do
  let (parts, rest) ← key? nestingLimit cs
  let (path, key) ← splitKey? parts
  let (v, rest) ← value? (skipSpace (← take? '=' rest))
  some ((path, key, v), rest)

/-- The entries of an inline table from the next one on. No comma stands behind the last. -/
def inlineEntries? (value? : List Char → Option (Value × List Char)) :
    (steps : Nat) → Nodes → List Char → Option (Nodes × List Char)
  | 0, _, _ => none
  | steps + 1, nodes, cs => do
    let ((path, key, v), rest) ← keyValue? value? cs
    let nodes ← insertValue path key v .header nodes
    match skipSpace rest with
    | ',' :: rest => inlineEntries? value? steps nodes rest
    | '}' :: rest => some (nodes, rest)
    | _ => none

/-- A value whose collections are nested at most so deep. -/
def value? : (depth : Nat) → List Char → Option (Value × List Char)
  | 0, cs => scalar? cs
  | depth + 1, cs =>
    match cs with
    | '[' :: rest =>
      (elements? (value? depth) (rest.length + 1) rest).map fun (vs, rest) => (.array vs, rest)
    | '{' :: rest =>
      match skipSpace rest with
      | '}' :: rest => some (.table [], rest)
      | rest =>
        (inlineEntries? (value? depth) (rest.length + 1) [] rest).map fun (nodes, rest) =>
          (.table (toTable nodes), rest)
    | _ => scalar? cs

/-- A header behind its opening brackets. -/
def header? (cs : List Char) : Option ((List String × String) × List Char) := do
  let (parts, rest) ← key? nestingLimit cs
  let rest ← take? ']' rest
  some (← splitKey? parts, rest)

/-- The lines of a document from the present one on. The path is that of the last header. -/
def lines? : (steps : Nat) → (path : List String) → Nodes → List Char → Option Nodes
  | 0, _, _, _ => none
  | steps + 1, path, nodes, cs =>
    match skipSpace cs with
    | [] => some nodes
    | '[' :: '[' :: rest => do
      let ((outer, key), rest) ← header? rest
      let rest ← endOfLine? (← take? ']' rest)
      lines? steps (outer ++ [key]) (← openElement outer key nodes) rest
    | '[' :: rest => do
      let ((outer, key), rest) ← header? rest
      lines? steps (outer ++ [key]) (← openTable outer key nodes) (← endOfLine? rest)
    | cs =>
      match endOfLine? cs with
      | some rest => lines? steps path nodes rest
      | none => do
        let ((inner, key, v), rest) ← keyValue? (value? nestingLimit) cs
        let nodes ← withinTable path (insertValue inner key v) nodes
        lines? steps path nodes (← endOfLine? rest)

/-- Reads a document. A byte order mark in front of it is skipped. -/
def read? (text : String) : Option Table :=
  let cs := match text.toList with
    | '\ufeff' :: rest => rest
    | cs => cs
  (lines? (cs.length + 1) [] [] cs).map toTable

end WidgetToolkit.Toml
