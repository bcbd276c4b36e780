/-!
# Files

The files that settings are read from: a tree of directories seen from one of them, where relative
paths start. Nothing is known to exist outside of it but the directories on the way to its root.
-/

namespace WidgetToolkit

inductive FileContent where
  | bytes (content : List UInt8)
  | directory
deriving DecidableEq, Repr

/-- The content of each file by its path from the starting directory. A path implies the directories
on its way. -/
structure FileTree where
  entries : List (List String × FileContent)
deriving Repr

/-- Why a file cannot be read. -/
inductive ReadError where
  | notFound
  | notADirectory
  | isADirectory
  | nameTooLong
  | notUnicode
  | nulInPath
deriving DecidableEq, Repr

def ReadError.message : ReadError → String
  | .notFound => "No such file or directory (os error 2)"
  | .notADirectory => "Not a directory (os error 20)"
  | .isADirectory => "Is a directory (os error 21)"
  | .nameTooLong => "File name too long (os error 36)"
  | .notUnicode => "stream did not contain valid UTF-8"
  | .nulInPath => "file name contained an unexpected NUL byte"

namespace FileTree

def empty : FileTree := ⟨[]⟩

/-- What stands at a path of names from the starting directory. -/
def lookup (tree : FileTree) (names : List String) : Option FileContent :=
  if names = [] then some .directory
  else match tree.entries.lookup names with
    | some content => some content
    | none =>
      if tree.entries.any fun entry => names.isPrefixOf entry.1 then some .directory else none

/-- Where a path has led so far: to a place below the starting directory, or to one of the
directories above it. -/
inductive Place where
  | below (names : List String)
  | above
deriving DecidableEq, Repr

/-- The number of bytes a name may have. -/
def nameLimit : Nat := 255

/-- The number of bytes a path may have. -/
def pathLimit : Nat := 4095

/-- Follows one name of a path. Only directories can be entered, a name is looked up only if it is
not too long, and one that is empty or a single point stays where it is. -/
def enter (tree : FileTree) (place : Place) (name : String) : Except ReadError Place :=
  match place with
  | .above =>
    if name ∈ ["", ".", ".."] then .ok .above
    else if nameLimit < name.utf8ByteSize then .error .nameTooLong
    else .error .notFound
  | .below names =>
    match tree.lookup names with
    | none => .error .notFound
    | some (.bytes _) => .error .notADirectory
    | some .directory =>
      if name ∈ ["", "."] then .ok (.below names)
      else if name = ".." then .ok (if names = [] then .above else .below names.dropLast)
      else if nameLimit < name.utf8ByteSize then .error .nameTooLong
      else .ok (.below (names ++ [name]))

/-- What a path leads to. -/
def resolve (tree : FileTree) (path : String) : Except ReadError FileContent := do
  if path = "" then throw .notFound
  if pathLimit < path.utf8ByteSize then throw .nameTooLong
  let start : Place := if path.startsWith "/" then .above else .below []
  match ← (path.splitOn "/").foldlM tree.enter start with
  | .above => return .directory
  | .below names =>
    match tree.lookup names with
    | some content => return content
    | none => throw .notFound

def exists? (tree : FileTree) (path : String) : Bool :=
  match tree.resolve path with
  | .ok _ => true
  | .error _ => false

/-- Reads a text file. -/
def readText (tree : FileTree) (path : String) : Except ReadError String := do
  if path.contains '\x00' then throw .nulInPath
  match ← tree.resolve path with
  | .directory => throw .isADirectory
  | .bytes content =>
    match String.fromUTF8? ⟨content.toArray⟩ with
    | some text => return text
    | none => throw .notUnicode

end FileTree

end WidgetToolkit
