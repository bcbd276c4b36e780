/-!
# Characters, keys and strings of TOML

A reader takes something from the front of a text and answers with it and the rest, or refuses the
text.
-/

namespace WidgetToolkit.Toml

/-! ## Space, comments and ends of lines -/

def isSpace (c : Char) : Bool := c == ' ' || c == '\t'

/-- The characters of comments and of strings on one line: no controls but the tab. -/
def isTextChar (c : Char) : Bool :=
  c == '\t' || (0x20 ≤ c.toNat && c.toNat != 0x7f)

def skipSpace (cs : List Char) : List Char := cs.dropWhile isSpace

/-- Takes the end of a line from the front of a text. -/
def newline? : List Char → Option (List Char)
  | '\n' :: rest => some rest
  | '\r' :: '\n' :: rest => some rest
  | _ => none

/-- Takes what may follow the content of a line: space, a comment, and the end of the line or of the
text. -/
def endOfLine? (cs : List Char) : Option (List Char) :=
  let rest := match skipSpace cs with
    | '#' :: rest => rest.dropWhile isTextChar
    | rest => rest
  if rest.isEmpty then some [] else newline? rest

/-- Skips space, ends of lines and comments. The flag tells whether a comment has begun. -/
def skipBlank : Bool → List Char → List Char
  | _, [] => []
  | comment, c :: rest =>
    if c = '\n' then skipBlank false rest
    else if c = '\r' ∧ (newline? (c :: rest)).isSome then skipBlank comment rest
    else if comment then (if isTextChar c then skipBlank true rest else c :: rest)
    else if isSpace c then skipBlank false rest
    else if c = '#' then skipBlank true rest
    else c :: rest

/-! ## Strings -/

def hexValue? (c : Char) : Option Nat :=
  if c.isDigit then some (c.toNat - '0'.toNat)
  else if 'a' ≤ c ∧ c ≤ 'f' then some (c.toNat - 'a'.toNat + 10)
  else if 'A' ≤ c ∧ c ≤ 'F' then some (c.toNat - 'A'.toNat + 10)
  else none

/-- The character with a code point in hexadecimal digits. -/
def codePoint? (digits : List Char) : Option Char := do
  let n ← digits.foldlM (fun n c => (hexValue? c).map (16 * n + ·)) 0
  if n.isValidChar then some (Char.ofNat n) else none

/-- The character that a letter behind a backslash stands for. -/
def escaped? : Char → Option Char
  | 'b' => some '\x08'
  | 't' => some '\t'
  | 'n' => some '\n'
  | 'f' => some '\x0c'
  | 'r' => some '\r'
  | '"' => some '"'
  | '\\' => some '\\'
  | _ => none

/-- Puts a character in front of what a reader has taken. -/
def prepend (c : Char) (taken : List Char × List Char) : List Char × List Char :=
  (c :: taken.1, taken.2)

/-- The rest of a string behind its opening quote. -/
def basicString? : List Char → Option (List Char × List Char)
  | [] => none
  | '"' :: rest => some ([], rest)
  | '\\' :: 'u' :: a :: b :: c :: d :: rest => do
    return prepend (← codePoint? [a, b, c, d]) (← basicString? rest)
  | '\\' :: 'U' :: a :: b :: c :: d :: e :: f :: g :: h :: rest => do
    return prepend (← codePoint? [a, b, c, d, e, f, g, h]) (← basicString? rest)
  | '\\' :: c :: rest => do return prepend (← escaped? c) (← basicString? rest)
  | c :: rest => if isTextChar c then (basicString? rest).map (prepend c) else none

/-- The rest of a literal string behind its opening quote. -/
def literalString? : List Char → Option (List Char × List Char)
  | [] => none
  | '\'' :: rest => some ([], rest)
  | c :: rest => if isTextChar c then (literalString? rest).map (prepend c) else none

/-- The rest of a string over several lines behind its three quotes. Up to two quotes may stand
before the three that close it. The flag tells whether the string is being joined after a backslash
at the end of a line, where space and ends of lines do not count. -/
def basicLines? : Bool → List Char → Option (List Char × List Char)
  | _, [] => none
  | _, '"' :: '"' :: '"' :: '"' :: '"' :: rest => some (['"', '"'], rest)
  | _, '"' :: '"' :: '"' :: '"' :: rest => some (['"'], rest)
  | _, '"' :: '"' :: '"' :: rest => some ([], rest)
  | joining, '\n' :: rest =>
    if joining then basicLines? true rest else (basicLines? false rest).map (prepend '\n')
  | joining, '\r' :: '\n' :: rest =>
    if joining then basicLines? true rest else (basicLines? false rest).map (prepend '\n')
  | _, '\\' :: 'u' :: a :: b :: c :: d :: rest => do
    return prepend (← codePoint? [a, b, c, d]) (← basicLines? false rest)
  | _, '\\' :: 'U' :: a :: b :: c :: d :: e :: f :: g :: h :: rest => do
    return prepend (← codePoint? [a, b, c, d, e, f, g, h]) (← basicLines? false rest)
  | _, '\\' :: c :: rest =>
    if isSpace c ∨ c = '\n' ∨ c = '\r' then
      if (newline? (skipSpace (c :: rest))).isSome then basicLines? true (c :: rest) else none
    else do return prepend (← escaped? c) (← basicLines? false rest)
  | joining, c :: rest =>
    if joining && isSpace c then basicLines? true rest
    else if isTextChar c then (basicLines? false rest).map (prepend c) else none

/-- The rest of a literal string over several lines behind its three quotes. -/
def literalLines? : List Char → Option (List Char × List Char)
  | [] => none
  | '\'' :: '\'' :: '\'' :: '\'' :: '\'' :: rest => some (['\'', '\''], rest)
  | '\'' :: '\'' :: '\'' :: '\'' :: rest => some (['\''], rest)
  | '\'' :: '\'' :: '\'' :: rest => some ([], rest)
  | '\n' :: rest => (literalLines? rest).map (prepend '\n')
  | '\r' :: '\n' :: rest => (literalLines? rest).map (prepend '\n')
  | c :: rest => if isTextChar c then (literalLines? rest).map (prepend c) else none

/-- An end of line directly behind three opening quotes does not belong to the string. -/
def dropNewline (cs : List Char) : List Char := (newline? cs).getD cs

/-- A string of any of the four kinds. -/
def string? (cs : List Char) : Option (String × List Char) := do
  let (taken, rest) ← match cs with
    | '"' :: '"' :: '"' :: rest => basicLines? false (dropNewline rest)
    | '"' :: rest => basicString? rest
    | '\'' :: '\'' :: '\'' :: rest => literalLines? (dropNewline rest)
    | '\'' :: rest => literalString? rest
    | _ => none
  some (String.ofList taken, rest)

/-! ## Keys -/

def isBareKeyChar (c : Char) : Bool := c.isAlphanum || c == '_' || c == '-'

/-- One part of a key, with space before it. -/
def keyPart? (cs : List Char) : Option (String × List Char) :=
  match skipSpace cs with
  | '"' :: rest => (basicString? rest).map fun (taken, rest) => (String.ofList taken, rest)
  | '\'' :: rest => (literalString? rest).map fun (taken, rest) => (String.ofList taken, rest)
  | cs =>
    let taken := cs.takeWhile isBareKeyChar
    if taken.isEmpty then none else some (String.ofList taken, cs.dropWhile isBareKeyChar)

/-- A key of at most `limit` parts with points between them, and the space around it. -/
def key? : (limit : Nat) → List Char → Option (List String × List Char)
  | 0, _ => none
  | limit + 1, cs => do
    let (part, rest) ← keyPart? cs
    match skipSpace rest with
    | '.' :: rest => do
      let (parts, rest) ← key? limit rest
      some (part :: parts, rest)
    | rest => some ([part], rest)

end WidgetToolkit.Toml
