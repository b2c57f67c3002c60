import LiteSql.Toml.Basic
import LiteSql.Toml.Scalar

/-!
# Reading TOML text

A reader for TOML 1.0. Lines hold a comment, a header, or a key with a value. Values and
keys may be nested at most 79 deep.

The readers of repeated and nested parts take a bound on the number of steps. There are at
most two steps to a character, so a bound comes from the length of the text.
-/

namespace LiteSql.Toml

/-- A reader takes something from the front of a text. -/
abbrev Reader (α : Type) := StateT Text Option α

/-- Nesting from this depth on is refused. -/
def nestingLimit : Nat := 80

def isSpace (c : Char) : Bool :=
  c == ' ' || c == '\t'

/-- Characters that comments and strings on one line may hold. -/
def isLineChar (c : Char) : Bool :=
  c == '\t' || (0x20 ≤ c.toNat && c.toNat != 0x7F)

/-- Drops spaces and tabs. -/
def skipSpace (s : Text) : Text :=
  s.dropWhile isSpace

/-- What follows a line break at the front. -/
def afterNewLine? : Text → Option Text
  | '\n' :: rest => some rest
  | '\r' :: '\n' :: rest => some rest
  | _ => none

/-- Drops a comment, if there is one. -/
def skipComment : Text → Text
  | '#' :: rest => rest.dropWhile isLineChar
  | s => s

/-- The rest of a line: spaces, a comment, and a line break or the end. -/
def endOfLine? (s : Text) : Option Text :=
  match skipComment (skipSpace s) with
  | [] => some []
  | rest => afterNewLine? rest

/-- Drops spaces, comments and line breaks. A comment ends with its line. -/
def skipLines : Nat → Text → Option Text
  | 0, s => some s
  | fuel + 1, s =>
    match skipSpace s with
    | '#' :: rest => do
      let rest ← afterNewLine? (rest.dropWhile isLineChar)
      skipLines fuel rest
    | rest =>
      match afterNewLine? rest with
      | some rest => skipLines fuel rest
      | none => some rest

/-- The given character. -/
def char (c : Char) : Reader Unit := fun s =>
  match s with
  | d :: rest => if d = c then some ((), rest) else none
  | [] => none

def spaces : Reader Unit := fun s => some ((), skipSpace s)

/-- The character with a number, if there is one. -/
def charOf? (n : Nat) : Option Char :=
  if n.isValidChar then some (Char.ofNat n) else none

/-- The character that an escape with hexadecimal digits stands for. -/
def hexChar? (digits : List Char) : Option Char := do
  let values ← digits.mapM Text.hexValue?
  charOf? (values.foldl (fun n d => 16 * n + d) 0)

/-- The character that a one-letter escape stands for. -/
def simpleEscape? (c : Char) : Option Char :=
  if c = '"' ∨ c = '\\' then some c
  else if c = 'b' then some (Char.ofNat 8)
  else if c = 't' then some '\t'
  else if c = 'n' then some '\n'
  else if c = 'f' then some (Char.ofNat 12)
  else if c = 'r' then some '\r'
  else none

/-- The rest of a string in double quotes. -/
def readBasic? : Text → Option (Text × Text)
  | '"' :: rest => some ([], rest)
  | '\\' :: 'u' :: a :: b :: c :: d :: rest => do
    let first ← hexChar? [a, b, c, d]
    let (others, rest) ← readBasic? rest
    return (first :: others, rest)
  | '\\' :: 'U' :: a :: b :: c :: d :: e :: f :: g :: h :: rest => do
    let first ← hexChar? [a, b, c, d, e, f, g, h]
    let (others, rest) ← readBasic? rest
    return (first :: others, rest)
  | '\\' :: c :: rest => do
    let first ← simpleEscape? c
    let (others, rest) ← readBasic? rest
    return (first :: others, rest)
  | c :: rest =>
    if isLineChar c ∧ c ≠ '\\' then do
      let (others, rest) ← readBasic? rest
      return (c :: others, rest)
    else none
  | [] => none

/-- The rest of a string in single quotes. -/
def readLiteral? : Text → Option (Text × Text)
  | [] => none
  | c :: rest =>
    if c = '\'' then some ([], rest)
    else if isLineChar c then do
      let (others, rest) ← readLiteral? rest
      return (c :: others, rest)
    else none

/-- Whether only spaces are left before the next line break. -/
def atLineEnd (s : Text) : Bool :=
  (afterNewLine? (skipSpace s)).isSome

/-- The rest of a string in three double quotes. One or two quotes may stand before the
closing ones. A backslash at the end of a line drops the white space after it, which is
being dropped while `trimming`. -/
def readLongBasic? : (trimming : Bool) → Text → Option (Text × Text)
  | _, '"' :: '"' :: '"' :: '"' :: '"' :: rest => some (['"', '"'], rest)
  | _, '"' :: '"' :: '"' :: '"' :: rest => some (['"'], rest)
  | _, '"' :: '"' :: '"' :: rest => some ([], rest)
  | trimming, '\r' :: '\n' :: rest => do
    let (others, rest) ← readLongBasic? trimming rest
    return (if trimming then others else '\n' :: others, rest)
  | trimming, '\n' :: rest => do
    let (others, rest) ← readLongBasic? trimming rest
    return (if trimming then others else '\n' :: others, rest)
  | _, '\\' :: 'u' :: a :: b :: c :: d :: rest => do
    let first ← hexChar? [a, b, c, d]
    let (others, rest) ← readLongBasic? false rest
    return (first :: others, rest)
  | _, '\\' :: 'U' :: a :: b :: c :: d :: e :: f :: g :: h :: rest => do
    let first ← hexChar? [a, b, c, d, e, f, g, h]
    let (others, rest) ← readLongBasic? false rest
    return (first :: others, rest)
  | trimming, c :: rest =>
    if c = '\\' then
      if atLineEnd rest then readLongBasic? true rest
      else
        match rest with
        | d :: rest => do
          let first ← simpleEscape? d
          let (others, rest) ← readLongBasic? false rest
          return (first :: others, rest)
        | [] => none
    else if trimming && isSpace c then readLongBasic? true rest
    else if isLineChar c then do
      let (others, rest) ← readLongBasic? false rest
      return (c :: others, rest)
    else none
  | _, [] => none

/-- The rest of a string in three single quotes. -/
def readLongLiteral? : Text → Option (Text × Text)
  | '\'' :: '\'' :: '\'' :: '\'' :: '\'' :: rest => some (['\'', '\''], rest)
  | '\'' :: '\'' :: '\'' :: '\'' :: rest => some (['\''], rest)
  | '\'' :: '\'' :: '\'' :: rest => some ([], rest)
  | '\r' :: '\n' :: rest => do
    let (others, rest) ← readLongLiteral? rest
    return ('\n' :: others, rest)
  | c :: rest =>
    if isLineChar c ∨ c = '\n' then do
      let (others, rest) ← readLongLiteral? rest
      return (c :: others, rest)
    else none
  | [] => none

/-- The text without a line break at its front. -/
def dropNewLine (s : Text) : Text :=
  (afterNewLine? s).getD s

/-- A string of any kind. -/
def readString? : Text → Option (Text × Text)
  | '"' :: '"' :: '"' :: rest => readLongBasic? false (dropNewLine rest)
  | '\'' :: '\'' :: '\'' :: rest => readLongLiteral? (dropNewLine rest)
  | '"' :: rest => readBasic? rest
  | '\'' :: rest => readLiteral? rest
  | _ => none

/-- One part of a key. -/
def keyPart : Reader String := fun s =>
  match s with
  | '"' :: rest => (readBasic? rest).map fun (k, r) => (String.ofList k, r)
  | '\'' :: rest => (readLiteral? rest).map fun (k, r) => (String.ofList k, r)
  | _ =>
    let isBare := fun (c : Char) => c.isAlphanum || c == '-' || c == '_'
    let word := s.takeWhile isBare
    if word.isEmpty then none else some (String.ofList word, s.dropWhile isBare)

/-- The parts of a key, with points between them. -/
def keyParts : Nat → Reader (List String)
  | 0 => failure
  | fuel + 1 => do
    spaces
    let first ← keyPart
    spaces
    match (← get) with
    | '.' :: rest =>
      set rest
      let others ← keyParts fuel
      return first :: others
    | _ => return [first]

/-- A key: the path to its table and its last part. -/
def key : Reader (List String × String) := do
  let parts ← keyParts ((← get).length + 1)
  match parts.getLast? with
  | some last => if parts.length < nestingLimit then return (parts.dropLast, last) else failure
  | none => failure

/-- A word: a truth value, a number, a date, a time, or a date and a time with a space
between them. -/
def readWord? (s : Text) : Option (Toml × Text) :=
  let word := s.takeWhile isWordChar
  let rest := s.dropWhile isWordChar
  if word = "true".toList then some (.bool true, rest)
  else if word = "false".toList then some (.bool false, rest)
  else if isDate word then
    match rest with
    | ' ' :: more =>
      if isZonedTime (more.takeWhile isWordChar) then some (.number, more.dropWhile isWordChar)
      else some (.number, rest)
    | _ => some (.number, rest)
  else if isScalar word then some (.number, rest)
  else none

mutual

/-- A value inside `depth` brackets. -/
def value (depth : Nat) : Nat → Reader Toml
  | 0 => failure
  | fuel + 1 => do
    match (← get) with
    | '[' :: rest =>
      set rest
      if nestingLimit ≤ depth + 1 then failure
      let items ← arrayItems (depth + 1) fuel
      return .array items
    | '\x7b' :: rest =>
      set rest
      if nestingLimit ≤ depth + 1 then failure
      spaces
      match (← get) with
      | '\x7d' :: rest =>
        set rest
        return .table .closed []
      | _ =>
        let pairs ← inlinePairs (depth + 1) fuel
        match ofPairs? pairs ⟨.header, []⟩ with
        | some t => return closedTable t.toToml
        | none => failure
    | '"' :: rest => string ('"' :: rest)
    | '\'' :: rest => string ('\'' :: rest)
    | s =>
      match readWord? s with
      | some (v, rest) =>
        set rest
        return v
      | none => failure
where
  string (s : Text) : Reader Toml := do
    match readString? s with
    | some (content, rest) =>
      set rest
      return .string (String.ofList content)
    | none => failure

/-- The items of an array and its closing bracket; a comma may follow the last item. -/
def arrayItems (depth : Nat) : Nat → Reader (List Toml)
  | 0 => failure
  | fuel + 1 => do
    skipAll
    match (← get) with
    | ']' :: rest =>
      set rest
      return []
    | _ =>
      let item ← value depth fuel
      skipAll
      match (← get) with
      | ',' :: rest =>
        set rest
        let items ← arrayItems depth fuel
        return item :: items
      | ']' :: rest =>
        set rest
        return [item]
      | _ => failure
where
  skipAll : Reader Unit := fun s => (skipLines s.length s).map fun rest => ((), rest)

/-- The pairs of a value in braces and the closing brace. -/
def inlinePairs (depth : Nat) : Nat → Reader (List (List String × String × Toml))
  | 0 => failure
  | fuel + 1 => do
    let (path, name) ← key
    char '='
    spaces
    let v ← value depth fuel
    spaces
    match (← get) with
    | ',' :: rest =>
      set rest
      let pairs ← inlinePairs depth fuel
      return (path, name, v) :: pairs
    | '\x7d' :: rest =>
      set rest
      return [(path, name, v)]
    | _ => failure

end

/-- A document while it is read: its root, and the path of the last header. -/
structure Draft where
  root : Toml.Entries := ⟨.header, []⟩
  current : List String := []

/-- Adds a key to the table of the last header. -/
def Draft.addKey? (d : Draft) (path : List String) (name : String) (v : Toml) : Option Draft := do
  let root ← d.root.update? false (Entries.addKey? path name v) d.current
  return { d with root }

/-- Starts a table by its header. -/
def Draft.openTable? (d : Draft) (path : List String) (name : String) : Option Draft := do
  let root ← d.root.update? false (Entries.openTable? name) path
  return ⟨root, path ++ [name]⟩

/-- Starts the next of repeated tables by its header. -/
def Draft.openNext? (d : Draft) (path : List String) (name : String) : Option Draft := do
  let root ← d.root.update? false (Entries.openNext? name) path
  return ⟨root, path ++ [name]⟩

/-- A header after its first bracket. -/
def header (d : Draft) : Reader Draft := do
  match (← get) with
  | '[' :: rest =>
    set rest
    let (path, name) ← key
    char ']'
    char ']'
    match d.openNext? path name with
    | some d => return d
    | none => failure
  | _ =>
    let (path, name) ← key
    char ']'
    match d.openTable? path name with
    | some d => return d
    | none => failure

/-- A key and its value. -/
def keyValue (d : Draft) : Reader Draft := do
  let (path, name) ← key
  char '='
  spaces
  let v ← value 0 (2 * (← get).length + 1)
  match d.addKey? path name v with
  | some d => return d
  | none => failure

/-- One line, which has something on it. -/
def line (d : Draft) : Reader Draft := do
  match (← get) with
  | '#' :: _ => return d
  | '\n' :: _ => return d
  | '\r' :: _ => return d
  | '[' :: rest =>
    set rest
    header d
  | _ => keyValue d

/-- All lines. -/
def lines : Nat → Draft → Text → Option Draft
  | 0, _, _ => none
  | fuel + 1, d, s =>
    match skipSpace s with
    | [] => some d
    | s => do
      let (d, rest) ← line d s
      let rest ← endOfLine? rest
      lines fuel d rest

/-- Reads a document. A byte order mark at its start is skipped. -/
def ofText? (text : String) : Option Toml.Entries := do
  let s := match text.toList with
    | '\uFEFF' :: rest => rest
    | s => s
  let d ← lines (s.length + 1) {} s
  return d.root

end LiteSql.Toml
