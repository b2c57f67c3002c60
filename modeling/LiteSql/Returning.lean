import LiteSql.Error
import LiteSql.Name

/-!
# Hints for columns to fetch again

SQLite statements cannot return columns of the rows that they change. A statement that
should do so ends in a comment, the hint, that names these columns:

    INSERT INTO "m" ("x") VALUES (?1) ;--RETURNING ON INSERT "m","id"

`ReturningHint.text` writes a hint and `splitReturning` splits one off. What comes after
the last marker of a text has to be a hint; a failure reports the byte at which reading
stopped.
-/

namespace LiteSql

/-- The start of a hint. -/
def returningMarker : Text :=
  " ;--RETURNING ON ".toList

/-- The columns to fetch after an operation on a table. -/
structure ReturningHint where
  operation : Operation
  table : QualifiedName
  columns : List String
deriving DecidableEq

namespace ReturningHint

/-- The hint as it ends a statement. -/
def text (h : ReturningHint) : Text :=
  returningMarker ++ h.operation.keyword.toList ++ ' ' ::
    (h.table.quote ++ h.columns.flatMap fun c => ',' :: quoteIdentifier c)

/-- The name of the table as shown to a reader. -/
def tableDescription (h : ReturningHint) : Text :=
  match h.table.schema with
  | some schema => schema.toList ++ '.' :: h.table.name.toList
  | none => h.table.name.toList

end ReturningHint

/-- A reader of hints takes a part from the front of a text, or stops; then it gives
the text at which it stopped. -/
abbrev HintReader (α : Type) := Text → Except Text (α × Text)

namespace HintReader

/-- The given word. -/
def word (w : String) : HintReader Unit := fun s =>
  if w.toList.isPrefixOf s then .ok ((), s.drop w.length) else .error s

/-- The keyword of an operation. -/
def operation : HintReader Operation := fun s =>
  match word Operation.insert.keyword s with
  | .ok (_, rest) => .ok (.insert, rest)
  | .error _ =>
    match word Operation.update.keyword s with
    | .ok (_, rest) => .ok (.update, rest)
    | .error _ =>
      match word Operation.delete.keyword s with
      | .ok (_, rest) => .ok (.delete, rest)
      | .error stop => .error stop

/-- A quoted identifier. -/
def identifier : HintReader String := fun s =>
  match Text.readQuoted '"' s with
  | .ok (name, rest) => .ok (String.ofList name, rest)
  | .error stop => .error stop

/-- A quoted identifier after the given word. -/
def identifierAfter (w : String) : HintReader String := fun s => do
  let (_, rest) ← word w s
  identifier rest

/-- A table name. A point that no quoted identifier follows is left unread. -/
def table : HintReader QualifiedName := fun s => do
  let (first, rest) ← identifier s
  match identifierAfter "." rest with
  | .ok (second, rest) => .ok (⟨some first, second⟩, rest)
  | .error _ => .ok (⟨none, first⟩, rest)

/-- As many columns as there are, at most `fuel` of them. Reading ends before the
first one that is not well formed. -/
def moreColumns : Nat → Text → List String × Text
  | 0, s => ([], s)
  | fuel + 1, s =>
    match identifierAfter "," s with
    | .ok (c, rest) =>
      let (cs, rest) := moreColumns fuel rest
      (c :: cs, rest)
    | .error _ => ([], s)

/-- At least one column. -/
def columns : HintReader (List String) := fun s => do
  let (first, rest) ← identifierAfter "," s
  let (others, rest) := moreColumns rest.length rest
  return (first :: others, rest)

/-- A hint without its marker. -/
def hint : HintReader ReturningHint := fun s => do
  let (operation, rest) ← operation s
  let (_, rest) ← word " " rest
  let (table, rest) ← table rest
  let (columns, rest) ← columns rest
  return (⟨operation, table, columns⟩, rest)

/-- A hint that takes the whole text. -/
def wholeHint (s : Text) : Except Text ReturningHint := do
  let (h, rest) ← hint s
  if rest.isEmpty then .ok h else .error rest

end HintReader

/-- The text before the last marker and the text after it. -/
def splitAtLastMarker : Text → Option (Text × Text)
  | [] => none
  | c :: s =>
    match splitAtLastMarker s with
    | some (before, after) => some (c :: before, after)
    | none =>
      if returningMarker.isPrefixOf (c :: s) then
        some ([], (c :: s).drop returningMarker.length)
      else none

/-- Splits a text into a statement and its hint. A text without a marker has no hint. -/
def splitReturning (sql : String) : Except Error (String × Option ReturningHint) :=
  let s := sql.toList
  match splitAtLastMarker s with
  | none => .ok (sql, none)
  | some (statement, after) =>
    match HintReader.wholeHint after with
    | .ok h => .ok (String.ofList statement, some h)
    | .error stop =>
      .error (.malformedHint (Text.byteLength s - Text.byteLength stop) after)

end LiteSql
