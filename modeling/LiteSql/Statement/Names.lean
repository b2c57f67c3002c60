import LiteSql.Query
import LiteSql.Statement.Params

/-!
# Names of sources

In a SELECT every source gets a handle made of one letter and its position: `p0` for
the table `posts` in first place, `f1` for a fragment in second place. A bulk
statement has no such handles, so fields are written with the name of the table.
-/

namespace LiteSql

/-- The handle of a source in a SELECT. The letter of a table is the first letter of
its name, or `t` when the name does not start with an ASCII letter. -/
def Source.handle (source : Source) (position : Nat) : Text :=
  match source with
  | .table name _ =>
    let letter := match name.toList with
      | c :: _ => if c.isAlpha then c else 't'
      | [] => 't'
    letter :: Text.digits position
  | .fragment _ => 'f' :: Text.digits position

/-- How a statement refers to its sources. -/
inductive NameMode
  | select
  | bulk
deriving DecidableEq

/-- A source and the text by which expressions reach it. -/
structure NamedSource where
  source : Source
  handle : Text
  /-- The quoted name of a table; fragments have none. -/
  table : Option Text

/-- A source in its place in a statement. -/
def Source.named (source : Source) (schema : Option String) (mode : NameMode) (position : Nat) :
    NamedSource :=
  match source with
  | .table name _ =>
    let table := QualifiedName.quote ⟨schema, name⟩
    ⟨source, if mode = .bulk then table else source.handle position, some table⟩
  | .fragment _ => ⟨source, source.handle position, none⟩

/-- The sources from `position` on, with their names. -/
def nameSources (schema : Option String) (mode : NameMode) : Nat → List Source → List NamedSource
  | _, [] => []
  | position, s :: rest =>
    s.named schema mode position :: nameSources schema mode (position + 1) rest

/-- All sources of a query with their names, the primary one first. -/
def Query.namedSources (q : Query) (mode : NameMode) : List NamedSource :=
  nameSources q.schema mode 0 q.sources

/-- The source at a position. -/
def sourceAt (sources : List NamedSource) (index : Nat) : Except Error NamedSource :=
  match sources[index]? with
  | some s => .ok s
  | none => .error (.invalid (.danglingSource index sources.length))

/-- A column of a source. -/
def NamedSource.column (s : NamedSource) (name : String) : Text :=
  s.handle ++ '.' :: quoteIdentifier name

/-- Every field of a source, which has to be a table with known fields. -/
def NamedSource.row (s : NamedSource) : Except Error Text :=
  match s.source with
  | .table _ (some fields) => .ok (Text.joined ", " (fields.map s.column))
  | _ => .error (.schemaRequired (s.table.getD s.handle))

end LiteSql
