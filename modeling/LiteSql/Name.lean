import LiteSql.Text.Quoted

/-!
# Names in SQL text

Identifiers stand in double quotes. A table name may be qualified by a schema, and
then both parts are quoted on their own.
-/

namespace LiteSql

/-- An identifier in double quotes. -/
def quoteIdentifier (name : String) : Text :=
  Text.quoted '"' name.toList

/-- Identifiers in double quotes, with `separator` between neighbours. -/
def quoteIdentifiers (separator : String) (names : List String) : Text :=
  Text.joined separator (names.map quoteIdentifier)

/-- The name of a table, with the schema that it belongs to if that is given. -/
structure QualifiedName where
  schema : Option String
  name : String
deriving DecidableEq

/-- The quoted name, after its quoted schema and a point if there is one. -/
def QualifiedName.quote (q : QualifiedName) : Text :=
  match q.schema with
  | some schema => quoteIdentifier schema ++ '.' :: quoteIdentifier q.name
  | none => quoteIdentifier q.name

end LiteSql
