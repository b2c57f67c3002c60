import LiteSql.Operation
import LiteSql.Text.Digits

/-!
# Reasons why a tree does not compile

Every failure is one of four kinds: SQLite lacks the feature, the tree makes no
sense, a row needs a field list that is not known, or the text of a hint is
malformed. `Error.message` holds all wordings.
-/

namespace LiteSql

/-- Features that SQLite does not have. -/
inductive Unsupported
  | lock
  | distinctColumns
  | outerJoin
  | arrayType
  | arrayOperation
  | keywordArguments
  | joinsIn (operation : Operation)
  | combinedPrimaryKey
  | addedPrimaryKey (column : String)
  | alterColumn
  | renameColumn
  | dropColumn
deriving DecidableEq

/-- Parts of a query that a bulk statement has no place for. -/
inductive Clause
  | projection
  | distinct
  | groupBy
  | having
  | orderBy
  | limit
  | offset
deriving DecidableEq

/-- Faults of a tree. -/
inductive Fault
  | danglingSource (index count : Nat)
  | missingArgument (template : String)
  | surplusArgument (template : String)
  | emptyProjection
  | ownerNotJoined (owner position : Nat)
  | bulkWithoutTable (operation : Operation)
  | bulkWith (operation : Operation) (clause : Clause)
  | bulkWithoutAssignment
  | bulkDeleteWithAssignment
  | updateWithoutField
  | updateWithoutFilter
  | deleteWithoutFilter
  | createWithoutColumn
  | alterWithoutChange
  | indexWithoutColumn (index : String)
deriving DecidableEq

/-- Why a tree or a text was refused. -/
inductive Error
  | unsupported (reason : Unsupported)
  | invalid (fault : Fault)
  | schemaRequired (table : Text)
  | malformedHint (position : Nat) (hint : Text)
deriving DecidableEq

/-- Whether the failure is due to a feature that SQLite lacks. -/
def Error.isUnsupported : Error → Bool
  | .unsupported _ => true
  | _ => false

def Unsupported.message : Unsupported → Text
  | .lock => "locks are not supported by SQLite".toList
  | .distinctColumns => "DISTINCT with multiple columns is not supported by SQLite".toList
  | .outerJoin => "RIGHT and FULL OUTER joins are not supported by SQLite".toList
  | .arrayType => "Array type is not supported by SQLite".toList
  | .arrayOperation => "Array operations are not supported by SQLite".toList
  | .keywordArguments => "keyword lists in fragments are not supported by SQLite".toList
  | .joinsIn operation =>
    "JOINs are not supported on ".toList ++ operation.keyword.toList ++
      " statements by SQLite".toList
  | .combinedPrimaryKey =>
    "a primary key cannot combine an AUTOINCREMENT column with other columns in SQLite".toList
  | .addedPrimaryKey column =>
    "adding primary key column ".toList ++ column.toList ++
      " with ALTER TABLE is not supported by SQLite".toList
  | .alterColumn => "ALTER COLUMN not supported by SQLite".toList
  | .renameColumn => "RENAME COLUMN not supported by SQLite".toList
  | .dropColumn => "DROP COLUMN not supported by SQLite".toList

def Clause.description : Clause → String
  | .projection => "a projection"
  | .distinct => "DISTINCT"
  | .groupBy => "GROUP BY"
  | .having => "HAVING"
  | .orderBy => "ORDER BY"
  | .limit => "LIMIT"
  | .offset => "OFFSET"

def Fault.message : Fault → Text
  | .danglingSource index count =>
    "reference to source ".toList ++ Text.digits index ++ " but the statement has ".toList ++
      Text.digits count
  | .missingArgument template =>
    "fragment `".toList ++ template.toList ++ "` has more splice points than arguments".toList
  | .surplusArgument template =>
    "fragment `".toList ++ template.toList ++ "` has more arguments than splice points".toList
  | .emptyProjection => "SELECT needs at least one expression".toList
  | .ownerNotJoined owner position =>
    "association owner ".toList ++ Text.digits owner ++ " must be joined before source ".toList ++
      Text.digits position
  | .bulkWithoutTable operation =>
    "bulk ".toList ++ operation.keyword.toList ++ " needs a table source".toList
  | .bulkWith operation clause =>
    "bulk ".toList ++ operation.keyword.toList ++ " cannot carry ".toList ++
      clause.description.toList
  | .bulkWithoutAssignment => "bulk UPDATE needs at least one assignment".toList
  | .bulkDeleteWithAssignment => "bulk DELETE cannot carry assignments".toList
  | .updateWithoutField => "UPDATE needs at least one field".toList
  | .updateWithoutFilter => "UPDATE needs at least one filter to identify the row".toList
  | .deleteWithoutFilter => "DELETE needs at least one filter to identify the row".toList
  | .createWithoutColumn => "CREATE TABLE needs at least one column".toList
  | .alterWithoutChange => "ALTER TABLE needs at least one change".toList
  | .indexWithoutColumn index =>
    "index ".toList ++ index.toList ++ " needs at least one column".toList

/-- The text shown for a failure. -/
def Error.message : Error → Text
  | .unsupported reason => reason.message
  | .invalid fault => "Invalid query: ".toList ++ fault.message
  | .schemaRequired table =>
    "selecting all fields from ".toList ++ table ++
      " requires an associated schema, please specify a schema or select the fields explicitly".toList
  | .malformedHint position hint =>
    "Parse error at position ".toList ++ Text.digits position ++
      ": malformed RETURNING hint: '".toList ++ hint ++ ['\'']

end LiteSql
