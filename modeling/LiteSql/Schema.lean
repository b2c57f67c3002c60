import LiteSql.ColumnType
import LiteSql.Name
import LiteSql.Value

/-!
# Schema changes

Tables, their columns and indexes, and the changes that can be asked for. What
SQLite cannot run is part of the trees too; it is refused when a change is
compiled.
-/

namespace LiteSql

/-- A table that a change is about. -/
structure Table where
  name : QualifiedName
  /-- Raw text after the column list. -/
  options : Option String := none
deriving DecidableEq

namespace Table

/-- The table with a name, without a schema and without options. -/
def ofName (name : String) : Table := { name := ⟨none, name⟩ }

def inSchema (t : Table) (schema : String) : Table :=
  { t with name := { t.name with schema := some schema } }

def withOptions (t : Table) (options : String) : Table := { t with options := some options }

end Table

/-- The default of a column. -/
inductive ColumnDefault
  | value (v : Value)
  /-- An SQL expression, taken as it is. -/
  | raw (sql : String)
deriving DecidableEq

/-- Options of a column; every one may be left open. -/
structure ColumnOptions where
  default? : Option ColumnDefault := none
  /-- Only `some false` is written. -/
  nullable : Option Bool := none
  /-- Has no SQL text. -/
  size : Option UInt32 := none
  precision : Option UInt32 := none
  scale : Option UInt32 := none
  primaryKey : Bool := false
deriving DecidableEq

namespace ColumnOptions

def withDefault (o : ColumnOptions) (v : Value) : ColumnOptions :=
  { o with default? := some (.value v) }

def withRawDefault (o : ColumnOptions) (sql : String) : ColumnOptions :=
  { o with default? := some (.raw sql) }

def withNull (o : ColumnOptions) (allowed : Bool) : ColumnOptions :=
  { o with nullable := some allowed }

def notNull (o : ColumnOptions) : ColumnOptions := o.withNull false

def withSize (o : ColumnOptions) (size : UInt32) : ColumnOptions := { o with size := some size }

def withPrecision (o : ColumnOptions) (precision scale : UInt32) : ColumnOptions :=
  { o with precision := some precision, scale := some scale }

def asPrimaryKey (o : ColumnOptions) : ColumnOptions := { o with primaryKey := true }

end ColumnOptions

/-- What happens to a row when the row it refers to is deleted. -/
inductive OnDelete
  | nothing
  | cascade
  | setNull
deriving DecidableEq

/-- The target of a foreign key. -/
structure Reference where
  table : String
  column : String := "id"
  /-- The name of the constraint, if it is not to be made up. -/
  constraint : Option String := none
  onDelete : OnDelete := .nothing
  /-- Qualifies the target; otherwise the owning table's schema does. -/
  schema : Option String := none
  /-- The type of the referring column. -/
  type : ColumnType := .id
deriving DecidableEq

namespace Reference

/-- A reference to the column `id` of a table. -/
def toTable (table : String) : Reference := { table }

def toColumn (r : Reference) (column : String) : Reference := { r with column }

def named (r : Reference) (constraint : String) : Reference :=
  { r with constraint := some constraint }

def deleting (r : Reference) (action : OnDelete) : Reference := { r with onDelete := action }

def inSchema (r : Reference) (schema : String) : Reference := { r with schema := some schema }

def ofType (r : Reference) (type : ColumnType) : Reference := { r with type }

end Reference

/-- What a column holds. -/
inductive ColumnSpec
  | type (t : ColumnType)
  | references (r : Reference)
deriving DecidableEq

/-- One directive inside a change of a table. -/
inductive ColumnChange
  | add (name : String) (spec : ColumnSpec) (options : ColumnOptions)
  | modify (name : String) (spec : ColumnSpec) (options : ColumnOptions)
  | remove (name : String)
  | rename (old new : String)
deriving DecidableEq

/-- A column of an index. -/
inductive IndexColumn
  | name (column : String)
  /-- An SQL expression, taken as it is. -/
  | raw (sql : String)
deriving DecidableEq

/-- An index. Its own name is never qualified. -/
structure Index where
  name : String
  table : QualifiedName
  columns : List IndexColumn := []
  unique : Bool := false
  /-- The raw condition of a partial index. -/
  predicate : Option String := none
deriving DecidableEq

namespace Index

/-- An index with a name on columns of a table. -/
def onColumns (table name : String) (columns : List IndexColumn) : Index :=
  { name, table := ⟨none, table⟩, columns }

def asUnique (i : Index) : Index := { i with unique := true }

def inSchema (i : Index) (schema : String) : Index :=
  { i with table := { i.table with schema := some schema } }

def restrictedTo (i : Index) (predicate : String) : Index := { i with predicate := some predicate }

end Index

/-- A change of the schema. -/
inductive SchemaChange
  | createTable (table : Table) (columns : List ColumnChange) (ifNotExists : Bool)
  | alterTable (table : Table) (changes : List ColumnChange)
  | dropTable (table : Table) (ifExists : Bool)
  | renameTable (old new : Table)
  | createIndex (index : Index) (ifNotExists : Bool)
  | dropIndex (index : Index) (ifExists : Bool)
  /-- SQL text, taken as it is. -/
  | raw (sql : String)
deriving DecidableEq

end LiteSql
