import LiteSql.Expr
import LiteSql.Tree.ColumnType
import LiteSql.Tree.Value

/-!
# JSON form of expressions

Every expression is a variant with content, so a value with `n` brackets holds at most
`n` expressions inside each other. The readers of membership lists and fragments take the
reader of their expressions.
-/

namespace LiteSql

namespace BinaryOp

def ofName? : String → Option BinaryOp
  | "eq" => some .eq
  | "ne" => some .ne
  | "lt" => some .lt
  | "lte" => some .lte
  | "gt" => some .gt
  | "gte" => some .gte
  | "and" => some .and
  | "or" => some .or
  | "add" => some .add
  | "sub" => some .sub
  | "mul" => some .mul
  | "div" => some .div
  | "like" => some .like
  | _ => none

def name : BinaryOp → String
  | .eq => "eq"
  | .ne => "ne"
  | .lt => "lt"
  | .lte => "lte"
  | .gt => "gt"
  | .gte => "gte"
  | .and => "and"
  | .or => "or"
  | .add => "add"
  | .sub => "sub"
  | .mul => "mul"
  | .div => "div"
  | .like => "like"

def ofJson? (j : Json) : Option BinaryOp := do
  ofName? (← j.plainVariant?)

def toJson (op : BinaryOp) : Json :=
  .string op.name

end BinaryOp

/-- Reads a fragment whose arguments are read by `expr`. -/
def Fragment.ofJsonWith? (expr : Json → Option Expr) (j : Json) : Option Fragment := do
  match ← j.variant? with
  | ("template", some v) =>
    match ← v.record? ["sql", "args"] with
    | [sql, args] =>
      return .template (← Json.required? Json.string? sql)
        (← Json.required? (Json.list? expr) args)
    | _ => none
  | ("keyword", some v) => return .keyword (← v.list? (Json.pair? Json.string? expr))
  | _ => none

/-- Reads a membership list whose expressions are read by `expr`. -/
def InList.ofJsonWith? (expr : Json → Option Expr) (j : Json) : Option InList := do
  match ← j.variant? with
  | ("exprs", some v) => return .exprs (← v.list? expr)
  | ("params", some v) => return .params (← v.list? Value.ofJson?)
  | ("fragment", some v) => return .fragment (← Fragment.ofJsonWith? expr v)
  | _ => none

/-- Reads an expression that is at most `n` expressions deep. -/
def Expr.ofJsonUpTo? : Nat → Json → Option Expr
  | 0, _ => none
  | n + 1, j => do
    match ← j.variant? with
    | ("field", some v) =>
      match ← v.record? ["source", "column"] with
      | [source, column] =>
        return .field (← Json.required? Json.uint64? source)
          (← Json.required? Json.string? column)
      | _ => none
    | ("row", some v) => return .row (← v.uint64?)
    | ("literal", some v) => return .literal (← Value.ofJson? v)
    | ("param", some v) => return .param (← Value.ofJson? v)
    | ("binary", some v) =>
      match ← v.record? ["op", "left", "right"] with
      | [op, left, right] =>
        return .binary (← Json.required? BinaryOp.ofJson? op)
          (← Json.required? (Expr.ofJsonUpTo? n) left)
          (← Json.required? (Expr.ofJsonUpTo? n) right)
      | _ => none
    | ("not", some v) => return .not (← Expr.ofJsonUpTo? n v)
    | ("is_null", some v) => return .isNull (← Expr.ofJsonUpTo? n v)
    | ("cast", some v) =>
      match ← v.record? ["expr", "target"] with
      | [inner, target] =>
        return .cast (← Json.required? (Expr.ofJsonUpTo? n) inner)
          (← Json.required? ColumnType.ofJson? target)
      | _ => none
    | ("in", some v) =>
      match ← v.record? ["left", "right"] with
      | [left, right] =>
        return .isIn (← Json.required? (Expr.ofJsonUpTo? n) left)
          (← Json.required? (InList.ofJsonWith? (Expr.ofJsonUpTo? n)) right)
      | _ => none
    | ("fragment", some v) => return .fragment (← Fragment.ofJsonWith? (Expr.ofJsonUpTo? n) v)
    | ("function", some v) =>
      match ← v.record? ["name", "args", "distinct"] with
      | [name, args, distinct] =>
        return .call (← Json.required? Json.string? name)
          (← Json.required? (Json.list? (Expr.ofJsonUpTo? n)) args)
          (← Json.withDefault? false Json.bool? distinct)
      | _ => none
    | _ => none

def Expr.ofJson? (j : Json) : Option Expr :=
  Expr.ofJsonUpTo? j.depth j

def Fragment.ofJson? (j : Json) : Option Fragment :=
  Fragment.ofJsonWith? Expr.ofJson? j

mutual

def Expr.toJson : Expr → Json
  | .field source column =>
    .variant "field" (.object [("source", .int source.toNat), ("column", .string column)])
  | .row source => .variant "row" (.int source.toNat)
  | .literal value => .variant "literal" value.toJson
  | .param value => .variant "param" value.toJson
  | .binary op left right =>
    .variant "binary" (.object [("op", op.toJson), ("left", left.toJson), ("right", right.toJson)])
  | .not inner => .variant "not" inner.toJson
  | .isNull inner => .variant "is_null" inner.toJson
  | .cast inner target =>
    .variant "cast" (.object [("expr", inner.toJson), ("target", target.toJson)])
  | .isIn left right =>
    .variant "in" (.object [("left", left.toJson), ("right", right.toJson)])
  | .fragment body => .variant "fragment" body.toJson
  | .call name args distinct =>
    .variant "function" (.object [("name", .string name), ("args", .array (exprsToJson args)),
      ("distinct", .bool distinct)])

def InList.toJson : InList → Json
  | .exprs items => .variant "exprs" (.array (exprsToJson items))
  | .params values => .variant "params" (.array (values.map Value.toJson))
  | .fragment body => .variant "fragment" body.toJson

def Fragment.toJson : Fragment → Json
  | .template sql args =>
    .variant "template" (.object [("sql", .string sql), ("args", .array (exprsToJson args))])
  | .keyword args => .variant "keyword" (.array (keywordsToJson args))

def exprsToJson : List Expr → List Json
  | [] => []
  | e :: es => e.toJson :: exprsToJson es

def keywordsToJson : List (String × Expr) → List Json
  | [] => []
  | (name, e) :: rest => .array [.string name, e.toJson] :: keywordsToJson rest

end

end LiteSql
