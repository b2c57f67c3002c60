import LiteSql.ColumnType
import LiteSql.Value

/-!
# Expressions

The expression trees of a query. Sources are referred to by position: zero is the
primary source and the joins follow in order. Raw SQL enters through fragments,
whose splice points `?` are filled by expressions in order.
-/

namespace LiteSql

/-- Binary operators. -/
inductive BinaryOp
  | eq
  | ne
  | lt
  | lte
  | gt
  | gte
  | and
  | or
  | add
  | sub
  | mul
  | div
  | like
deriving DecidableEq

/-- The SQL spelling of an operator. -/
def BinaryOp.symbol : BinaryOp → String
  | .eq => "="
  | .ne => "!="
  | .lt => "<"
  | .lte => "<="
  | .gt => ">"
  | .gte => ">="
  | .and => "AND"
  | .or => "OR"
  | .add => "+"
  | .sub => "-"
  | .mul => "*"
  | .div => "/"
  | .like => "LIKE"

mutual

/-- An expression. -/
inductive Expr
  /-- A column of the source at a position. -/
  | field (source : UInt64) (column : String)
  /-- Every field of the source at a position. -/
  | row (source : UInt64)
  | literal (value : Value)
  /-- A value bound to a placeholder. -/
  | param (value : Value)
  | binary (op : BinaryOp) (left right : Expr)
  | not (inner : Expr)
  | isNull (inner : Expr)
  | cast (inner : Expr) (target : ColumnType)
  | isIn (left : Expr) (right : InList)
  | fragment (body : Fragment)
  | call (name : String) (args : List Expr) (distinct : Bool)

/-- What a membership test looks in. -/
inductive InList
  | exprs (items : List Expr)
  /-- Bound values, one placeholder each. -/
  | params (values : List Value)
  | fragment (body : Fragment)

/-- Raw SQL. -/
inductive Fragment
  /-- A text whose splice points take the arguments in order; `\?` stands for a
  question mark. -/
  | template (sql : String) (args : List Expr)
  /-- Named arguments, which have no SQL text. -/
  | keyword (args : List (String × Expr))

end

namespace Expr

def eq (left right : Expr) : Expr := binary .eq left right
def ne (left right : Expr) : Expr := binary .ne left right
def lt (left right : Expr) : Expr := binary .lt left right
def lte (left right : Expr) : Expr := binary .lte left right
def gt (left right : Expr) : Expr := binary .gt left right
def gte (left right : Expr) : Expr := binary .gte left right
def like (left right : Expr) : Expr := binary .like left right
def and (left right : Expr) : Expr := binary .and left right
def or (left right : Expr) : Expr := binary .or left right

/-- Membership in a list of expressions. -/
def inExprs (left : Expr) (items : List Expr) : Expr := isIn left (.exprs items)

/-- Membership in a list of bound values. -/
def inValues (left : Expr) (values : List Value) : Expr := isIn left (.params values)

/-- Membership in the rows of a fragment. -/
def inFragment (left : Expr) (body : Fragment) : Expr := isIn left (.fragment body)

/-- Raw SQL with spliced arguments. -/
def template (sql : String) (args : List Expr) : Expr := fragment (.template sql args)

/-- A function call. -/
def function (name : String) (args : List Expr) : Expr := call name args false

/-- The number of rows, or of those where the expression is not null. -/
def count (arg : Option Expr) : Expr := function "count" arg.toList

/-- The number of distinct values of an expression. -/
def countDistinct (arg : Expr) : Expr := call "count" [arg] true

/-- Whether the text of an expression has to be put in parentheses where an
operator is applied to it. -/
def isCompound : Expr → Bool
  | .binary .. | .fragment _ | .isIn .. | .isNull _ | .not _ => true
  | _ => false

end Expr

end LiteSql
