import LiteSql.Literal
import LiteSql.Statement.Names
import LiteSql.Statement.Splice

/-!
# Text of expressions

`Expr.emit` writes an expression for given sources and binds its values from left to
right. An operand of an operator is put in parentheses unless it is a single term, so
the text does not rely on precedence.
-/

namespace LiteSql

/-- The text of an expression where an operator is applied to it. -/
def Expr.asOperand (e : Expr) (sql : Text) : Text :=
  if e.isCompound then Text.parenthesized sql else sql

/-- Whether a call without arguments counts rows. -/
def isCount (name : String) : Bool :=
  name.toList.map Char.toLower == "count".toList

/-- The text of a call. Counting without arguments counts rows. -/
def callText (name : String) (distinct : Bool) (args : List Text) : Text :=
  let list := if args.isEmpty && isCount name then ['*'] else Text.joined ", " args
  name.toList ++ Text.parenthesized ((if distinct then "DISTINCT ".toList else []) ++ list)

mutual

/-- Writes an expression. -/
def Expr.emit (sources : List NamedSource) : Expr → Emit Text
  | .field source column => do
    let s ← Emit.ofExcept (sourceAt sources source.toNat)
    return s.column column
  | .row source => do
    let s ← Emit.ofExcept (sourceAt sources source.toNat)
    Emit.ofExcept s.row
  | .literal value => pure value.literal
  | .param value => Emit.bindValue value
  | .binary op left right => do
    let l ← left.emit sources
    let r ← right.emit sources
    return left.asOperand l ++ ' ' :: (op.symbol.toList ++ ' ' :: right.asOperand r)
  | .not inner => do
    let sql ← inner.emit sources
    return "NOT ".toList ++ Text.parenthesized sql
  | .isNull inner => do
    let sql ← inner.emit sources
    return inner.asOperand sql ++ " IS NULL".toList
  | .cast inner target => do
    Emit.refuseIf target.isArray (.unsupported .arrayType)
    let sql ← inner.emit sources
    let type ← Emit.ofExcept target.castTarget
    return "CAST ".toList ++ Text.parenthesized (sql ++ " AS ".toList ++ type)
  | .isIn left right => do
    let l ← left.emit sources
    let items ← right.emit sources
    return left.asOperand l ++ " IN ".toList ++ Text.parenthesized items
  | .fragment body => body.emit sources
  | .call name args distinct => do
    let items ← emitEach sources args
    return callText name distinct items

/-- Writes the items of a membership test. -/
def InList.emit (sources : List NamedSource) : InList → Emit Text
  | .exprs items => do
    let texts ← emitEach sources items
    return Text.joined ", " texts
  | .params values => do
    let texts ← Emit.bindValues values
    return Text.joined ", " texts
  | .fragment body => body.emit sources

/-- Writes a fragment. -/
def Fragment.emit (sources : List NamedSource) : Fragment → Emit Text
  | .template sql args => emitSplices sources sql sql.toList args
  | .keyword _ => throw (.unsupported .keywordArguments)

/-- Writes what is left of a template, filling its splice points with the arguments
that are left. -/
def emitSplices (sources : List NamedSource) (template : String) (rest : Text) :
    List Expr → Emit Text
  | [] =>
    match Template.cut rest with
    | (before, none) => pure before
    | (_, some _) => throw (.invalid (.missingArgument template))
  | arg :: args =>
    match Template.cut rest with
    | (_, none) => throw (.invalid (.surplusArgument template))
    | (before, some after) => do
      let sql ← arg.emit sources
      let tail ← emitSplices sources template after args
      return before ++ sql ++ tail

/-- Writes the expressions of a list in order. -/
def emitEach (sources : List NamedSource) : List Expr → Emit (List Text)
  | [] => pure []
  | e :: es => do
    let first ← e.emit sources
    let rest ← emitEach sources es
    return first :: rest

end

/-- Writes an expression to which an operator is applied. -/
def Expr.emitOperand (sources : List NamedSource) (e : Expr) : Emit Text := do
  let sql ← e.emit sources
  return e.asOperand sql

/-- Writes a list of expressions with commas. -/
def emitList (sources : List NamedSource) (es : List Expr) : Emit Text := do
  let texts ← emitEach sources es
  return Text.joined ", " texts

end LiteSql
