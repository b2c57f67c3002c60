import LiteSql.Text.Quoted

/-!
# Colours of a terminal

Text is coloured by a sequence that starts a style and one that ends all styles. A style
that ends inside the text is started again, so that it reaches to the end.
-/

namespace LiteSql.Command

/-- A look of text on a terminal. -/
inductive Style
  | statement
  | heading
  | value
  | operation
  | table
  | remark
  | failure
deriving DecidableEq

/-- The parameters of the sequence that starts a style. -/
def Style.codes : Style → String
  | .statement => "37"
  | .heading => "36"
  | .value => "33"
  | .operation => "1"
  | .table => "32"
  | .remark => "2"
  | .failure => "1;31"

/-- The sequence that starts a style. -/
def Style.start (style : Style) : Text :=
  '\x1b' :: '[' :: (style.codes.toList ++ ['m'])

/-- The sequence that ends all styles. -/
def styleEnd : Text := "\x1b[0m".toList

/-- Starts a style again after every place where all styles end. -/
def restarted (start : Text) : Text → Text
  | '\x1b' :: '[' :: '0' :: 'm' :: rest => styleEnd ++ start ++ restarted start rest
  | c :: rest => c :: restarted start rest
  | [] => []

/-- The text in a style, or the bare text when there are no colours. -/
def Style.apply (style : Style) (colored : Bool) (s : Text) : Text :=
  if colored then style.start ++ restarted style.start s ++ styleEnd else s

end LiteSql.Command
