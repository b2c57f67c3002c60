/-!
# Quoted text

A quoted text stands between two marks, and every mark inside it is written
twice. `quoted` writes this form and `readQuoted` reads it back from the front
of a longer text. Both work for any mark: identifiers use the double quote,
string literals the single one.
-/

namespace LiteSql

/-- SQL text is handled as a list of characters; `String` is used at the edges. -/
abbrev Text := List Char

namespace Text

/-- The text `s` with every mark written twice. -/
def doubled (mark : Char) : Text → Text
  | [] => []
  | c :: s => if c = mark then mark :: mark :: doubled mark s else c :: doubled mark s

@[simp] theorem doubled_nil (mark : Char) : doubled mark [] = [] := rfl

theorem doubled_cons (mark c : Char) (s : Text) :
    doubled mark (c :: s) =
      if c = mark then mark :: mark :: doubled mark s else c :: doubled mark s := rfl

/-- The text `s` between two marks. -/
def quoted (mark : Char) (s : Text) : Text :=
  mark :: (doubled mark s ++ [mark])

/-- Splits a text at the first mark that is not doubled. The first part has its
doubled marks read as one; the second part starts with the mark, or is empty
when there is none. -/
def splitAtMark (mark : Char) : Text → Text × Text
  | [] => ([], [])
  | c :: s =>
    if c = mark then
      match s with
      | [] => ([], [c])
      | d :: r =>
        if d = mark then
          let (inner, rest) := splitAtMark mark r
          (mark :: inner, rest)
        else ([], c :: d :: r)
    else
      let (inner, rest) := splitAtMark mark s
      (c :: inner, rest)

/-- Reads a quoted text from the front: its content and what follows the closing
mark. A failure carries the text that was left where reading stopped. -/
def readQuoted (mark : Char) : Text → Except Text (Text × Text)
  | [] => .error []
  | c :: s =>
    if c = mark then
      match splitAtMark mark s with
      | (_, []) => .error []
      | (inner, _ :: rest) => .ok (inner, rest)
    else .error (c :: s)

/-- The texts of a list with `separator` between neighbours. -/
def joined (separator : String) (parts : List Text) : Text :=
  separator.toList.intercalate parts

theorem joined_cons (separator : String) (s : Text) (ss : List Text) :
    joined separator (s :: ss) = s ++ ss.flatMap (separator.toList ++ ·) := by
  unfold joined
  induction ss generalizing s with
  | nil => simp
  | cons t ss ih => simp [List.intercalate_cons_cons, ih]

/-- The text in parentheses. -/
def parenthesized (s : Text) : Text :=
  '(' :: (s ++ [')'])

/-- The number of bytes of a text in UTF-8. -/
def byteLength : Text → Nat
  | [] => 0
  | c :: s => c.utf8Size + byteLength s

end Text

end LiteSql
