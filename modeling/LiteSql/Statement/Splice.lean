import LiteSql.Text.Quoted

/-!
# Splice points

A template is raw SQL with places for arguments. A question mark is such a place
unless a backslash stands right before it; then the two together stand for a question
mark. All other characters stand for themselves.
-/

namespace LiteSql.Template

/-- The text up to the first splice point, with escaped question marks resolved, and
what follows that point; `none` when there is no splice point. -/
def cut : Text → Text × Option Text
  | [] => ([], none)
  | '\\' :: '?' :: rest =>
    let (before, after) := cut rest
    ('?' :: before, after)
  | '?' :: rest => ([], some rest)
  | c :: rest =>
    let (before, after) := cut rest
    (c :: before, after)

end LiteSql.Template
