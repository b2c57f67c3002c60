import LiteSql.Proofs.Numerals
import LiteSql.Proofs.Tokens
import LiteSql.Statement.Expr
import Mathlib.Data.List.TakeWhile

/-!
# A reader without precedence

The reader takes the text of an expression apart without knowing which operator
binds more tightly. An expression is one term, or one operator applied to terms:
`T op T`, `NOT (E)`, `T IS NULL` or `T IN (E, ...)`. A term is a field, a literal, a
placeholder, a cast, a call, or an expression in parentheses. A second operator
that is not in parentheses is left over, so the text as a whole is refused.

A reader of a part gives what it has read and the text that follows it.

What is read is a `Reading`: a tree in which literals and types are known by their
text, and placeholders by the values that they stand for.
-/

namespace LiteSql

/-- An expression as far as its text and its parameters tell. -/
inductive Reading
  | field (source : Nat) (column : Text)
  | literal (text : Text)
  | param (value : Value)
  | binary (op : BinaryOp) (left right : Reading)
  | not (inner : Reading)
  | isNull (inner : Reading)
  | cast (inner : Reading) (type : Text)
  | isIn (left : Reading) (items : List Reading)
  | call (name : Text) (args : List Reading) (distinct : Bool)
  /-- A count of rows, which has a star in the place of arguments. -/
  | countAll (name : Text) (distinct : Bool)

namespace Reader

/-- What follows the word `w` at the front of a text. -/
def after? : Text → Text → Option Text
  | [], s => some s
  | _ :: _, [] => none
  | c :: w, d :: s => if c = d then after? w s else none

@[simp] theorem after?_append (w s : Text) : after? w (w ++ s) = some s := by
  induction w with
  | nil => rfl
  | cons c w ih => simp [after?, ih]

def isNameChar (c : Char) : Bool :=
  c.isAlphanum || c == '_'

def isNameStart (c : Char) : Bool :=
  c.isAlpha || c == '_'

def digits? (s : Text) : Option (Text × Text) :=
  match Text.spanDigits s with
  | ([], _) => none
  | (ds, rest) => some (ds, rest)

def sign (s : Text) : Text × Text :=
  match s with
  | '-' :: s => (['-'], s)
  | s => ([], s)

def fraction? : Text → Option (Text × Text)
  | '.' :: s => do
    let (ds, rest) ← digits? s
    return ('.' :: ds, rest)
  | s => some ([], s)

def exponent? : Text → Option (Text × Text)
  | 'e' :: s => do
    let (ds, rest) ← digits? (sign s).2
    return ('e' :: ((sign s).1 ++ ds), rest)
  | s => some ([], s)

def number? (s : Text) : Option (Text × Text) := do
  let (whole, rest) ← digits? (sign s).2
  let (fraction, rest) ← fraction? rest
  let (exponent, rest) ← exponent? rest
  return ((sign s).1 ++ (whole ++ (fraction ++ exponent)), rest)

def string? (s : Text) : Option (Text × Text) :=
  match Text.readQuoted '\'' s with
  | .ok (content, rest) => some (Text.quoted '\'' content, rest)
  | .error _ => none

/-- A handle of a letter and a position, with its column after the point. -/
def field? (handle rest : Text) : Option (Reading × Text) :=
  match digits? (handle.drop 1), Text.readQuoted '"' rest with
  | some (position, []), .ok (column, rest) => some (.field (Text.ofDigits position) column, rest)
  | _, _ => none

/-- The value of a placeholder is looked up by its number. -/
def placeholder? (values : Nat → Option Value) (s : Text) : Option (Reading × Text) := do
  let (ds, rest) ← digits? s
  let v ← values (Text.ofDigits ds)
  return (.param v, rest)

section Nested

variable (values : Nat → Option Value) (inner : Text → Option (Reading × Text))

/-- An expression up to a closing parenthesis. -/
def closed? (s : Text) : Option (Reading × Text) := do
  let (r, rest) ← inner s
  let rest ← after? [')'] rest
  return (r, rest)

/-- The items after the first one, up to the closing parenthesis; at most `n`. -/
def moreItems? : Nat → Text → Option (List Reading × Text)
  | 0, _ => none
  | n + 1, s =>
    match after? [')'] s with
    | some rest => some ([], rest)
    | none => do
      let s ← after? ", ".toList s
      let (r, s) ← inner s
      let (rs, rest) ← moreItems? n s
      return (r :: rs, rest)

/-- Expressions with commas between them, up to the closing parenthesis. -/
def items? (s : Text) : Option (List Reading × Text) :=
  match inner s with
  | some (r, rest) => do
    let (rs, rest) ← moreItems? inner rest.length rest
    return (r :: rs, rest)
  | none => do
    let rest ← after? [')'] s
    return ([], rest)

def arguments? (name : Text) (distinct : Bool) (s : Text) : Option (Reading × Text) :=
  match items? inner s with
  | some (args, rest) => some (.call name args distinct, rest)
  | none =>
    if isCount (String.ofList name) then do
      let rest ← after? "*)".toList s
      return (.countAll name distinct, rest)
    else none

def call? (name : Text) (s : Text) : Option (Reading × Text) :=
  match arguments? inner name false s with
  | some result => some result
  | none => do
    let s ← after? "DISTINCT ".toList s
    arguments? inner name true s

def cast? (s : Text) : Option (Reading × Text) := do
  let s ← after? " (".toList s
  let (r, s) ← inner s
  let s ← after? " AS ".toList s
  let rest ← after? [')'] (s.dropWhile isNameChar)
  return (.cast r (s.takeWhile isNameChar), rest)

/-- A term that starts with a word. What follows the word decides. -/
def named? (word rest : Text) : Option (Reading × Text) :=
  match rest with
  | '(' :: s => call? inner word s
  | '.' :: s => field? word s
  | '\'' :: _ =>
    if word = "X".toList then do
      let (text, rest) ← string? rest
      return (.literal (word ++ text), rest)
    else none
  | _ =>
    if word = "NULL".toList then some (.literal word, rest)
    else if word = "CAST".toList then cast? inner rest
    else none

def term? : Text → Option (Reading × Text)
  | [] => none
  | c :: s =>
    if isNameStart c then
      named? inner ((c :: s).takeWhile isNameChar) ((c :: s).dropWhile isNameChar)
    else if c = '(' then closed? inner s
    else if c = '?' then placeholder? values s
    else if c = '\'' then do
      let (text, rest) ← string? (c :: s)
      return (.literal text, rest)
    else do
      let (text, rest) ← number? (c :: s)
      return (.literal text, rest)

def operators : List BinaryOp :=
  [.eq, .ne, .lt, .lte, .gt, .gte, .and, .or, .add, .sub, .mul, .div, .like]

/-- The operator at the front of a text, with the blank after it. -/
def operator? (s : Text) : Option (BinaryOp × Text) :=
  operators.findSome? fun op => (after? (op.symbol.toList ++ [' ']) s).map fun rest => (op, rest)

/-- What is applied to a term that has been read. Another term may follow; whatever
follows that is left over. -/
def applied? (left : Reading) (s : Text) : Option (Reading × Text) :=
  match after? " IS NULL".toList s with
  | some rest => some (.isNull left, rest)
  | none =>
    match after? " IN (".toList s with
    | some s => do
      let (items, rest) ← items? inner s
      return (.isIn left items, rest)
    | none =>
      match after? [' '] s >>= operator? with
      | some (op, s) => do
        let (right, rest) ← term? values inner s
        return (.binary op left right, rest)
      | none => some (left, s)

/-- One expression, given a reader for those inside of parentheses. -/
def expr? (s : Text) : Option (Reading × Text) :=
  match term? values inner s with
  | some (left, rest) => applied? values inner left rest
  | none => do
    let s ← after? "NOT (".toList s
    let (r, rest) ← closed? inner s
    return (.not r, rest)

end Nested

/-- One expression with at most `n` levels of parentheses. -/
def nested? (values : Nat → Option Value) : Nat → Text → Option (Reading × Text)
  | 0, _ => none
  | n + 1, s => expr? values (nested? values n) s

/-- The expression that a text as a whole spells. -/
def whole? (values : Nat → Option Value) (s : Text) : Option Reading :=
  match nested? values (s.length + 1) s with
  | some (r, []) => some r
  | _ => none

/-- What can follow a term: the end, or a character that no term goes on with. -/
inductive EndsTerm : Text → Prop
  | nil : EndsTerm []
  | blank (s : Text) : EndsTerm (' ' :: s)
  | close (s : Text) : EndsTerm (')' :: s)
  | comma (s : Text) : EndsTerm (',' :: s)

theorem EndsTerm.forall_head {rest : Text} (hrest : EndsTerm rest) {P : Char → Prop}
    (hblank : P ' ') (hclose : P ')') (hcomma : P ',') : ∀ c ∈ rest.head?, P c := by
  intro c hc
  cases hrest with
  | nil => cases hc
  | blank s =>
      cases hc
      exact hblank
  | close s =>
      cases hc
      exact hclose
  | comma s =>
      cases hc
      exact hcomma

theorem forall_head_cons {p : Char → Bool} {c : Char} (hc : p c = false) (s : Text) :
    ∀ d ∈ (c :: s).head?, p d = false := by
  intro d hd
  cases hd
  exact hc

/-- A run of characters of a kind ends where one of another kind follows. -/
theorem run_append {p : Char → Bool} {s rest : Text} (hs : ∀ c ∈ s, p c)
    (hrest : ∀ c ∈ rest.head?, p c = false) :
    (s ++ rest).takeWhile p = s ∧ (s ++ rest).dropWhile p = rest := by
  rw [List.takeWhile_append_of_pos hs, List.dropWhile_append_of_pos hs]
  cases rest with
  | nil => simp
  | cons c rest => simp [hrest c rfl]

theorem digits?_append {ds rest : Text} (hds : IsDigits ds)
    (hrest : ∀ c ∈ rest.head?, c.isDigit = false) : digits? (ds ++ rest) = some (ds, rest) := by
  have hspan : Text.spanDigits (ds ++ rest) = (ds, rest) := by
    obtain ⟨htake, hdrop⟩ := run_append hds.2 hrest
    rw [Text.spanDigits, htake, hdrop]
  obtain ⟨c, ds, rfl⟩ := List.exists_cons_of_ne_nil hds.1
  rw [digits?, hspan]

theorem sign_append {ds : Text} (hds : IsDigits ds) (negative : Bool) (rest : Text) :
    sign (Numeral.signText negative ++ (ds ++ rest)) = (Numeral.signText negative, ds ++ rest) := by
  cases negative with
  | true => rfl
  | false =>
      obtain ⟨c, ds, rfl⟩ := List.exists_cons_of_ne_nil hds.1
      have hc : c ≠ '-' := by
        rintro rfl
        exact absurd (hds.2 '-' (by simp)) (by decide)
      simp [Numeral.signText, sign, hc]

theorem exponent?_text (n : Numeral) {rest : Text} (hrest : EndsTerm rest) :
    exponent? (Numeral.exponentText n.exponent ++ rest) =
      some (Numeral.exponentText n.exponent, rest) := by
  have hend : ∀ c ∈ rest.head?, c.isDigit = false := hrest.forall_head rfl rfl rfl
  cases he : n.exponent with
  | none =>
      have hmark : ∀ c ∈ rest.head?, c ≠ 'e' :=
        hrest.forall_head (by decide) (by decide) (by decide)
      cases rest with
      | nil => rfl
      | cons c rest =>
          have hc : c ≠ 'e' := hmark c rfl
          simp [Numeral.exponentText, exponent?, hc]
  | some e =>
      have hdigits : IsDigits e.2 := n.exponent_digits e he
      simp [Numeral.exponentText, exponent?, sign_append hdigits, digits?_append hdigits hend]

theorem fraction?_text (n : Numeral) {rest : Text}
    (hrest : ∀ c ∈ rest.head?, c.isDigit = false ∧ c ≠ '.') :
    fraction? (Numeral.fractionText n.fraction ++ rest) =
      some (Numeral.fractionText n.fraction, rest) := by
  cases hf : n.fraction with
  | none =>
      cases rest with
      | nil => rfl
      | cons c rest =>
          have hc : c ≠ '.' := (hrest c rfl).2
          simp [Numeral.fractionText, fraction?, hc]
  | some ds =>
      have hdigits : IsDigits ds := n.fraction_digits ds hf
      simp [Numeral.fractionText, fraction?,
        digits?_append hdigits fun c hc => (hrest c hc).1]

theorem head?_exponentText (n : Numeral) {rest : Text} (hrest : EndsTerm rest) :
    ∀ c ∈ (Numeral.exponentText n.exponent ++ rest).head?, c.isDigit = false ∧ c ≠ '.' := by
  cases n.exponent with
  | none => exact hrest.forall_head (by decide) (by decide) (by decide)
  | some e =>
      intro c hc
      cases hc
      decide

theorem sign_text (n : Numeral) (rest : Text) :
    sign (n.text ++ rest) = (Numeral.signText n.negative, n.whole ++
      (Numeral.fractionText n.fraction ++ (Numeral.exponentText n.exponent ++ rest))) := by
  simpa [Numeral.text] using sign_append n.whole_digits n.negative
    (Numeral.fractionText n.fraction ++ (Numeral.exponentText n.exponent ++ rest))

theorem digits?_whole (n : Numeral) {rest : Text} (hrest : EndsTerm rest) :
    digits? (n.whole ++
        (Numeral.fractionText n.fraction ++ (Numeral.exponentText n.exponent ++ rest))) =
      some (n.whole,
        Numeral.fractionText n.fraction ++ (Numeral.exponentText n.exponent ++ rest)) := by
  refine digits?_append n.whole_digits ?_
  cases n.fraction with
  | none => exact fun c hc => (head?_exponentText n hrest c hc).1
  | some ds =>
      intro c hc
      cases hc
      rfl

theorem number?_text (n : Numeral) {rest : Text} (hrest : EndsTerm rest) :
    number? (n.text ++ rest) = some (n.text, rest) := by
  simp only [number?, sign_text, digits?_whole n hrest, Option.bind_eq_bind, Option.bind_some,
    fraction?_text n (head?_exponentText n hrest), exponent?_text n hrest]
  rfl

theorem EndsTerm.head?_ne {rest : Text} (hrest : EndsTerm rest) (mark : QuoteMark) :
    rest.head? ≠ some mark.char := by
  intro hmark
  have hne : ∀ c ∈ rest.head?, quoteMark? c = none := hrest.forall_head rfl rfl rfl
  exact char_ne_of_quoteMark?_eq_none (hne _ hmark) mark rfl

theorem string?_quoted (s : Text) {rest : Text} (hrest : EndsTerm rest) :
    string? (Text.quoted '\'' s ++ rest) = some (Text.quoted '\'' s, rest) := by
  have hread : Text.readQuoted '\'' (Text.quoted '\'' s ++ rest) = .ok (s, rest) :=
    Text.readQuoted_eq_ok_iff.mpr ⟨rfl, hrest.head?_ne .single⟩
  rw [string?, hread]

/-- A word is read up to the first character that belongs to no name. -/
theorem term?_word {values : Nat → Option Value} {inner : Text → Option (Reading × Text)} {c : Char}
    {w rest : Text} (hc : isNameStart c) (hw : ∀ d ∈ w, isNameChar d)
    (hrest : ∀ d ∈ rest.head?, isNameChar d = false) :
    term? values inner (c :: w ++ rest) = named? inner (c :: w) rest := by
  have hword : ∀ d ∈ c :: w, isNameChar d := by
    rw [List.forall_mem_cons]
    refine ⟨?_, hw⟩
    simp only [isNameStart, isNameChar, Char.isAlphanum, Bool.or_eq_true] at hc ⊢
    tauto
  obtain ⟨htake, hdrop⟩ := run_append hword hrest
  rw [List.cons_append] at htake hdrop ⊢
  rw [term?, if_pos hc, htake, hdrop]

/-- A word that stands before a blank is a term in two cases only. -/
theorem named?_blank {inner : Text → Option (Reading × Text)} {word : Text}
    (hnull : word ≠ "NULL".toList) (hcast : word ≠ "CAST".toList) (s : Text) :
    named? inner word (' ' :: s) = none := by
  rw [named?]
  · rw [if_neg hnull, if_neg hcast]
  · simp
  · simp
  · simp

theorem isNameStart_of_isDigit {c : Char} (hc : c.isDigit) : isNameStart c = false := by
  have hle : c.toNat ≤ 57 := (Char.isDigit_iff_toNat.mp hc).2
  have hupper : ¬ c.isUpper := by
    intro h
    have hge : 65 ≤ c.toNat := UInt32.le_iff_toNat_le.mp (of_decide_eq_true h).1
    omega
  have hlower : ¬ c.isLower := by
    intro h
    have hdecide := (Bool.and_eq_true_iff.mp h).1
    have hge : 97 ≤ c.toNat := UInt32.le_iff_toNat_le.mp (of_decide_eq_true hdecide)
    omega
  have hline : c ≠ '_' := by
    rintro rfl
    cases hc
  change ((c.isUpper || c.isLower) || c == '_') = false
  simp [hupper, hlower, hline]

theorem term?_number {values : Nat → Option Value} {inner : Text → Option (Reading × Text)}
    (n : Numeral) {rest : Text} (hrest : EndsTerm rest) :
    term? values inner (n.text ++ rest) = some (.literal n.text, rest) := by
  have hread := number?_text n hrest
  obtain ⟨c, t, htext, hstart⟩ : ∃ c t, n.text = c :: t ∧ (c = '-' ∨ c.isDigit) := by
    obtain ⟨d, ds, hds⟩ := List.exists_cons_of_ne_nil n.whole_digits.1
    have hd : d.isDigit := n.whole_digits.2 d (by simp [hds])
    cases hneg : n.negative with
    | true =>
        refine ⟨'-', n.whole ++ (Numeral.fractionText n.fraction ++
          Numeral.exponentText n.exponent), ?_, .inl rfl⟩
        simp [Numeral.text, hneg, Numeral.signText]
    | false =>
        refine ⟨d, ds ++ (Numeral.fractionText n.fraction ++
          Numeral.exponentText n.exponent), ?_, .inr hd⟩
        simp [Numeral.text, hneg, Numeral.signText, hds]
  have hname : isNameStart c = false := by
    rcases hstart with rfl | hdigit
    · rfl
    · exact isNameStart_of_isDigit hdigit
  have hother : c ≠ '(' ∧ c ≠ '?' ∧ c ≠ '\'' := by
    rcases hstart with rfl | hdigit
    · decide
    · refine ⟨?_, ?_, ?_⟩ <;> rintro rfl <;> cases hdigit
  rw [htext, List.cons_append] at hread ⊢
  simp [term?, hname, hother, hread]

end Reader

end LiteSql
