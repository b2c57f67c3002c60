import LiteSql.Name
import LiteSql.Statement.Params

/-!
# Tokens of SQL text

A scanner reads SQL text character by character. It knows quoted texts with
either mark, in which a doubled mark stands for one, and comments, which run from
two dashes to the end of the line. All other text is words, blanks and single
symbols; a placeholder is read as a symbol and a number.

The scanner is *settled* when it is outside of quotes and comments and has not
just read a dash. A separator that comes then ends what was read before it, so
what follows the separator cannot change how the text before it is read. The
scanner is settled after a name in quotes and after a placeholder, and so it is
after a text that is put together from these with separators.
-/

namespace LiteSql

inductive QuoteMark
  | single
  | double
deriving DecidableEq

def QuoteMark.char : QuoteMark → Char
  | single => '\''
  | double => '"'

def quoteMark? (c : Char) : Option QuoteMark :=
  if c = '\'' then some .single else if c = '"' then some .double else none

theorem char_ne_of_quoteMark?_eq_none {c : Char} (h : quoteMark? c = none) (mark : QuoteMark) :
    c ≠ mark.char := by
  rintro rfl
  cases mark <;> cases h

/-- What an SQL engine sees of a text. A quoted text at the end of the input may
have no closing mark. -/
inductive Token
  | word (s : Text)
  | symbol (c : Char)
  | quoted (mark : QuoteMark) (content : Text)
  | unclosed (mark : QuoteMark) (content : Text)
deriving DecidableEq

def isSqlSpace (c : Char) : Bool :=
  c == ' ' || c == '\t' || c == '\n' || c == '\x0c' || c == '\r'

def isWordChar (c : Char) : Bool :=
  c.isAlphanum || c == '_' || c == '$' || 128 ≤ c.toNat

/-- Whether the character ends a word and starts nothing that goes on after it. -/
def isSeparator (c : Char) : Bool :=
  !isWordChar c && (quoteMark? c).isNone && c != '-'

/-- The states of the scanner, with what was read of the current token. `closing`
is the state after a mark that ends a quoted text unless the same mark follows. -/
inductive Scanner
  | ready
  | word (s : Text)
  | quoted (mark : QuoteMark) (content : Text)
  | closing (mark : QuoteMark) (content : Text)
  | dash
  | comment

namespace Scanner

/-- The tokens that are left when the text ends. -/
def pending : Scanner → List Token
  | ready => []
  | word s => [.word s]
  | quoted mark content => [.unclosed mark content]
  | closing mark content => [.quoted mark content]
  | dash => [.symbol '-']
  | comment => []

/-- Ends the current token and reads a character that is not part of it. -/
def restart (q : Scanner) (c : Char) : List Token × Scanner :=
  if isSqlSpace c then (q.pending, ready)
  else
    match quoteMark? c with
    | some mark => (q.pending, quoted mark [])
    | none =>
      if c = '-' then (q.pending, dash)
      else if isWordChar c then (q.pending, word [c])
      else (q.pending ++ [.symbol c], ready)

/-- Reads one character: the tokens that it completes, and the next state. -/
def step (q : Scanner) (c : Char) : List Token × Scanner :=
  match q with
  | ready => ready.restart c
  | word s => if isWordChar c then ([], word (s ++ [c])) else (word s).restart c
  | quoted mark content =>
    if c = mark.char then ([], closing mark content) else ([], quoted mark (content ++ [c]))
  | closing mark content =>
    if c = mark.char then ([], quoted mark (content ++ [c])) else (closing mark content).restart c
  | dash => if c = '-' then ([], comment) else dash.restart c
  | comment => if c = '\n' then ([], ready) else ([], comment)

/-- The tokens of a text that is read from the state `q` on. -/
def tokens (q : Scanner) : Text → List Token
  | [] => q.pending
  | c :: s => (q.step c).1 ++ (q.step c).2.tokens s

def after (q : Scanner) : Text → Scanner
  | [] => q
  | c :: s => (q.step c).2.after s

@[simp] theorem tokens_nil (q : Scanner) : q.tokens [] = q.pending := rfl

theorem tokens_cons (q : Scanner) (c : Char) (s : Text) :
    q.tokens (c :: s) = (q.step c).1 ++ (q.step c).2.tokens s := rfl

@[simp] theorem after_nil (q : Scanner) : q.after [] = q := rfl

theorem after_cons (q : Scanner) (c : Char) (s : Text) :
    q.after (c :: s) = (q.step c).2.after s := rfl

theorem after_append (q : Scanner) (s t : Text) :
    q.after (s ++ t) = (q.after s).after t := by
  induction s generalizing q with
  | nil => rfl
  | cons c s ih => exact ih (q.step c).2

/-- Whether a separator ends what was read. -/
def isSettled : Scanner → Bool
  | ready | word _ | closing _ _ => true
  | quoted _ _ | dash | comment => false

theorem restart_separator (q : Scanner) {c : Char} (hc : isSeparator c) :
    q.restart c = (q.pending ++ (ready.step c).1, ready) := by
  simp only [isSeparator, Bool.and_eq_true, Bool.not_eq_true', Option.isNone_iff_eq_none,
    bne_iff_ne] at hc
  obtain ⟨⟨hword, hmark⟩, hdash⟩ := hc
  by_cases hspace : isSqlSpace c
  · simp [step, restart, hspace, pending]
  · simp [step, restart, hspace, hmark, hdash, hword, pending]

/-- A separator completes what was read before it. -/
theorem step_separator {q : Scanner} (hq : q.isSettled) {c : Char} (hc : isSeparator c) :
    q.step c = (q.pending ++ (ready.step c).1, ready) := by
  rw [← restart_separator q hc]
  simp only [isSeparator, Bool.and_eq_true, Bool.not_eq_true', Option.isNone_iff_eq_none] at hc
  obtain ⟨⟨hword, hmark⟩, -⟩ := hc
  cases q with
  | ready => rfl
  | word s => simp [step, hword]
  | closing mark content => simp [step, char_ne_of_quoteMark?_eq_none hmark mark]
  | quoted mark content => cases hq
  | dash => cases hq
  | comment => cases hq

theorem tokens_separator {q : Scanner} (hq : q.isSettled) {c : Char} (hc : isSeparator c)
    (t : Text) : q.tokens (c :: t) = q.pending ++ ready.tokens (c :: t) := by
  have hready : ready.step c = ((ready.step c).1, ready) := step_separator rfl hc
  rw [tokens_cons, tokens_cons, step_separator hq hc, hready, List.append_assoc]

/-- A text after which the scanner is settled is read on its own when a separator
follows it. -/
theorem tokens_append_separator {q : Scanner} {s : Text} (hs : (q.after s).isSettled)
    {c : Char} (hc : isSeparator c) (t : Text) :
    q.tokens (s ++ c :: t) = q.tokens s ++ ready.tokens (c :: t) := by
  induction s generalizing q with
  | nil => exact tokens_separator hs hc t
  | cons d s ih =>
      rw [List.cons_append, tokens_cons, tokens_cons, ih hs, List.append_assoc]

theorem after_doubled (mark : QuoteMark) (content s : Text) :
    (quoted mark content).after (Text.doubled mark.char s) = quoted mark (content ++ s) := by
  induction s generalizing content with
  | nil => simp
  | cons c s ih =>
      by_cases hc : c = mark.char
      · -- The second of two marks leads back into the quoted text.
        simp [Text.doubled_cons, hc, after_cons, step, ih]
      · simp [Text.doubled_cons, hc, after_cons, step, ih]

theorem after_quoted (mark : QuoteMark) (s : Text) :
    ready.after (Text.quoted mark.char s) = closing mark s := by
  have hopen : ready.step mark.char = ([], quoted mark []) := by cases mark <;> rfl
  rw [Text.quoted, after_cons, hopen, after_append, after_doubled]
  simp [after_cons, step]

theorem step_wordChar {c : Char} (hc : isWordChar c) : ready.step c = ([], word [c]) := by
  have hne : ∀ d, isWordChar d = false → c ≠ d := fun d hd heq => by simp [heq, hd] at hc
  have hspace : isSqlSpace c = false := by
    simp [isSqlSpace, hne ' ' rfl, hne '\t' rfl, hne '\n' rfl, hne '\x0c' rfl, hne '\r' rfl]
  have hmark : quoteMark? c = none := by
    simp [quoteMark?, hne '\'' rfl, hne '"' rfl]
  simp [step, restart, hspace, hmark, hne '-' rfl, hc, pending]

theorem after_wordChars {s : Text} (hs : ∀ c ∈ s, isWordChar c) (w : Text) :
    (word w).after s = word (w ++ s) := by
  induction s generalizing w with
  | nil => simp
  | cons c s ih =>
      have hc : isWordChar c := hs c (by simp)
      have hrest : ∀ d ∈ s, isWordChar d := fun d hd => hs d (by simp [hd])
      simp [after_cons, step, hc, ih hrest]

end Scanner

def Settled (s : Text) : Prop :=
  (Scanner.ready.after s).isSettled

/-- A text that ends what comes before it and leaves nothing behind. -/
def Separates (s : Text) : Prop :=
  ∀ q : Scanner, q.isSettled → q.after s = .ready

theorem separates_cons {c : Char} {s : Text} (hc : isSeparator c)
    (hs : Scanner.ready.after s = .ready) : Separates (c :: s) := by
  intro q hq
  rw [Scanner.after_cons, Scanner.step_separator hq hc, hs]

namespace Settled

theorem separated {s separator t : Text} (hs : Settled s) (hseparator : Separates separator)
    (ht : Settled t) : Settled (s ++ (separator ++ t)) := by
  unfold Settled
  rw [Scanner.after_append, Scanner.after_append, hseparator _ hs]
  exact ht

theorem led {lead t : Text} (hlead : Scanner.ready.after lead = .ready) (ht : Settled t) :
    Settled (lead ++ t) := by
  unfold Settled
  rw [Scanner.after_append, hlead]
  exact ht

theorem quoteIdentifier (name : String) : Settled (quoteIdentifier name) := by
  have hafter : Scanner.ready.after (LiteSql.quoteIdentifier name) =
      .closing .double name.toList := Scanner.after_quoted .double name.toList
  unfold Settled
  rw [hafter]
  rfl

theorem quote (table : QualifiedName) : Settled table.quote := by
  unfold QualifiedName.quote
  cases table.schema with
  | none => exact quoteIdentifier table.name
  | some schema =>
      have hpoint : Separates ['.'] := separates_cons rfl rfl
      exact (quoteIdentifier schema).separated hpoint (quoteIdentifier table.name)

theorem wordChars {s : Text} (hs : ∀ c ∈ s, isWordChar c) : Settled s := by
  unfold Settled
  cases s with
  | nil => rfl
  | cons c s =>
      have hrest : ∀ d ∈ s, isWordChar d := fun d hd => hs d (by simp [hd])
      rw [Scanner.after_cons, Scanner.step_wordChar (hs c (by simp)),
        Scanner.after_wordChars hrest]
      rfl

theorem placeholder (n : Nat) : Settled (placeholder n) := by
  have hdigits : ∀ c ∈ Text.digits n, isWordChar c := by
    intro c hc
    have hdigit : c.isDigit := Nat.isDigit_of_mem_toDigits (by decide) (by decide) hc
    simp [isWordChar, Char.isAlphanum, hdigit]
  have hmark : Scanner.ready.after ['?'] = .ready := rfl
  exact led hmark (wordChars hdigits)

theorem joined {separator : String} (hseparator : Separates separator.toList)
    {parts : List Text} (hparts : ∀ s ∈ parts, Settled s) :
    Settled (Text.joined separator parts) := by
  unfold Text.joined
  induction parts with
  | nil => exact rfl
  | cons s parts ih =>
      have hs : Settled s := hparts s (by simp)
      have hrest := ih fun t ht => hparts t (by simp [ht])
      cases parts with
      | nil => simpa using hs
      | cons t parts =>
          rw [List.intercalate_cons_cons, List.append_assoc]
          exact hs.separated hseparator hrest

end Settled

end LiteSql
