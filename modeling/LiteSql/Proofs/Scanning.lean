import LiteSql.Proofs.Numerals
import LiteSql.Proofs.Tokens

/-!
# Tokens of texts that are put together

The tokens of a text are those of its parts when each part leaves the scanner settled
and the next one starts with a separator. A text *trails* if it can follow every
settled text: it is empty, or it starts with a separator and is settled itself.
Trailing texts can be put one after the other.

The characters of every token occur in the text. So the tokens of a number, whatever
they are, have none of the characters that structure a statement.
-/

namespace LiteSql

/-- The tokens of a text after which the scanner is settled. -/
structure Scans (s : Text) (ts : List Token) : Prop where
  settled : Settled s
  tokens_eq : Scanner.ready.tokens s = ts

/-- The text adds its tokens to those of any settled text before it. -/
def Trails (s : Text) (ts : List Token) : Prop :=
  ∀ front us, Scans front us → Scans (front ++ s) (us ++ ts)

namespace Scanner

theorem tokens_doubled (mark : QuoteMark) (content s rest : Text) :
    (quoted mark content).tokens (Text.doubled mark.char s ++ rest) =
      (quoted mark (content ++ s)).tokens rest := by
  induction s generalizing content with
  | nil => simp
  | cons c s ih =>
      by_cases hc : c = mark.char
      · simp [Text.doubled_cons, hc, tokens_cons, step, ih]
      · simp [Text.doubled_cons, hc, tokens_cons, step, ih]

theorem tokens_wordChars {s : Text} (hs : ∀ c ∈ s, isWordChar c) (w : Text) :
    (word w).tokens s = [.word (w ++ s)] := by
  induction s generalizing w with
  | nil => simp [pending]
  | cons c s ih =>
      rw [List.forall_mem_cons] at hs
      simp [tokens_cons, step, hs.1, ih hs.2]

/-- The characters of the current token. -/
def chars : Scanner → Text
  | ready | comment => []
  | word s => s
  | quoted _ content | closing _ content => content
  | dash => ['-']

end Scanner

def Token.chars : Token → Text
  | word s => s
  | symbol c => [c]
  | quoted _ content | unclosed _ content => content

namespace Scanner

theorem chars_pending {q : Scanner} {t : Token} (ht : t ∈ q.pending) : t.chars = q.chars := by
  cases q <;> simp_all [pending, chars, Token.chars]

theorem chars_restart (q : Scanner) (c : Char) :
    (∀ t ∈ (q.restart c).1, ∀ d ∈ t.chars, d ∈ q.chars ∨ d = c) ∧
      ∀ d ∈ (q.restart c).2.chars, d = c := by
  have hpending : ∀ t ∈ q.pending, ∀ d ∈ t.chars, d ∈ q.chars ∨ d = c := fun t ht d hd =>
    .inl (chars_pending ht ▸ hd)
  unfold restart
  split
  · exact ⟨hpending, by simp [chars]⟩
  · split
    · exact ⟨hpending, by simp [chars]⟩
    · split
      · rename_i hdash
        exact ⟨hpending, by simp [chars, hdash]⟩
      · split
        · exact ⟨hpending, by simp [chars]⟩
        · refine ⟨fun t ht d hd => ?_, by simp [chars]⟩
          rcases List.mem_append.mp ht with hmem | hmem
          · exact hpending t hmem d hd
          · rw [List.mem_singleton] at hmem
            subst hmem
            exact .inr (by simpa [Token.chars] using hd)

theorem chars_step (q : Scanner) (c : Char) :
    (∀ t ∈ (q.step c).1, ∀ d ∈ t.chars, d ∈ q.chars ∨ d = c) ∧
      ∀ d ∈ (q.step c).2.chars, d ∈ q.chars ∨ d = c := by
  have hrestart := chars_restart q c
  have hnext : ∀ d ∈ (q.restart c).2.chars, d ∈ q.chars ∨ d = c := fun d hd =>
    .inr (hrestart.2 d hd)
  cases q with
  | ready => exact ⟨hrestart.1, hnext⟩
  | word s =>
      by_cases hc : isWordChar c
      · simp [step, hc, chars]
      · simpa [step, hc] using ⟨hrestart.1, hnext⟩
  | quoted mark content =>
      by_cases hc : c = mark.char <;> simp [step, hc, chars]
      · tauto
  | closing mark content =>
      by_cases hc : c = mark.char
      · simp [step, hc, chars]
      · simpa [step, hc] using ⟨hrestart.1, hnext⟩
  | dash =>
      by_cases hc : c = '-'
      · simp [step, hc, chars]
      · simpa [step, hc] using ⟨hrestart.1, hnext⟩
  | comment => by_cases hc : c = '\n' <;> simp [step, hc, chars]

/-- Every character of a token was read. -/
theorem chars_tokens {q : Scanner} {s : Text} {t : Token} (ht : t ∈ q.tokens s) :
    ∀ d ∈ t.chars, d ∈ q.chars ∨ d ∈ s := by
  induction s generalizing q with
  | nil =>
      intro d hd
      exact .inl (chars_pending ht ▸ hd)
  | cons c s ih =>
      obtain ⟨hfirst, hnext⟩ := chars_step q c
      intro d hd
      rw [tokens_cons, List.mem_append] at ht
      rcases ht with hmem | hmem
      · rcases hfirst t hmem d hd with hq | rfl
        · exact .inl hq
        · exact .inr (by simp)
      · rcases ih hmem d hd with hq | hs
        · rcases hnext d hq with hq | rfl
          · exact .inl hq
          · exact .inr (by simp)
        · exact .inr (by simp [hs])

/-- The state after a new start does not depend on what was read before. -/
theorem snd_restart (q q' : Scanner) (c : Char) : (q.restart c).2 = (q'.restart c).2 := by
  unfold restart
  split
  · rfl
  · split
    · rfl
    · split
      · rfl
      · split <;> rfl

/-- The states in which a digit starts or goes on a word. -/
def takesDigits : Scanner → Bool
  | ready | word _ | dash => true
  | quoted _ _ | closing _ _ | comment => false

theorem step_digit {q : Scanner} (hq : q.takesDigits) {c : Char} (hc : c.isDigit) :
    ∃ w, (q.step c).2 = word w := by
  have hword : isWordChar c := by simp [isWordChar, Char.isAlphanum, hc]
  have hready := step_wordChar hword
  cases q with
  | ready => exact ⟨[c], by rw [hready]⟩
  | word s => exact ⟨s ++ [c], by simp [step, hword]⟩
  | dash =>
      have hdash : c ≠ '-' := by
        rintro rfl
        exact absurd hc (by decide)
      refine ⟨[c], ?_⟩
      rw [step, if_neg hdash, snd_restart dash ready]
      exact congrArg Prod.snd hready
  | quoted mark content => cases hq
  | closing mark content => cases hq
  | comment => cases hq

theorem after_digits {q : Scanner} (hq : q.takesDigits) {s : Text} (hs : IsDigits s) :
    ∃ w, q.after s = word w := by
  obtain ⟨hne, hdigits⟩ := hs
  induction s generalizing q with
  | nil => exact absurd rfl hne
  | cons c s ih =>
      rw [List.forall_mem_cons] at hdigits
      obtain ⟨w, hw⟩ := step_digit hq hdigits.1
      rw [after_cons, hw]
      by_cases hnil : s = []
      · exact ⟨w, by rw [hnil, after_nil]⟩
      · exact ih rfl hnil hdigits.2

theorem takesDigits_signText {q : Scanner} (hq : q = ready ∨ ∃ w, q = word w) (negative : Bool) :
    (q.after (Numeral.signText negative)).takesDigits := by
  rcases hq with rfl | ⟨w, rfl⟩ <;> cases negative <;> rfl

/-- After a number the scanner has read a word: each sign in it is followed by a digit. -/
theorem after_number (n : Numeral) : ∃ w, ready.after n.text = word w := by
  obtain ⟨whole, hwhole⟩ := after_digits (takesDigits_signText (.inl rfl) n.negative) n.whole_digits
  obtain ⟨fraction, hfraction⟩ :
      ∃ w, (word whole).after (Numeral.fractionText n.fraction) = word w := by
    cases h : n.fraction with
    | none => exact ⟨whole, rfl⟩
    | some ds =>
        have hpoint : ((word whole).step '.').2 = ready := rfl
        rw [Numeral.fractionText, after_cons, hpoint]
        exact after_digits rfl (n.fraction_digits ds h)
  obtain ⟨exponent, hexponent⟩ :
      ∃ w, (word fraction).after (Numeral.exponentText n.exponent) = word w := by
    cases h : n.exponent with
    | none => exact ⟨fraction, rfl⟩
    | some e =>
        have hmark : ((word fraction).step 'e').2 = word (fraction ++ ['e']) := rfl
        rw [Numeral.exponentText, after_cons, hmark, after_append]
        exact after_digits (takesDigits_signText (.inr ⟨_, rfl⟩) e.1) (n.exponent_digits e h)
  refine ⟨exponent, ?_⟩
  rw [Numeral.text, after_append, after_append, after_append, hwhole, hfraction, hexponent]

end Scanner

namespace Scans

theorem nil : Scans [] [] :=
  ⟨rfl, rfl⟩

theorem word {s : Text} (hne : s ≠ []) (hchars : s.all isWordChar) : Scans s [.word s] := by
  have hs := List.all_eq_true.mp hchars
  refine ⟨.wordChars hs, ?_⟩
  obtain ⟨c, s, rfl⟩ := List.exists_cons_of_ne_nil hne
  rw [List.forall_mem_cons] at hs
  rw [Scanner.tokens_cons, Scanner.step_wordChar hs.1]
  exact Scanner.tokens_wordChars hs.2 [c]

theorem digits (n : Nat) : Scans (Text.digits n) [.word (Text.digits n)] := by
  obtain ⟨hne, hdigits⟩ := IsDigits.digits n
  refine .word hne (List.all_eq_true.mpr fun c hc => ?_)
  simp [isWordChar, Char.isAlphanum, hdigits c hc]

theorem quoted (mark : QuoteMark) (s : Text) :
    Scans (Text.quoted mark.char s) [.quoted mark s] := by
  have hopen : Scanner.ready.step mark.char = ([], .quoted mark []) := by cases mark <;> rfl
  constructor
  · unfold Settled
    rw [Scanner.after_quoted]
    rfl
  · rw [Text.quoted, Scanner.tokens_cons, hopen, Scanner.tokens_doubled]
    simp [Scanner.tokens_cons, Scanner.step, Scanner.pending]

theorem quoteIdentifier (name : String) :
    Scans (quoteIdentifier name) [.quoted .double name.toList] :=
  quoted .double name.toList

/-- A separator before a text adds its own token, if it has one. -/
theorem separator {c : Char} (hc : isSeparator c) {s : Text} {ts : List Token} (hs : Scans s ts) :
    Scans (c :: s) ((Scanner.ready.step c).1 ++ ts) := by
  have hready : Scanner.ready.step c = ((Scanner.ready.step c).1, .ready) :=
    Scanner.step_separator rfl hc
  constructor
  · unfold Settled
    rw [Scanner.after_cons, hready]
    exact hs.settled
  · rw [Scanner.tokens_cons, hready, hs.tokens_eq]

theorem blank {s : Text} {ts : List Token} (hs : Scans s ts) : Scans (' ' :: s) ts :=
  hs.separator (c := ' ') rfl

end Scans

namespace Trails

theorem nil : Trails [] [] := by
  intro front us hfront
  simpa using hfront

theorem after {s front : Text} {ts us : List Token} (hs : Trails s ts) (hfront : Scans front us) :
    Scans (front ++ s) (us ++ ts) :=
  hs front us hfront

theorem append {s t : Text} {ts us : List Token} (hs : Trails s ts) (ht : Trails t us) :
    Trails (s ++ t) (ts ++ us) := by
  intro front ws hfront
  rw [← List.append_assoc, ← List.append_assoc]
  exact ht.after (hs.after hfront)

theorem separator {c : Char} (hc : isSeparator c) {s : Text} {ts : List Token} (hs : Scans s ts) :
    Trails (c :: s) ((Scanner.ready.step c).1 ++ ts) := by
  intro front us hfront
  have hback := hs.separator hc
  constructor
  · have hready : Scanner.ready.step c = ((Scanner.ready.step c).1, .ready) :=
      Scanner.step_separator rfl hc
    unfold Settled
    rw [Scanner.after_append, Scanner.after_cons, Scanner.step_separator hfront.settled hc]
    exact hs.settled
  · rw [Scanner.tokens_append_separator hfront.settled hc, hfront.tokens_eq, hback.tokens_eq]

theorem blank {s : Text} {ts : List Token} (hs : Scans s ts) : Trails (' ' :: s) ts :=
  separator (c := ' ') rfl hs

theorem comma {s : Text} {ts : List Token} (hs : Scans s ts) :
    Trails (',' :: s) (.symbol ',' :: ts) :=
  separator (c := ',') rfl hs

theorem close : Trails [')'] [.symbol ')'] :=
  separator (c := ')') rfl .nil

theorem parenthesized {s : Text} {ts : List Token} (hs : Scans s ts) :
    Trails (Text.parenthesized s) (.symbol '(' :: (ts ++ [.symbol ')'])) :=
  separator (c := '(') rfl (close.after hs)

end Trails

theorem Scans.parenthesized {s : Text} {ts : List Token} (hs : Scans s ts) :
    Scans (Text.parenthesized s) (.symbol '(' :: (ts ++ [.symbol ')'])) :=
  (Trails.parenthesized hs).after .nil

/-- The tokens of a list with commas. -/
theorem Scans.joined {parts : List Text} {tss : List (List Token)}
    (h : List.Forall₂ Scans parts tss) :
    Scans (Text.joined ", " parts) ([Token.symbol ','].intercalate tss) := by
  unfold Text.joined
  induction h with
  | nil => exact .nil
  | cons hfirst hrest ih =>
      cases hrest with
      | nil => simpa using hfirst
      | cons _ _ =>
          rw [List.intercalate_cons_cons, List.intercalate_cons_cons, List.append_assoc,
            List.append_assoc]
          exact (Trails.comma ih.blank).after hfirst

def QualifiedName.tokens (q : QualifiedName) : List Token :=
  match q.schema with
  | some schema => [.quoted .double schema.toList, .symbol '.', .quoted .double q.name.toList]
  | none => [.quoted .double q.name.toList]

theorem Scans.quote (q : QualifiedName) : Scans q.quote q.tokens := by
  unfold QualifiedName.quote QualifiedName.tokens
  cases q.schema with
  | none => exact .quoteIdentifier q.name
  | some schema =>
      have hname := Trails.separator (c := '.') rfl (.quoteIdentifier q.name)
      exact hname.after (.quoteIdentifier schema)

/-- Whether a symbol or a word can occur in a literal. -/
def Token.isOfLiteral : Token → Bool
  | word s => s == "NULL".toList || s == ['X'] || s.all isNumberChar
  | symbol c => isNumberChar c
  | quoted _ _ | unclosed _ _ => true

theorem Scans.number (n : Numeral) : ∃ ts, Scans n.text ts ∧ ∀ t ∈ ts, t.isOfLiteral := by
  obtain ⟨w, hw⟩ := Scanner.after_number n
  have hsettled : Settled n.text := by
    unfold Settled
    rw [hw]
    rfl
  refine ⟨_, ⟨hsettled, rfl⟩, fun t ht => ?_⟩
  have hchars : ∀ c ∈ t.chars, isNumberChar c := fun c hc => by
    rcases Scanner.chars_tokens ht c hc with hmem | hmem
    · cases hmem
    · exact Numeral.isNumberChar_of_mem hmem
  cases t with
  | word s =>
      have hall : s.all isNumberChar := List.all_eq_true.mpr hchars
      simp [Token.isOfLiteral, hall]
  | symbol c => exact hchars c (by simp [Token.chars])
  | quoted mark content => rfl
  | unclosed mark content => rfl

theorem Scans.blob (s : Text) :
    Scans ('X' :: Text.quoted '\'' s) [.word ['X'], .quoted .single s] := by
  have hletter : Scanner.ready.step 'X' = ([], .word ['X']) := rfl
  have hopen : (Scanner.word ['X']).step '\'' = ([.word ['X']], .quoted .single []) := rfl
  have hquoted := Scans.quoted .single s
  have hmark : Scanner.ready.step '\'' = ([], .quoted .single []) := rfl
  constructor
  · have hsettled := hquoted.settled
    unfold Settled Text.quoted QuoteMark.char at *
    rw [Scanner.after_cons, hmark] at hsettled
    rw [Scanner.after_cons, hletter, Scanner.after_cons, hopen]
    exact hsettled
  · have htokens := hquoted.tokens_eq
    unfold Text.quoted QuoteMark.char at *
    rw [Scanner.tokens_cons, hmark] at htokens
    rw [Scanner.tokens_cons, hletter, Scanner.tokens_cons, hopen]
    exact congrArg (Token.word ['X'] :: ·) htokens

theorem Scans.of_literalForm {s : Text} (hs : LiteralForm s) :
    ∃ ts, Scans s ts ∧ ∀ t ∈ ts, t.isOfLiteral := by
  cases hs with
  | null => exact ⟨_, .word (by decide) (by decide), by decide⟩
  | number n => exact Scans.number n
  | string s => exact ⟨_, .quoted .single s, by simp [Token.isOfLiteral]⟩
  | blob s => exact ⟨_, .blob s, by simp [Token.isOfLiteral]⟩

theorem Scans.literal (v : Value) : ∃ ts, Scans v.literal ts ∧ ∀ t ∈ ts, t.isOfLiteral :=
  Scans.of_literalForm v.literalForm

end LiteSql
