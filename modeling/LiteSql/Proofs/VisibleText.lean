import LiteSql.Proofs.Numerals
import LiteSql.Proofs.Tokens
import Mathlib.Data.List.Chain
import Mathlib.Data.List.TakeWhile

/-!
# Text outside of quotes

The visible text is what is left of a text when every quoted text in it is reduced
to its opening mark. Names and strings of any content are therefore hidden, and
what an SQL engine acts on is visible: placeholders, semicolons and the characters
that open a comment.

A text is *calm* if its quotes are closed and neither a semicolon nor the opening
of a comment is visible in it. Calm texts can be put one after the other: a calm
text does not end in the first character of a comment, so only a placeholder that
is followed by a digit has to be excluded.
-/

namespace LiteSql

/-- The quote that is open after a text, if one is. A doubled mark closes a quoted
text and opens it again. -/
def quoteAfter : Option QuoteMark → Text → Option QuoteMark
  | q, [] => q
  | none, c :: s => quoteAfter (quoteMark? c) s
  | some mark, c :: s => quoteAfter (if c = mark.char then none else some mark) s

/-- The text outside of quotes, with the opening marks. -/
def visible : Option QuoteMark → Text → Text
  | _, [] => []
  | none, c :: s => c :: visible (quoteMark? c) s
  | some mark, c :: s => visible (if c = mark.char then none else some mark) s

/-- The longest run of digits after each question mark. -/
def placeholderNumbers : Text → List Text
  | [] => []
  | c :: s =>
    if c = '?' then s.takeWhile Char.isDigit :: placeholderNumbers s else placeholderNumbers s

/-- Two characters that do not open a comment. -/
def OpensNoComment (a b : Char) : Prop :=
  ¬ (a = '-' ∧ b = '-') ∧ ¬ (a = '/' ∧ b = '*')

instance (a b : Char) : Decidable (OpensNoComment a b) :=
  inferInstanceAs (Decidable (_ ∧ _))

theorem quoteAfter_append (q : Option QuoteMark) (s t : Text) :
    quoteAfter q (s ++ t) = quoteAfter (quoteAfter q s) t := by
  induction s generalizing q with
  | nil => cases q <;> rfl
  | cons c s ih =>
      cases q with
      | none => exact ih _
      | some mark => exact ih _

theorem visible_append (q : Option QuoteMark) (s t : Text) :
    visible q (s ++ t) = visible q s ++ visible (quoteAfter q s) t := by
  induction s generalizing q with
  | nil => cases q <;> rfl
  | cons c s ih =>
      cases q with
      | none => exact congrArg (c :: ·) (ih _)
      | some mark => exact ih _

theorem head?_visible (s : Text) : (visible none s).head? = s.head? := by
  cases s <;> rfl

theorem visible_of_no_mark {s : Text} (h : ∀ c ∈ s, quoteMark? c = none) :
    visible none s = s ∧ quoteAfter none s = none := by
  induction s with
  | nil => exact ⟨rfl, rfl⟩
  | cons c s ih =>
      rw [List.forall_mem_cons] at h
      simpa [visible, quoteAfter, h.1] using ih h.2

/-- Inside of quotes a text with its marks doubled shows nothing but marks. -/
theorem visible_doubled (mark : QuoteMark) (s : Text) :
    (∀ c ∈ visible (some mark) (Text.doubled mark.char s), c = mark.char) ∧
      quoteAfter (some mark) (Text.doubled mark.char s) = some mark := by
  have hmark : quoteMark? mark.char = some mark := by cases mark <;> rfl
  induction s with
  | nil => simp [visible, quoteAfter]
  | cons c s ih =>
      by_cases hc : c = mark.char
      · simpa [Text.doubled_cons, hc, visible, quoteAfter, hmark] using ih
      · simpa [Text.doubled_cons, hc, visible, quoteAfter] using ih

/-- A quoted text is closed, and only marks of its kind are visible of it. -/
theorem visible_quoted (mark : QuoteMark) (s : Text) :
    (∀ c ∈ visible none (Text.quoted mark.char s), c = mark.char) ∧
      quoteAfter none (Text.quoted mark.char s) = none := by
  have hmark : quoteMark? mark.char = some mark := by cases mark <;> rfl
  obtain ⟨hvisible, hopen⟩ := visible_doubled mark s
  constructor
  · intro c hc
    simp only [Text.quoted, visible, hmark, visible_append, hopen, List.append_nil,
      List.mem_cons] at hc
    rcases hc with rfl | hc
    · rfl
    · exact hvisible c hc
  · simp [Text.quoted, quoteAfter, hmark, quoteAfter_append, hopen]

example : visible none "a 'b''?' \"c;\" ?1".toList = "a '' \" ?1".toList := by decide

theorem placeholderNumbers_eq_nil {s : Text} (h : '?' ∉ s) : placeholderNumbers s = [] := by
  induction s with
  | nil => rfl
  | cons c s ih =>
      have hc : c ≠ '?' := fun heq => h (by simp [heq])
      have hs : '?' ∉ s := fun hmem => h (by simp [hmem])
      rw [placeholderNumbers, if_neg hc, ih hs]

theorem takeWhile_isDigit_append {s t : Text} (ht : ∀ c ∈ t.head?, c.isDigit = false) :
    (s ++ t).takeWhile Char.isDigit = s.takeWhile Char.isDigit := by
  have hnone : t.takeWhile Char.isDigit = [] := by
    cases t with
    | nil => rfl
    | cons c t => simp [ht c rfl]
  rw [List.takeWhile_append, hnone]
  split
  · rename_i hall
    rw [List.append_nil, List.IsPrefix.eq_of_length (List.takeWhile_prefix _) hall]
  · rfl

theorem placeholderNumbers_append {s t : Text}
    (h : placeholderNumbers s = [] ∨ ∀ c ∈ t.head?, c.isDigit = false) :
    placeholderNumbers (s ++ t) = placeholderNumbers s ++ placeholderNumbers t := by
  induction s with
  | nil => rfl
  | cons c s ih =>
      rw [List.cons_append, placeholderNumbers, placeholderNumbers]
      by_cases hc : c = '?'
      · -- The digits after this mark could go on in `t`, so its head decides.
        have hhead : ∀ d ∈ t.head?, d.isDigit = false := by
          rcases h with hnone | hhead
          · simp [placeholderNumbers, hc] at hnone
          · exact hhead
        rw [if_pos hc, if_pos hc, takeWhile_isDigit_append hhead, ih (.inr hhead), List.cons_append]
      · rw [placeholderNumbers, if_neg hc] at h
        rw [if_neg hc, if_neg hc, ih h]

/-- Closed quotes, the given numbers after the visible question marks, and nothing
visible that ends a statement or opens a comment, also not together with a text
that follows. -/
structure Calm (s : Text) (numbers : List Text) : Prop where
  closed : quoteAfter none s = none
  numbers_eq : placeholderNumbers (visible none s) = numbers
  no_semicolon : ';' ∉ visible none s
  no_comment : List.IsChain OpensNoComment (visible none s)
  end_ne_dash : (visible none s).getLast? ≠ some '-'
  end_ne_slash : (visible none s).getLast? ≠ some '/'

namespace Calm

theorem nil : Calm [] [] :=
  ⟨rfl, rfl, by simp [visible], by simp [visible], by simp [visible], by simp [visible]⟩

/-- Calm texts one after the other are calm if no digit is added to a placeholder. -/
theorem append {s t : Text} {ns ms : List Text} (hs : Calm s ns) (ht : Calm t ms)
    (hdigit : ns = [] ∨ ∀ c ∈ t.head?, c.isDigit = false) : Calm (s ++ t) (ns ++ ms) := by
  have hvisible : visible none (s ++ t) = visible none s ++ visible none t := by
    rw [visible_append, hs.closed]
  refine ⟨?_, ?_, ?_, ?_, ?_, ?_⟩
  · rw [quoteAfter_append, hs.closed, ht.closed]
  · rw [← head?_visible t, ← hs.numbers_eq] at hdigit
    rw [hvisible, placeholderNumbers_append hdigit, hs.numbers_eq, ht.numbers_eq]
  · rw [hvisible, List.mem_append]
    exact fun hmem => hmem.elim hs.no_semicolon ht.no_semicolon
  · -- A comment across the two texts would begin at the end of the first one.
    rw [hvisible, List.isChain_append]
    refine ⟨hs.no_comment, ht.no_comment, fun a ha b _ => ⟨?_, ?_⟩⟩
    · rintro ⟨rfl, -⟩
      exact hs.end_ne_dash ha
    · rintro ⟨rfl, -⟩
      exact hs.end_ne_slash ha
  · rw [hvisible, List.getLast?_append]
    cases hlast : (visible none t).getLast? with
    | none => simpa using hs.end_ne_dash
    | some c => simpa [hlast] using ht.end_ne_dash
  · rw [hvisible, List.getLast?_append]
    cases hlast : (visible none t).getLast? with
    | none => simpa using hs.end_ne_slash
    | some c => simpa [hlast] using ht.end_ne_slash

theorem append_plain {s t : Text} {ns : List Text} (hs : Calm s []) (ht : Calm t ns) :
    Calm (s ++ t) ns :=
  hs.append ht (.inl rfl)

/-- A character before a calm text, where the two do not open a comment. -/
theorem cons {c : Char} {s : Text} {ns : List Text} (hs : Calm s ns) (hne : s ≠ [])
    (hmark : quoteMark? c = none) (hquestion : c ≠ '?') (hsemicolon : c ≠ ';')
    (hcomment : ∀ d ∈ s.head?, OpensNoComment c d) : Calm (c :: s) ns := by
  have hvisible : visible none (c :: s) = c :: visible none s := by
    rw [visible, hmark]
  have hlast : (c :: visible none s).getLast? = (visible none s).getLast? := by
    cases s with
    | nil => exact absurd rfl hne
    | cons d s => rw [visible, List.getLast?_cons_cons]
  refine ⟨?_, ?_, ?_, ?_, ?_, ?_⟩
  · rw [quoteAfter, hmark, hs.closed]
  · rw [hvisible, placeholderNumbers, if_neg hquestion, hs.numbers_eq]
  · rw [hvisible, List.mem_cons]
    exact fun hmem => hmem.elim (fun heq => hsemicolon heq.symm) hs.no_semicolon
  · rw [hvisible, List.isChain_cons, head?_visible]
    exact ⟨hcomment, hs.no_comment⟩
  · rw [hvisible, hlast]
    exact hs.end_ne_dash
  · rw [hvisible, hlast]
    exact hs.end_ne_slash

/-- A closed text is calm if none of its visible characters counts. -/
theorem of_visible {s : Text} (hclosed : quoteAfter none s = none)
    (h : ∀ c ∈ visible none s, c ∉ "?;-/".toList) : Calm s [] := by
  refine ⟨hclosed, placeholderNumbers_eq_nil fun hmem => h _ hmem (by decide),
    fun hmem => h _ hmem (by decide), ?_, fun hlast => ?_, fun hlast => ?_⟩
  · refine List.Pairwise.isChain (List.pairwise_of_forall_mem_list fun a ha b _ => ⟨?_, ?_⟩)
    · rintro ⟨rfl, -⟩
      exact h _ ha (by decide)
    · rintro ⟨rfl, -⟩
      exact h _ ha (by decide)
  · exact h _ (List.mem_of_getLast? hlast) (by decide)
  · exact h _ (List.mem_of_getLast? hlast) (by decide)

end Calm

/-- Whether a character means nothing on its own and opens nothing. -/
def isPlainChar (c : Char) : Bool :=
  (quoteMark? c).isNone && !"?;-/".toList.contains c

theorem Calm.plain {s : Text} (h : s.all isPlainChar) : Calm s [] := by
  simp only [List.all_eq_true, isPlainChar, Bool.and_eq_true, Option.isNone_iff_eq_none] at h
  obtain ⟨hvisible, hclosed⟩ := visible_of_no_mark fun c hc => (h c hc).1
  refine .of_visible hclosed fun c hc => ?_
  rw [hvisible] at hc
  simpa using (h c hc).2

theorem isPlainChar_of_isAlphanum {c : Char} (hc : c.isAlphanum) : isPlainChar c := by
  by_contra hplain
  have hcases : c ∈ "'\"?;-/".toList := by
    by_contra hother
    simp only [String.reduceToList, List.mem_cons, List.not_mem_nil, or_false, not_or] at hother
    simp [isPlainChar, quoteMark?, hother] at hplain
  have hnone : "'\"?;-/".toList.all fun d => !d.isAlphanum := rfl
  have hother := List.all_eq_true.mp hnone c hcases
  rw [hc] at hother
  cases hother

namespace Calm

theorem isPlainChar_of_isDigit {c : Char} (hc : c.isDigit) : isPlainChar c :=
  isPlainChar_of_isAlphanum (by simp [Char.isAlphanum, hc])

theorem digits {s : Text} (hs : IsDigits s) : Calm s [] :=
  .plain (List.all_eq_true.mpr fun c hc => isPlainChar_of_isDigit (hs.2 c hc))

theorem quoted (mark : QuoteMark) (s : Text) : Calm (Text.quoted mark.char s) [] := by
  have hplain : mark.char ∉ "?;-/".toList := by cases mark <;> decide
  obtain ⟨hvisible, hclosed⟩ := visible_quoted mark s
  refine .of_visible hclosed fun c hc => ?_
  rwa [hvisible c hc]

theorem quoteIdentifier (name : String) : Calm (quoteIdentifier name) [] :=
  quoted .double name.toList

theorem quote (name : QualifiedName) : Calm name.quote [] := by
  unfold QualifiedName.quote
  split
  · have hpoint : Calm ['.'] [] := .plain (by decide)
    exact (quoteIdentifier _).append_plain (hpoint.append_plain (quoteIdentifier _))
  · exact quoteIdentifier _

theorem placeholder (n : Nat) : Calm (placeholder n) [Text.digits n] := by
  have hdigits : IsDigits (Text.digits n) := .digits n
  have htail := Calm.digits hdigits
  have hvisible : visible none (LiteSql.placeholder n) = '?' :: visible none (Text.digits n) := rfl
  have hseen : visible none (Text.digits n) = Text.digits n := by
    refine (visible_of_no_mark fun c hc => ?_).1
    have hplain := isPlainChar_of_isDigit (hdigits.2 c hc)
    simp only [isPlainChar, Bool.and_eq_true, Option.isNone_iff_eq_none] at hplain
    exact hplain.1
  have hlast : ('?' :: visible none (Text.digits n)).getLast? =
      (visible none (Text.digits n)).getLast? := by
    obtain ⟨c, ds, hds⟩ := List.exists_cons_of_ne_nil hdigits.1
    rw [hseen, hds, List.getLast?_cons_cons]
  refine ⟨htail.closed, ?_, ?_, ?_, ?_, ?_⟩
  · rw [hvisible, placeholderNumbers, if_pos rfl, htail.numbers_eq, hseen,
      List.takeWhile_eq_self_iff.mpr hdigits.2]
  · rw [hvisible, List.mem_cons]
    rintro (heq | hmem)
    · exact absurd heq (by decide)
    · exact htail.no_semicolon hmem
  · rw [hvisible, List.isChain_cons]
    exact ⟨fun c _ => ⟨by simp, by simp⟩, htail.no_comment⟩
  · rw [hvisible, hlast]
    exact htail.end_ne_dash
  · rw [hvisible, hlast]
    exact htail.end_ne_slash

/-- A sign before digits opens no comment. -/
theorem signed {s t : Text} (hs : IsDigits s) (hst : Calm (s ++ t) []) (negative : Bool) :
    Calm (Numeral.signText negative ++ (s ++ t)) [] := by
  cases negative with
  | false => exact hst
  | true =>
      obtain ⟨c, s, rfl⟩ := List.exists_cons_of_ne_nil hs.1
      refine hst.cons (by simp) rfl (by decide) (by decide) fun d hd => ⟨?_, by simp⟩
      rintro ⟨-, rfl⟩
      have hdigit := hs.2 '-' (by simp_all)
      exact absurd hdigit (by decide)

theorem number (n : Numeral) : Calm n.text [] := by
  have hpoint : Calm ['.'] [] := .plain (by decide)
  have hmark : Calm ['e'] [] := .plain (by decide)
  have hfraction : Calm (Numeral.fractionText n.fraction) [] := by
    cases h : n.fraction with
    | none => exact .nil
    | some ds => exact hpoint.append_plain (.digits (n.fraction_digits ds h))
  have hexponent : Calm (Numeral.exponentText n.exponent) [] := by
    cases h : n.exponent with
    | none => exact .nil
    | some e =>
        have hdigits : IsDigits e.2 := n.exponent_digits e h
        have hpower := Calm.signed hdigits (t := []) (by simpa using Calm.digits hdigits) e.1
        rw [List.append_nil] at hpower
        exact hmark.append_plain hpower
  apply Calm.signed n.whole_digits
  exact (Calm.digits n.whole_digits).append_plain (hfraction.append_plain hexponent)

theorem of_literalForm {s : Text} (hs : LiteralForm s) : Calm s [] := by
  cases hs with
  | null => exact .plain (by decide)
  | number n => exact .number n
  | string s => exact .quoted .single s
  | blob s =>
      have hletter : Calm ['X'] [] := .plain (by decide)
      exact hletter.append_plain (.quoted .single s)

theorem literal (v : Value) : Calm v.literal [] :=
  of_literalForm v.literalForm

end Calm

end LiteSql
