import LiteSql.Literal
import LiteSql.Proofs.Quoting
import Mathlib.Tactic.IntervalCases

/-!
# The forms of literals

Every literal is `NULL`, a number, a quoted string, or an `X` and a quoted string. A
number is written with a sign if it is negative, with digits, and perhaps with a
fraction and an exponent; each run of digits in it has at least one of them. This
is all that a reader of SQL text has to know about literals.

The digits of a number stand for an `Amount`. The texts of integers, decimals and
floats denote the amounts that they are written from.
-/

namespace LiteSql

/-- A run of at least one digit. -/
def IsDigits (s : Text) : Prop :=
  s ≠ [] ∧ ∀ c ∈ s, c.isDigit

theorem ofDigits_digits (n : Nat) : Text.ofDigits (Text.digits n) = n := by
  have hvalue := Nat.ofDigitChars_toDigits (b := 10) (n := n) (by decide) (by decide)
  rwa [Nat.ofDigitChars_eq_foldl] at hvalue

namespace Text

/-- The value of digits that follow digits with the value `n`. -/
def ofDigitsAfter (n : Nat) (s : Text) : Nat :=
  s.foldl (fun n c => 10 * n + digitValue c) n

theorem ofDigitsAfter_cons (n : Nat) (c : Char) (s : Text) :
    ofDigitsAfter n (c :: s) = ofDigitsAfter (10 * n + digitValue c) s := by
  rw [ofDigitsAfter, List.foldl_cons, ofDigitsAfter]

theorem ofDigitsAfter_append (n : Nat) (s t : Text) :
    ofDigitsAfter n (s ++ t) = ofDigitsAfter (ofDigitsAfter n s) t := by
  simp [ofDigitsAfter]

theorem le_ofDigitsAfter (n : Nat) (s : Text) : n ≤ ofDigitsAfter n s := by
  induction s generalizing n with
  | nil => exact Nat.le_refl n
  | cons c s ih =>
      rw [ofDigitsAfter_cons]
      have hle := ih (10 * n + digitValue c)
      omega

theorem ofDigitsAfter_zeros (n k : Nat) :
    ofDigitsAfter n (List.replicate k '0') = n * 10 ^ k := by
  induction k generalizing n with
  | zero => exact (Nat.mul_one n).symm
  | succ k ih =>
      have hzero : 10 * n + digitValue '0' = n * 10 := Nat.mul_comm 10 n
      rw [List.replicate_succ, ofDigitsAfter_cons, hzero, ih, Nat.pow_succ', Nat.mul_assoc]

theorem ofDigits_zeros_append (k : Nat) (s : Text) :
    ofDigits (List.replicate k '0' ++ s) = ofDigits s := by
  show ofDigitsAfter 0 _ = ofDigitsAfter 0 s
  rw [ofDigitsAfter_append, ofDigitsAfter_zeros, Nat.zero_mul]

theorem ofDigits_append_zeros (s : Text) (k : Nat) :
    ofDigits (s ++ List.replicate k '0') = ofDigits s * 10 ^ k := by
  show ofDigitsAfter 0 _ = ofDigitsAfter 0 s * 10 ^ k
  rw [ofDigitsAfter_append, ofDigitsAfter_zeros]

theorem ofDigits_padded (width n : Nat) : ofDigits (padded width n) = n := by
  rw [padded, ofDigits_zeros_append, ofDigits_digits]

end Text

namespace IsDigits

theorem digits (n : Nat) : IsDigits (Text.digits n) :=
  ⟨Nat.toDigits_ne_nil, fun _ hc => Nat.isDigit_of_mem_toDigits (by decide) (by decide) hc⟩

theorem of_all {s : Text} (hne : s ≠ []) (h : s.all Char.isDigit) : IsDigits s :=
  ⟨hne, List.all_eq_true.mp h⟩

theorem append {s t : Text} (hs : IsDigits s) (ht : ∀ c ∈ t, c.isDigit) : IsDigits (s ++ t) := by
  refine ⟨by simp [hs.1], fun c hc => ?_⟩
  rcases List.mem_append.mp hc with hmem | hmem
  · exact hs.2 c hmem
  · exact ht c hmem

theorem of_append_right {s t : Text} (hs : ∀ c ∈ s, c.isDigit) (ht : IsDigits t) :
    IsDigits (s ++ t) := by
  refine ⟨by simp [ht.1], fun c hc => ?_⟩
  rcases List.mem_append.mp hc with hmem | hmem
  · exact hs c hmem
  · exact ht.2 c hmem

theorem isDigit_of_mem_zeros {n : Nat} {c : Char} (hc : c ∈ List.replicate n '0') : c.isDigit := by
  rw [List.eq_of_mem_replicate hc]
  rfl

theorem padded (width n : Nat) : IsDigits (Text.padded width n) :=
  of_append_right (fun _ hc => isDigit_of_mem_zeros hc) (digits n)

theorem take {s : Text} (hs : IsDigits s) {n : Nat} (hn : 0 < n) : IsDigits (s.take n) := by
  refine ⟨fun hnil => ?_, fun c hc => hs.2 c (List.mem_of_mem_take hc)⟩
  rcases List.take_eq_nil_iff.mp hnil with hzero | hempty
  · omega
  · exact hs.1 hempty

theorem drop {s : Text} (hs : IsDigits s) {n : Nat} (hn : n < s.length) : IsDigits (s.drop n) := by
  refine ⟨fun hnil => ?_, fun c hc => hs.2 c (List.mem_of_mem_drop hc)⟩
  have hle := List.drop_eq_nil_iff.mp hnil
  omega

end IsDigits

/-- A number in SQL text: the digits before the point, those after it and those of
the exponent. -/
structure Numeral where
  negative : Bool
  whole : Text
  fraction : Option Text
  exponent : Option (Bool × Text)
  whole_digits : IsDigits whole
  fraction_digits : ∀ ds ∈ fraction, IsDigits ds
  exponent_digits : ∀ e ∈ exponent, IsDigits e.2

namespace Numeral

def signText (negative : Bool) : Text :=
  if negative then ['-'] else []

def fractionText : Option Text → Text
  | some ds => '.' :: ds
  | none => []

def exponentText : Option (Bool × Text) → Text
  | some (negative, ds) => 'e' :: (signText negative ++ ds)
  | none => []

def text (n : Numeral) : Text :=
  signText n.negative ++ (n.whole ++ (fractionText n.fraction ++ exponentText n.exponent))

/-- A whole number without a sign. -/
def ofDigits {s : Text} (hs : IsDigits s) : Numeral where
  negative := false
  whole := s
  fraction := none
  exponent := none
  whole_digits := hs
  fraction_digits := by simp
  exponent_digits := by simp

/-- A number with digits on both sides of the point. -/
def ofFraction {s t : Text} (hs : IsDigits s) (ht : IsDigits t) : Numeral where
  negative := false
  whole := s
  fraction := some t
  exponent := none
  whole_digits := hs
  fraction_digits := by simpa using ht
  exponent_digits := by simp

@[simp] theorem text_ofDigits {s : Text} (hs : IsDigits s) : (ofDigits hs).text = s := by
  simp [text, ofDigits, signText, fractionText, exponentText]

@[simp] theorem text_ofFraction {s t : Text} (hs : IsDigits s) (ht : IsDigits t) :
    (ofFraction hs ht).text = s ++ '.' :: t := by
  simp [text, ofFraction, signText, fractionText, exponentText]

def withExponent (n : Numeral) (negative : Bool) {s : Text} (hs : IsDigits s) : Numeral :=
  { n with exponent := some (negative, s), exponent_digits := by simpa using hs }

theorem text_withExponent {n : Numeral} (hn : n.exponent = none) (negative : Bool) {s : Text}
    (hs : IsDigits s) :
    (n.withExponent negative hs).text = n.text ++ 'e' :: (signText negative ++ s) := by
  simp [text, withExponent, hn, exponentText]

end Numeral

theorem Numeral.text_ne_nil (n : Numeral) : n.text ≠ [] := by
  simp [text, n.whole_digits.1]

/-- The characters of numbers. -/
def isNumberChar (c : Char) : Bool :=
  c.isDigit || c == '-' || c == '.' || c == 'e'

theorem Numeral.isNumberChar_of_mem {n : Numeral} {c : Char} (hc : c ∈ n.text) :
    isNumberChar c := by
  have hsign : ∀ b, c ∈ signText b → isNumberChar c := by
    intro b hmem
    cases b with
    | false => cases hmem
    | true =>
        cases List.mem_singleton.mp hmem
        rfl
  have hdigits : ∀ s, IsDigits s → c ∈ s → isNumberChar c := fun s hs hmem => by
    simp [isNumberChar, hs.2 c hmem]
  rw [text, List.mem_append, List.mem_append, List.mem_append] at hc
  rcases hc with hmem | hmem | hmem | hmem
  · exact hsign _ hmem
  · exact hdigits _ n.whole_digits hmem
  · cases h : n.fraction with
    | none => simp [h, fractionText] at hmem
    | some ds =>
        simp only [h, fractionText, List.mem_cons] at hmem
        rcases hmem with rfl | hmem
        · rfl
        · exact hdigits _ (n.fraction_digits ds h) hmem
  · cases h : n.exponent with
    | none => simp [h, exponentText] at hmem
    | some e =>
        simp only [h, exponentText, List.mem_cons, List.mem_append] at hmem
        rcases hmem with rfl | hmem | hmem
        · rfl
        · exact hsign _ hmem
        · exact hdigits _ (n.exponent_digits e h) hmem

/-- What a number in SQL text stands for: the number that all its digits make, how many
of them are behind the point, and the power of ten that an exponent gives. -/
structure Amount where
  negative : Bool
  coefficient : Nat
  scale : Nat
  exponent : Option Int
deriving DecidableEq

namespace Numeral

def exponentValue : Bool × Text → Int
  | (negative, ds) => if negative then -(Text.ofDigits ds : Int) else Text.ofDigits ds

def amount (n : Numeral) : Amount where
  negative := n.negative
  coefficient := Text.ofDigits (n.whole ++ n.fraction.getD [])
  scale := (n.fraction.getD []).length
  exponent := n.exponent.map exponentValue

end Numeral

/-- The text is a number that stands for `a`. -/
def Denotes (s : Text) (a : Amount) : Prop :=
  ∃ n : Numeral, n.text = s ∧ n.amount = a

namespace Denotes

theorem digits {s : Text} (hs : IsDigits s) : Denotes s ⟨false, Text.ofDigits s, 0, none⟩ :=
  ⟨.ofDigits hs, by simp, by simp [Numeral.amount, Numeral.ofDigits]⟩

theorem fraction {s t : Text} (hs : IsDigits s) (ht : IsDigits t) :
    Denotes (s ++ '.' :: t) ⟨false, Text.ofDigits (s ++ t), t.length, none⟩ :=
  ⟨.ofFraction hs ht, by simp, by simp [Numeral.amount, Numeral.ofFraction]⟩

theorem withExponent {s : Text} {a : Amount} (hs : Denotes s a) (ha : a.exponent = none)
    (negative : Bool) {ds : Text} (hds : IsDigits ds) :
    Denotes (s ++ 'e' :: (Numeral.signText negative ++ ds))
      { a with exponent := some (Numeral.exponentValue (negative, ds)) } := by
  obtain ⟨n, rfl, rfl⟩ := hs
  have hexponent : n.exponent = none := Option.map_eq_none_iff.mp ha
  exact ⟨n.withExponent negative hds, Numeral.text_withExponent hexponent negative hds, rfl⟩

theorem signed {s : Text} {a : Amount} (hs : Denotes s a) (ha : a.negative = false)
    (negative : Bool) :
    Denotes (Numeral.signText negative ++ s) { a with negative := negative } := by
  obtain ⟨n, rfl, rfl⟩ := hs
  have hn : n.negative = false := ha
  refine ⟨{ n with negative := negative }, ?_, rfl⟩
  simp [Numeral.text, hn, Numeral.signText]

end Denotes

theorem signed_eq (n : Int) :
    Text.signed n = Numeral.signText (decide (n < 0)) ++ Text.digits n.natAbs := by
  by_cases h : n < 0
  · simp [Text.signed, Numeral.signText, h]
  · simp [Text.signed, Numeral.signText, h]

theorem exponentValue_digits (e : Int) :
    Numeral.exponentValue (decide (e < 0), Text.digits e.natAbs) = e := by
  simp only [Numeral.exponentValue, ofDigits_digits, decide_eq_true_eq]
  omega

theorem denotes_signed (n : Int) : Denotes (Text.signed n) ⟨n < 0, n.natAbs, 0, none⟩ := by
  have hdigits := (Denotes.digits (.digits n.natAbs)).signed rfl (n < 0)
  rwa [ofDigits_digits, ← signed_eq] at hdigits

theorem Decimal.denotes_text (d : Decimal) :
    Denotes d.text ⟨d.negative, d.coefficient, d.scale, none⟩ := by
  have hpadded : IsDigits (Text.padded (d.scale + 1) d.coefficient) := .padded _ _
  have hvalue := Text.ofDigits_padded (d.scale + 1) d.coefficient
  have hlength : d.scale < (Text.padded (d.scale + 1) d.coefficient).length := by
    simp only [Text.padded, List.length_append, List.length_replicate]
    omega
  have hunsigned : Denotes
      ((Text.padded (d.scale + 1) d.coefficient).take
          ((Text.padded (d.scale + 1) d.coefficient).length - d.scale) ++
        if d.scale = 0 then []
        else '.' :: (Text.padded (d.scale + 1) d.coefficient).drop
          ((Text.padded (d.scale + 1) d.coefficient).length - d.scale))
      ⟨false, d.coefficient, d.scale, none⟩ := by
    generalize Text.padded (d.scale + 1) d.coefficient = ds at hpadded hlength hvalue
    by_cases hscale : d.scale = 0
    · simpa [hscale, hvalue] using Denotes.digits hpadded
    · have hfraction := Denotes.fraction (hpadded.take (n := ds.length - d.scale) (by omega))
        (hpadded.drop (n := ds.length - d.scale) (by omega))
      rw [List.take_append_drop, hvalue, List.length_drop, Nat.sub_sub_self hlength.le] at hfraction
      rwa [if_neg hscale]
  have htext := hunsigned.signed rfl d.negative
  rwa [← List.append_assoc] at htext

namespace Scientific

theorem denotes_positional (x : Scientific) :
    Denotes x.positional
      ⟨false, x.coefficient * 10 ^ x.exponent.toNat, (-x.exponent).toNat, none⟩ := by
  have hdigits : IsDigits (Text.digits x.coefficient) := .digits _
  have hvalue := ofDigits_digits x.coefficient
  unfold positional
  split
  · rename_i hexponent
    have hplaces : (-x.exponent).toNat = 0 := by omega
    have hzeros := hdigits.append (t := List.replicate x.exponent.toNat '0')
      fun _ hc => IsDigits.isDigit_of_mem_zeros hc
    have hwhole := Denotes.digits hzeros
    rwa [Text.ofDigits_append_zeros, hvalue, ← hplaces] at hwhole
  · rename_i hexponent
    have hcoarse : x.exponent.toNat = 0 := by omega
    have hplaces : 0 < (-x.exponent).toNat := by omega
    have hlength : 0 < (Text.digits x.coefficient).length := List.length_pos_iff.mpr hdigits.1
    rw [hcoarse, Nat.pow_zero, Nat.mul_one]
    generalize (-x.exponent).toNat = places at hplaces
    generalize Text.digits x.coefficient = ds at hdigits hvalue hlength
    dsimp only
    split
    · rename_i hshort
      have hfraction := Denotes.fraction (hdigits.take (n := ds.length - places) (by omega))
        (hdigits.drop (n := ds.length - places) (by omega))
      rwa [List.take_append_drop, hvalue, List.length_drop, Nat.sub_sub_self hshort.le]
        at hfraction
    · rename_i hlong
      have hzero : IsDigits ['0'] := .of_all (by simp) rfl
      have hzeros := IsDigits.of_append_right (s := List.replicate (places - ds.length) '0')
        (fun _ hc => IsDigits.isDigit_of_mem_zeros hc) hdigits
      have hfraction := Denotes.fraction hzero hzeros
      have hfront : Text.ofDigits (['0'] ++ (List.replicate (places - ds.length) '0' ++ ds)) =
          x.coefficient := by
        rw [← hvalue, ← Text.ofDigits_zeros_append (places - ds.length) ds]
        exact Text.ofDigits_zeros_append 1 _
      have hscale : (List.replicate (places - ds.length) '0' ++ ds).length = places := by
        rw [List.length_append, List.length_replicate]
        omega
      rw [hfront, hscale] at hfraction
      simpa using hfraction

theorem denotes_exponential (x : Scientific) :
    Denotes (x.exponential [])
      ⟨false, x.coefficient, ((Text.digits x.coefficient).drop 1).length,
        some (x.exponent + ((Text.digits x.coefficient).drop 1).length)⟩ := by
  have hdigits : IsDigits (Text.digits x.coefficient) := .digits _
  have hvalue := ofDigits_digits x.coefficient
  obtain ⟨c, tail, hds⟩ := List.exists_cons_of_ne_nil hdigits.1
  rw [hds] at hdigits hvalue
  have hwhole : IsDigits [c] := hdigits.take (n := 1) (by omega)
  -- The part before the exponent is a number of its own.
  have hfront : Denotes ([c] ++ if tail.isEmpty then [] else '.' :: tail)
      ⟨false, x.coefficient, tail.length, none⟩ := by
    by_cases htail : tail = []
    · subst htail
      simpa [hvalue] using Denotes.digits hwhole
    · have hlong : 1 < (c :: tail).length := by
        simpa [List.length_pos_iff] using htail
      have hfraction := Denotes.fraction hwhole (hdigits.drop hlong)
      simpa [htail, hvalue] using hfraction
  have htext := hfront.withExponent rfl (decide (x.exponent + tail.length < 0))
    (.digits (x.exponent + tail.length).natAbs)
  rw [exponentValue_digits, ← signed_eq] at htext
  simpa only [exponential, hds, List.take_succ_cons, List.take_zero, List.drop_succ_cons,
    List.drop_zero, ite_self, List.append_assoc, List.cons_append, List.nil_append] using htext

end Scientific

theorem Double.withSign_eq (d : Double) (s : Text) :
    d.withSign s = Numeral.signText d.negative ++ s := by
  unfold withSign
  cases d.negative <;> rfl

theorem Denotes.withSign {s : Text} {a : Amount} (hs : Denotes s a) (ha : a.negative = false)
    (d : Double) : Denotes (d.withSign s) { a with negative := d.negative } := by
  rw [d.withSign_eq]
  exact hs.signed ha d.negative

/-- A float literal is a number, unless the float is none. -/
theorem floatLiteral_eq_null_or_denotes (d : Double) :
    floatLiteral d = "NULL".toList ∨ ∃ a, Denotes (floatLiteral d) a := by
  unfold floatLiteral
  split
  · exact .inl rfl
  · right
    split
    · split
      · split
        · exact ⟨_, (Denotes.fraction (.digits _) (.of_all (by simp) rfl)).withSign rfl d⟩
        · exact ⟨_, (Scientific.denotes_exponential _).withSign rfl d⟩
      · exact ⟨_, (Scientific.denotes_positional _).withSign rfl d⟩
    · have hnine : IsDigits ['9'] := .of_all (by simp) rfl
      have hexponent : IsDigits "999".toList := .of_all (by simp) rfl
      exact ⟨_, ((Denotes.digits hnine).withExponent rfl false hexponent).withSign rfl d⟩

/-- The texts that literals have. -/
inductive LiteralForm : Text → Prop
  | null : LiteralForm "NULL".toList
  | number (n : Numeral) : LiteralForm n.text
  | string (s : Text) : LiteralForm (Text.quoted '\'' s)
  | blob (s : Text) : LiteralForm ('X' :: Text.quoted '\'' s)

theorem Denotes.literalForm {s : Text} {a : Amount} (hs : Denotes s a) : LiteralForm s := by
  obtain ⟨n, rfl, -⟩ := hs
  exact .number n

theorem hexDigit_ne_quote {n : Nat} (hn : n < 16) : Text.hexDigit n ≠ '\'' := by
  interval_cases n <;> decide

theorem quote_not_mem_hex (bytes : List UInt8) : '\'' ∉ bytes.flatMap hexByte := by
  intro hmem
  obtain ⟨b, -, hb⟩ := List.mem_flatMap.mp hmem
  have hhigh : b.toNat / 16 < 16 := by have := b.toNat_lt; omega
  have hlow : b.toNat % 16 < 16 := Nat.mod_lt _ (by decide)
  simp only [hexByte, List.mem_cons, List.not_mem_nil, or_false] at hb
  rcases hb with heq | heq
  · exact hexDigit_ne_quote hhigh heq.symm
  · exact hexDigit_ne_quote hlow heq.symm

theorem literalForm_blobLiteral (bytes : List UInt8) : LiteralForm (blobLiteral bytes) := by
  have hform := LiteralForm.blob (bytes.flatMap hexByte)
  rwa [Text.quoted, Text.doubled_of_not_mem (quote_not_mem_hex bytes)] at hform

theorem Value.literalForm (v : Value) : LiteralForm v.literal := by
  cases v with
  | null => exact .null
  | bool b =>
      have hdigit : IsDigits (if b then ['1'] else ['0']) := by
        cases b <;> exact .of_all (by simp) rfl
      exact (Denotes.digits hdigit).literalForm
  | int n => exact (denotes_signed _).literalForm
  | float d =>
      rcases floatLiteral_eq_null_or_denotes d with hnull | ⟨a, hnumber⟩
      · simp only [Value.literal, hnull]
        exact .null
      · exact hnumber.literalForm
  | decimal d => exact d.denotes_text.literalForm
  | string s => exact .string _
  | binary bytes => exact literalForm_blobLiteral bytes
  | date d => exact .string _
  | time t => exact .string _
  | dateTime dt => exact .string _

end LiteSql
