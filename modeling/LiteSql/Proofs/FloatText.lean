import LiteSql.Proofs.LiteralReader
import LiteSql.Proofs.Rounding
import LiteSql.Proofs.Signs

/-!
# Texts of floats

A finite float has one of three texts: a whole number with a zero after the point, a
whole number with an exponent, or a number with digits after the point. Each of them
stands for a number that rounds to the magnitude of the float, and the sign is written
apart from it, also for zero. No text is that of an integer, so the type of the value is
not lost either.
-/

namespace LiteSql

/-- The number without its sign. -/
def Amount.scientific (a : Amount) : Scientific :=
  ⟨a.coefficient, a.exponent.getD 0 - a.scale⟩

/-- The number has digits after the point, or an exponent without a sign. -/
def Numeral.IsReal (n : Numeral) : Prop :=
  n.fraction.isSome ∧ n.exponent = none ∨ ∃ ds, n.exponent = some (false, ds)

/-- The number was written with a point, or with an exponent. -/
def Amount.IsReal (a : Amount) : Prop :=
  0 < a.scale ∧ a.exponent = none ∨ a.exponent.isSome

theorem Numeral.IsReal.mem_text {n : Numeral} (hn : n.IsReal) : '.' ∈ n.text ∨ 'e' ∈ n.text := by
  rcases hn with ⟨hfraction, -⟩ | ⟨ds, hexponent⟩
  · obtain ⟨ds, hds⟩ := Option.isSome_iff_exists.mp hfraction
    exact .inl (by simp [text, hds, fractionText])
  · exact .inr (by simp [text, hexponent, exponentText])

theorem Numeral.isReal_of_amount {n : Numeral} (hsign : ∀ e ∈ n.exponent, e.1 = false)
    (h : n.amount.IsReal) : n.IsReal := by
  rcases h with ⟨hscale, hexponent⟩ | hexponent
  · refine .inl ⟨Option.isSome_iff_ne_none.mpr fun hnone => ?_, Option.map_eq_none_iff.mp hexponent⟩
    rw [amount, hnone] at hscale
    exact Nat.lt_irrefl 0 hscale
  · rw [amount, Option.isSome_map, Option.isSome_iff_exists] at hexponent
    obtain ⟨⟨negative, ds⟩, he⟩ := hexponent
    obtain rfl : negative = false := hsign _ he
    exact .inr ⟨ds, he⟩

theorem ne_signed_digits {s : Text} (hs : '.' ∈ s ∨ 'e' ∈ s) (negative : Bool) {ds : Text}
    (hds : IsDigits ds) : s ≠ Numeral.signText negative ++ ds := by
  have hnot {c : Char} (hdigit : c.isDigit = false) (hdash : c ≠ '-') :
      c ∉ Numeral.signText negative ++ ds := by
    rw [List.mem_append, not_or]
    constructor
    · cases negative <;> simp [Numeral.signText, hdash]
    · intro hmem
      exact absurd (hds.2 c hmem) (by simp [hdigit])
  rintro rfl
  rcases hs with hpoint | hexponent
  · exact hnot rfl (by decide) hpoint
  · exact hnot rfl (by decide) hexponent

namespace Amount

variable (negative : Bool)

theorem value_whole (n : Nat) :
    (scientific ⟨negative, Text.ofDigits (Text.digits n ++ ['0']), 1, none⟩).value = n := by
  have hdigits : Text.ofDigits (Text.digits n ++ ['0']) = n * 10 := by
    rw [show ['0'] = List.replicate 1 '0' from rfl, Text.ofDigits_append_zeros, ofDigits_digits,
      Nat.pow_one]
  show ((Text.ofDigits (Text.digits n ++ ['0']) : ℕ) : ℚ) * 10 ^ (-1 : ℤ) = n
  rw [hdigits, zpow_neg_one]
  push_cast
  ring

theorem value_positional (x : Scientific) :
    (scientific ⟨negative, x.coefficient * 10 ^ x.exponent.toNat, (-x.exponent).toNat,
      none⟩).value = x.value := by
  rw [Scientific.value, Scientific.value, scientific,
    zpow_eq_div (show (10 : ℚ) ≠ 0 by norm_num) x.exponent]
  simp only [Option.getD_none, zero_sub, zpow_neg, zpow_natCast]
  push_cast
  ring

theorem value_exponential (x : Scientific) (k : Nat) :
    (scientific ⟨negative, x.coefficient, k, some (x.exponent + k)⟩).value = x.value := by
  rw [scientific, Option.getD_some, add_sub_cancel_right]

end Amount

theorem Double.isNaN_of_isFinite {d : Double} (hd : d.isFinite) : d.isNaN = false := by
  simp only [isFinite, decide_eq_true_eq] at hd
  simp [isNaN, hd]

/-- What a float literal stands for, by the three texts that it can have. -/
theorem Double.denotes_floatLiteral {d : Double} (hd : d.isFinite) :
    ∃ a, Denotes (floatLiteral d) a ∧ a.negative = d.negative ∧ a.IsReal ∧
      d.Covers a.scientific.value := by
  -- The sign changes neither the form of the number nor its magnitude.
  have hsigned {s : Text} {a : Amount} (hs : Denotes s a) (hnegative : a.negative = false)
      (hreal : a.IsReal) (hcovers : d.Covers a.scientific.value) :
      ∃ b, Denotes (d.withSign s) b ∧ b.negative = d.negative ∧ b.IsReal ∧
        d.Covers b.scientific.value :=
    ⟨_, hs.withSign hnegative d, rfl, hreal, hcovers⟩
  unfold floatLiteral
  rw [if_neg (by simp [isNaN_of_isFinite hd]), if_pos hd]
  split
  · rename_i n hwhole
    split
    · have hzero : IsDigits ['0'] := .of_all (by simp) rfl
      apply hsigned (Denotes.fraction (.digits n) hzero) rfl (.inl ⟨Nat.one_pos, rfl⟩)
      show d.Covers
        (Amount.scientific ⟨false, Text.ofDigits (Text.digits n ++ ['0']), 1, none⟩).value
      rw [Amount.value_whole, magnitude_of_whole? hwhole]
      exact d.covers_magnitude
    · apply hsigned (Scientific.denotes_exponential _) rfl (.inr rfl)
      rw [Amount.value_exponential]
      exact d.covers_shortest .up
  · rename_i hfraction
    have hexponent := shortest_exponent_neg .up hfraction
    have hplaces : 0 < (-(d.shortest .up).exponent).toNat := by omega
    apply hsigned (Scientific.denotes_positional _) rfl (.inl ⟨hplaces, rfl⟩)
    rw [Amount.value_positional]
    exact d.covers_shortest .up

/-- A float literal has the sign of the float and is the text of a real number, never that
of an integer. The one double with that sign that is nearest to the number that is read
back, which is also the one that reading a decimal gives, is the float. -/
theorem floatLiteral_rounds_back {d : Double} (hd : d.isFinite) :
    ∃ n : Numeral, n.text = floatLiteral d ∧ n.negative = d.negative ∧ n.IsReal ∧
      ('.' ∈ floatLiteral d ∨ 'e' ∈ floatLiteral d) ∧
      (∀ negative ds, IsDigits ds → floatLiteral d ≠ Numeral.signText negative ++ ds) ∧
      (∀ rest, Reader.EndsTerm rest →
        LiteralReader.constant? (floatLiteral d ++ rest) = some (.number n.amount, rest)) ∧
      (∀ e : Double, e.negative = n.negative ∧ e.IsNearest n.amount.scientific.value ↔ e = d) ∧
      Double.ofScientific n.negative n.amount.scientific.coefficient
        n.amount.scientific.exponent = d := by
  obtain ⟨_, ⟨n, htext, rfl⟩, hnegative, hamount, hcovers⟩ := Double.denotes_floatLiteral hd
  have hreal : n.IsReal :=
    Numeral.isReal_of_amount (exponent_unsigned_of_literal (v := .float d) htext.symm) hamount
  have hmem := hreal.mem_text
  have hnearest := hcovers.isNearest (Double.isNaN_of_isFinite hd)
  have hunique (e : Double) : e.negative = n.negative ∧ e.IsNearest n.amount.scientific.value ↔
      e = d := by
    constructor
    · rintro ⟨hsign, he⟩
      exact he.unique hnearest (hsign.trans hnegative)
    · rintro rfl
      exact ⟨hnegative.symm, hnearest⟩
  rw [htext] at hmem
  refine ⟨n, htext, hnegative, hreal, hmem, fun _ _ => ne_signed_digits hmem _, ?_, hunique, ?_⟩
  · intro rest hrest
    rw [← htext]
    exact LiteralReader.constant?_text n hrest
  · exact (hunique _).mp ((Double.isNearest_iff_eq_ofScientific _ _ _).mpr rfl)

/-- Negative zero, and the even one of the two doubles that `10 ^ 23` is halfway between. -/
theorem floatLiteral_rounds_back_in_samples :
    ((Double.mk 0x8000000000000000).isFinite ∧
      floatLiteral ⟨0x8000000000000000⟩ = "-0.0".toList ∧
      ∃ n : Numeral, n.text = floatLiteral ⟨0x8000000000000000⟩ ∧ n.negative = true ∧ n.IsReal ∧
        Double.ofScientific n.negative n.amount.scientific.coefficient
          n.amount.scientific.exponent = ⟨0x8000000000000000⟩) ∧
    ((Double.mk 0x44B52D02C7E14AF6).isFinite ∧
      floatLiteral ⟨0x44B52D02C7E14AF6⟩ = "1e23".toList ∧
      ∃ n : Numeral, n.text = floatLiteral ⟨0x44B52D02C7E14AF6⟩ ∧ n.negative = false ∧ n.IsReal ∧
        Double.ofScientific n.negative n.amount.scientific.coefficient
          n.amount.scientific.exponent = ⟨0x44B52D02C7E14AF6⟩) := by
  refine ⟨⟨by decide, by decide +kernel, ?_⟩, by decide, by decide +kernel, ?_⟩
  · obtain ⟨n, htext, hnegative, hreal, -, -, -, -, hread⟩ :=
      floatLiteral_rounds_back (d := ⟨0x8000000000000000⟩) (by decide)
    exact ⟨n, htext, hnegative, hreal, hread⟩
  · obtain ⟨n, htext, hnegative, hreal, -, -, -, -, hread⟩ :=
      floatLiteral_rounds_back (d := ⟨0x44B52D02C7E14AF6⟩) (by decide)
    exact ⟨n, htext, hnegative, hreal, hread⟩

end LiteSql
