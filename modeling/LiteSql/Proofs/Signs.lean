import LiteSql.Proofs.Numerals
import LiteSql.Proofs.ShortestDecimal

/-!
# Signs in literals

A dash in the text of a number is the sign of the number and stands at its front. An
exponent could have a sign of its own, but it is only written for whole numbers that are
too large for all of their digits. The decimal that is found for such a number rounds to
it, so it is at least one, and its exponent is not negative.
-/

namespace LiteSql

namespace Double

theorem significand_lt (d : Double) : d.significand < 2 ^ 53 := by
  have hfraction : d.fractionField < 2 ^ 52 := Nat.mod_lt _ (by decide)
  unfold significand
  split
  · omega
  · have hpow : Nat.pow 2 52 = 2 ^ 52 := rfl
    omega

/-- A large whole number has no fractional bits. -/
theorem power_nonneg_of_whole? {d : Double} {n : Nat} (h : d.whole? = some n)
    (hn : Nat.pow 10 16 ≤ n) : 0 ≤ d.power := by
  have hlt := d.significand_lt
  have hlarge : 2 ^ 53 < Nat.pow 10 16 := by decide
  by_contra hneg
  simp only [whole?, if_neg hneg] at h
  split at h
  · cases h
    have hle := Nat.div_le_self d.significand (Nat.pow 2 (-d.power).toNat)
    omega
  · cases h

end Double

/-- The number is at least one. -/
def Scientific.AtLeastOne (x : Scientific) : Prop :=
  10 ^ (-x.exponent).toNat ≤ x.coefficient

theorem Scientific.atLeastOne_of_value {x : Scientific} (h : 1 ≤ x.value) : x.AtLeastOne := by
  rw [AtLeastOne]
  rcases lt_or_ge x.exponent 0 with hneg | hnonneg
  · rw [value, zpow_eq_div (show (10 : ℚ) ≠ 0 by norm_num), Int.toNat_of_nonpos hneg.le, pow_zero,
      mul_one_div, one_le_div (by positivity)] at h
    exact_mod_cast h
  · rw [Int.toNat_of_nonpos (show -x.exponent ≤ 0 by omega), pow_zero]
    refine Nat.one_le_iff_ne_zero.mpr fun hzero => ?_
    rw [value, hzero] at h
    norm_num at h

theorem Double.atLeastOne_shortest (tie : Tie) {d : Double} (hpower : 0 ≤ d.power) :
    (d.shortest tie).AtLeastOne := by
  have hnormal : 2 ^ 52 ≤ d.significand := by
    rw [d.power_eq] at hpower
    rw [d.significand_eq]
    omega
  have hsignificand : (2 ^ 52 : ℚ) ≤ d.significand := mod_cast hnormal
  have hulp : (1 : ℚ) ≤ 2 ^ d.power := one_le_zpow₀ one_le_two hpower
  have hclose := (abs_le.mp (d.covers_shortest tie).abs_sub_le).1
  apply Scientific.atLeastOne_of_value
  calc (1 : ℚ) ≤ (2 ^ 52 - 1 / 2) * 2 ^ d.power := by linarith
    _ ≤ (d.significand - 1 / 2) * 2 ^ d.power := by gcongr
    _ ≤ (d.shortest tie).value := by
        rw [magnitude] at hclose
        linarith

/-- The exponent that is written counts the digits after the first one. -/
theorem Scientific.AtLeastOne.exponent_nonneg {x : Scientific} (hx : x.AtLeastOne) :
    0 ≤ x.exponent + ((Text.digits x.coefficient).drop 1).length := by
  have hlength : (-x.exponent).toNat < (Text.digits x.coefficient).length := by
    rw [← Nat.not_le]
    intro hle
    rcases Nat.eq_zero_or_pos (-x.exponent).toNat with hzero | hpositive
    · rw [hzero, Nat.le_zero, List.length_eq_zero_iff] at hle
      exact (IsDigits.digits x.coefficient).1 hle
    · have hlt := (Nat.length_toDigits_le_iff (b := 10) (by decide) hpositive).mp hle
      exact absurd hx (Nat.not_le.mpr hlt)
  rw [List.length_drop]
  omega

theorem dash_not_mem {s : Text} (hs : ∀ c ∈ s, c.isDigit) : '-' ∉ s := by
  intro hmem
  have hdash := hs _ hmem
  cases hdash

theorem dash_not_mem_digits (n : Nat) : '-' ∉ Text.digits n :=
  dash_not_mem (IsDigits.digits n).2

theorem Scientific.dash_not_mem_positional (x : Scientific) : '-' ∉ x.positional := by
  have hdigits := dash_not_mem_digits x.coefficient
  have htake (n : Nat) : '-' ∉ (Text.digits x.coefficient).take n :=
    fun hmem => hdigits (List.mem_of_mem_take hmem)
  have hdrop (n : Nat) : '-' ∉ (Text.digits x.coefficient).drop n :=
    fun hmem => hdigits (List.mem_of_mem_drop hmem)
  unfold positional
  split
  · simp [hdigits]
  · dsimp only
    split
    · simp [htake, hdrop]
    · simp [hdigits]

theorem Scientific.AtLeastOne.dash_not_mem_exponential {x : Scientific} (hx : x.AtLeastOne) :
    '-' ∉ x.exponential [] := by
  have hdigits := dash_not_mem_digits x.coefficient
  have htake : '-' ∉ (Text.digits x.coefficient).take 1 :=
    fun hmem => hdigits (List.mem_of_mem_take hmem)
  have hdrop : '-' ∉ (Text.digits x.coefficient).drop 1 :=
    fun hmem => hdigits (List.mem_of_mem_drop hmem)
  have hexponent :
      '-' ∉ Text.signed (x.exponent + ((Text.digits x.coefficient).drop 1).length) := by
    rw [Text.signed, if_neg (Int.not_lt.mpr hx.exponent_nonneg)]
    exact dash_not_mem_digits _
  unfold exponential
  dsimp only
  simp only [ite_self, List.mem_append, List.mem_cons, not_or]
  refine ⟨⟨⟨htake, ?_⟩, by decide, List.not_mem_nil⟩, hexponent⟩
  split
  · exact List.not_mem_nil
  · exact List.not_mem_cons_of_ne_of_not_mem (by decide) hdrop

theorem dash_not_mem_tail {s : Text} (hs : '-' ∉ s) (negative : Bool) :
    '-' ∉ (Numeral.signText negative ++ s).tail := by
  cases negative with
  | true => exact hs
  | false => exact fun hmem => hs (List.mem_of_mem_tail hmem)

theorem dash_not_mem_signed (n : Int) : '-' ∉ (Text.signed n).tail := by
  rw [signed_eq]
  exact dash_not_mem_tail (dash_not_mem_digits _) _

theorem dash_not_mem_floatLiteral (d : Double) : '-' ∉ (floatLiteral d).tail := by
  have hsign {s : Text} (hs : '-' ∉ s) : '-' ∉ (d.withSign s).tail := by
    rw [d.withSign_eq]
    exact dash_not_mem_tail hs _
  unfold floatLiteral
  split
  · decide
  · split
    · apply hsign
      split
      · rename_i n hwhole
        split
        · simp [dash_not_mem_digits]
        · rename_i hlarge
          have hpower := Double.power_nonneg_of_whole? hwhole (Nat.not_lt.mp hlarge)
          exact (Double.atLeastOne_shortest .up hpower).dash_not_mem_exponential
      · exact Scientific.dash_not_mem_positional _
    · exact hsign (by decide)

theorem Decimal.dash_not_mem_text (d : Decimal) : '-' ∉ d.text.tail := by
  have hpadded : '-' ∉ Text.padded (d.scale + 1) d.coefficient :=
    dash_not_mem (IsDigits.padded _ _).2
  unfold text
  dsimp only
  generalize Text.padded (d.scale + 1) d.coefficient = ds at hpadded
  rw [List.append_assoc]
  refine dash_not_mem_tail ?_ d.negative
  rw [List.mem_append, not_or]
  refine ⟨fun hmem => hpadded (List.mem_of_mem_take hmem), ?_⟩
  split
  · exact List.not_mem_nil
  · exact List.not_mem_cons_of_ne_of_not_mem (by decide)
      fun hmem => hpadded (List.mem_of_mem_drop hmem)

/-- A literal is in quotes, or else a dash stands only at its front. -/
theorem Value.dash_not_mem_literal (v : Value) : '\'' ∈ v.literal ∨ '-' ∉ v.literal.tail := by
  have hquoted (s : Text) : '\'' ∈ stringLiteral s := List.mem_cons_self
  cases v with
  | null => exact .inr (by decide)
  | bool b => exact .inr (by cases b <;> decide)
  | int n => exact .inr (dash_not_mem_signed _)
  | float d => exact .inr (dash_not_mem_floatLiteral d)
  | decimal d => exact .inr d.dash_not_mem_text
  | string s => exact .inl (hquoted _)
  | binary bytes => exact .inl (List.mem_cons_of_mem _ List.mem_cons_self)
  | date d => exact .inl (hquoted _)
  | time t => exact .inl (hquoted _)
  | dateTime dt => exact .inl (hquoted _)

/-- No literal has an exponent with a sign. -/
theorem exponent_unsigned_of_literal {v : Value} {n : Numeral} (h : v.literal = n.text) :
    ∀ e ∈ n.exponent, e.1 = false := by
  rintro ⟨negative, ds⟩ he
  by_contra hnegative
  obtain rfl : negative = true := by simpa using hnegative
  rcases v.dash_not_mem_literal with hquote | hdash
  · rw [h] at hquote
    cases n.isNumberChar_of_mem hquote
  · apply hdash
    obtain ⟨c, whole, hwhole⟩ := List.exists_cons_of_ne_nil n.whole_digits.1
    rw [h, Numeral.text, he, hwhole]
    cases n.negative <;> simp [Numeral.signText, Numeral.exponentText]

end LiteSql
