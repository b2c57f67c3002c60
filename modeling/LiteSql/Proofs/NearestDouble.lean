import LiteSql.Number.Shortest
import Mathlib.Algebra.Order.Field.Rat
import Mathlib.Order.Monotone.Basic
import Mathlib.Tactic.Linarith
import Mathlib.Tactic.Positivity
import Mathlib.Tactic.Ring

/-!
# The double nearest to a number

The bits of a double without its sign bit make a number, its rank. Magnitudes are in the
order of ranks: in units of the least positive double, the magnitude of rank `n` is a
natural number `unitsAt n`, and one step of the rank adds a power of two to it. An
infinity has the rank after all finite ones, and stands for the number that would come
next.

A double is nearest to a number if no other is closer, and if its significand is even
where another one is as close. There is one for each sign at most, since ranks next to
each other have significands of different parity. All numbers of an interval around the
magnitude of a double are nearest to it.
-/

namespace LiteSql.Double

/-- The magnitude of rank `n` in units of `2 ^ (-1074)`. -/
def unitsAt (n : Nat) : Nat :=
  (n - (n / 2 ^ 52 - 1) * 2 ^ 52) * 2 ^ (n / 2 ^ 52 - 1)

/-- A significand of up to `2 ^ 53` times a power of two. Only below the least power is
the significand below `2 ^ 52`. -/
theorem unitsAt_eq {k m : Nat} (hm : m ≤ 2 ^ 53) (hk : k = 0 ∨ 2 ^ 52 ≤ m) :
    unitsAt (k * 2 ^ 52 + m) = m * 2 ^ k := by
  rcases Nat.lt_or_eq_of_le hm with hlt | rfl
  · have hpower : (k * 2 ^ 52 + m) / 2 ^ 52 - 1 = k := by omega
    rw [unitsAt, hpower, Nat.add_sub_cancel_left]
  · -- The next power of two has the next exponent.
    have hpower : (k * 2 ^ 52 + 2 ^ 53) / 2 ^ 52 - 1 = k + 1 := by omega
    have hsignificand : k * 2 ^ 52 + 2 ^ 53 - (k + 1) * 2 ^ 52 = 2 ^ 52 := by omega
    rw [unitsAt, hpower, hsignificand, Nat.pow_succ']
    ring

theorem unitsAt_succ (n : Nat) : unitsAt (n + 1) = unitsAt n + 2 ^ (n / 2 ^ 52 - 1) := by
  obtain ⟨m, hn, hm, hk⟩ : ∃ m, n = (n / 2 ^ 52 - 1) * 2 ^ 52 + m ∧ m < 2 ^ 53 ∧
      (n / 2 ^ 52 - 1 = 0 ∨ 2 ^ 52 ≤ m) :=
    ⟨n - (n / 2 ^ 52 - 1) * 2 ^ 52, by omega, by omega, by omega⟩
  generalize n / 2 ^ 52 - 1 = k at hn hk
  rw [hn, Nat.add_assoc, unitsAt_eq (by omega) (by omega), unitsAt_eq (by omega) hk]
  ring

theorem unitsAt_strictMono : StrictMono unitsAt :=
  strictMono_nat_of_lt_succ fun n => by
    rw [unitsAt_succ]
    exact Nat.lt_add_of_pos_right (Nat.two_pow_pos _)

/-- The bits after the sign bit, as a number. -/
def rank (d : Double) : Nat :=
  d.bits.toNat % 2 ^ 63

theorem exponentField_eq (d : Double) : d.exponentField = d.rank / 2 ^ 52 := by
  simp only [exponentField, rank, Nat.pow_eq]
  omega

theorem fractionField_eq (d : Double) : d.fractionField = d.rank % 2 ^ 52 := by
  simp only [fractionField, rank, Nat.pow_eq]
  omega

theorem significand_eq (d : Double) :
    d.significand = d.rank - (d.rank / 2 ^ 52 - 1) * 2 ^ 52 := by
  simp only [significand, d.exponentField_eq, d.fractionField_eq, Nat.pow_eq]
  split <;> omega

theorem power_eq (d : Double) : d.power = (d.rank / 2 ^ 52 - 1 : Nat) - 1074 := by
  simp only [power, d.exponentField_eq]
  split <;> omega

theorem isNaN_eq_false_iff (d : Double) : d.isNaN = false ↔ d.rank ≤ infinityBits := by
  have hrank : d.rank < 2 ^ 63 := Nat.mod_lt _ (by decide)
  have hbits : infinityBits = 2047 * 2 ^ 52 := rfl
  simp only [isNaN, d.exponentField_eq, d.fractionField_eq, decide_eq_false_iff_not]
  omega

theorem rank_ofMagnitude (negative : Bool) {n : Nat} (hn : n ≤ infinityBits) :
    (ofMagnitude negative n).rank = n := by
  have hbits : infinityBits = 2047 * 2 ^ 52 := rfl
  rw [rank, ofMagnitude, Nat.min_eq_left hn, UInt64.toNat_ofNat', Nat.pow_eq]
  split <;> omega

theorem negative_eq (d : Double) : d.negative = decide (2 ^ 63 ≤ d.bits.toNat) := rfl

/-- The sign and the rank make up the bits. -/
theorem eq_of_rank_eq {d e : Double} (hsign : d.negative = e.negative) (hrank : d.rank = e.rank) :
    d = e := by
  have hd := d.bits.toNat_lt
  have he := e.bits.toNat_lt
  rw [d.negative_eq, e.negative_eq, decide_eq_decide] at hsign
  simp only [rank] at hrank
  have hbits : d.bits.toNat = e.bits.toNat := by omega
  exact congrArg Double.mk (UInt64.toNat_inj.mp hbits)

/-- The least positive double. -/
def unit : ℚ :=
  2 ^ (-1074 : ℤ)

theorem unit_pos : 0 < unit :=
  zpow_pos two_pos _

/-- The magnitude. That of an infinity is the power of two after all finite numbers. -/
def magnitude (d : Double) : ℚ :=
  d.significand * 2 ^ d.power

theorem magnitude_eq (d : Double) : d.magnitude = unitsAt d.rank * unit := by
  rw [magnitude, d.power_eq, d.significand_eq, unitsAt, sub_eq_add_neg, zpow_add₀ two_ne_zero,
    zpow_natCast, ← unit]
  push_cast
  ring

theorem magnitude_lt_iff {d e : Double} : d.magnitude < e.magnitude ↔ d.rank < e.rank := by
  rw [d.magnitude_eq, e.magnitude_eq, mul_lt_mul_iff_left₀ unit_pos, Nat.cast_lt,
    unitsAt_strictMono.lt_iff_lt]

/-- No other double is closer to the number, and only one with an even significand is as
close as another. -/
structure IsNearest (d : Double) (x : ℚ) : Prop where
  isNumber : d.isNaN = false
  closest : ∀ e : Double, e.isNaN = false → |x - d.magnitude| ≤ |x - e.magnitude|
  even_of_tie : ∀ e : Double, e.isNaN = false → e.magnitude ≠ d.magnitude →
    |x - e.magnitude| = |x - d.magnitude| → d.significand % 2 = 0

theorem significand_mod_two (d : Double) : d.significand % 2 = d.rank % 2 := by
  rw [d.significand_eq]
  omega

/-- Of two numbers at the same distance, all numbers between them are closer. -/
theorem abs_sub_lt_of_between {x a b c : ℚ} (hab : a < b) (hbc : b < c)
    (h : |x - a| = |x - c|) : |x - b| < |x - a| := by
  have hmid : x - a = c - x := by
    rcases abs_eq_abs.mp h with hsame | hopposite
    · linarith
    · linarith
  rw [abs_of_pos (by linarith : (0 : ℚ) < x - a), abs_lt]
  constructor
  · linarith
  · linarith

theorem IsNearest.not_rank_lt {d e : Double} {x : ℚ} (hd : d.IsNearest x) (he : e.IsNearest x) :
    ¬ d.rank < e.rank := by
  intro hlt
  have htie : |x - d.magnitude| = |x - e.magnitude| :=
    le_antisymm (hd.closest e he.isNumber) (he.closest d hd.isNumber)
  have hne : d.magnitude ≠ e.magnitude := (magnitude_lt_iff.mpr hlt).ne
  have heven := hd.even_of_tie e he.isNumber hne.symm htie.symm
  have heven' := he.even_of_tie d hd.isNumber hne htie
  rw [significand_mod_two] at heven heven'
  -- The double after `d` is neither beyond `e` nor `e` itself, so it is closer than both.
  have hnext : d.rank + 1 < e.rank := by omega
  have hbound := e.isNaN_eq_false_iff.mp he.isNumber
  have hrank := rank_ofMagnitude false (show d.rank + 1 ≤ infinityBits by omega)
  have hnumber : (ofMagnitude false (d.rank + 1)).isNaN = false :=
    (isNaN_eq_false_iff _).mpr (by omega)
  have hcloser := abs_sub_lt_of_between (b := (ofMagnitude false (d.rank + 1)).magnitude)
    (magnitude_lt_iff.mpr (by omega)) (magnitude_lt_iff.mpr (by omega)) htie
  exact absurd (hd.closest _ hnumber) (not_le.mpr hcloser)

/-- With a given sign, at most one double is nearest to a number. -/
theorem IsNearest.unique {d e : Double} {x : ℚ} (hd : d.IsNearest x) (he : e.IsNearest x)
    (hsign : d.negative = e.negative) : d = e :=
  eq_of_rank_eq hsign (le_antisymm (not_lt.mp (he.not_rank_lt hd)) (not_lt.mp (hd.not_rank_lt he)))

theorem two_zpow_power (d : Double) : (2 : ℚ) ^ d.power = 2 ^ (d.rank / 2 ^ 52 - 1) * unit := by
  rw [d.power_eq, sub_eq_add_neg, zpow_add₀ two_ne_zero, zpow_natCast, ← unit]

/-- The next greater double is one unit of the significand away. -/
theorem magnitude_add_le {d e : Double} (h : d.rank < e.rank) :
    d.magnitude + 2 ^ d.power ≤ e.magnitude := by
  have hunits : unitsAt d.rank + 2 ^ (d.rank / 2 ^ 52 - 1) ≤ unitsAt e.rank := by
    rw [← unitsAt_succ]
    exact unitsAt_strictMono.monotone h
  rw [d.magnitude_eq, e.magnitude_eq, d.two_zpow_power, ← add_mul]
  exact mul_le_mul_of_nonneg_right (mod_cast hunits) unit_pos.le

/-- The next smaller double is that far away too, or half as far below a power of two. -/
theorem magnitude_add_gap_le {d e : Double} (h : e.rank < d.rank) :
    e.magnitude + d.lowerGap / 2 * 2 ^ d.power ≤ d.magnitude := by
  obtain ⟨n, hn⟩ : ∃ n, d.rank = n + 1 := ⟨d.rank - 1, by omega⟩
  have hbelow : unitsAt e.rank ≤ unitsAt n := unitsAt_strictMono.monotone (by omega)
  have hgap : d.lowerGap * 2 ^ ((n + 1) / 2 ^ 52 - 1) = 2 * 2 ^ (n / 2 ^ 52 - 1) := by
    simp only [lowerGap, d.fractionField_eq, d.exponentField_eq, hn]
    split
    · rename_i hpower
      have hstep : (n + 1) / 2 ^ 52 - 1 = n / 2 ^ 52 - 1 + 1 := by omega
      rw [hstep, Nat.pow_succ', Nat.one_mul]
    · rename_i hinner
      have hstep : (n + 1) / 2 ^ 52 - 1 = n / 2 ^ 52 - 1 := by omega
      rw [hstep]
  have hunits : 2 * unitsAt e.rank + d.lowerGap * 2 ^ ((n + 1) / 2 ^ 52 - 1) ≤
      2 * unitsAt (n + 1) := by
    rw [unitsAt_succ, hgap]
    omega
  have hcast : (2 * unitsAt e.rank + d.lowerGap * 2 ^ ((n + 1) / 2 ^ 52 - 1) : ℚ) ≤
      2 * unitsAt (n + 1) := mod_cast hunits
  rw [d.magnitude_eq, e.magnitude_eq, d.two_zpow_power, hn]
  calc (unitsAt e.rank : ℚ) * unit + d.lowerGap / 2 * (2 ^ ((n + 1) / 2 ^ 52 - 1) * unit)
      = (2 * unitsAt e.rank + d.lowerGap * 2 ^ ((n + 1) / 2 ^ 52 - 1)) * (unit / 2) := by ring
    _ ≤ 2 * unitsAt (n + 1) * (unit / 2) :=
        mul_le_mul_of_nonneg_right hcast (half_pos unit_pos).le
    _ = unitsAt (n + 1) * unit := by ring

/-- The middle between the magnitude and the next smaller one. -/
def low (d : Double) : ℚ :=
  d.magnitude - d.lowerGap / 4 * 2 ^ d.power

/-- The middle between the magnitude and the next greater one. -/
def high (d : Double) : ℚ :=
  d.magnitude + 2 ^ d.power / 2

/-- The number is between the two middles, or is one of them and the significand is even. -/
def Covers (d : Double) (x : ℚ) : Prop :=
  (d.low < x ∨ d.significand % 2 = 0 ∧ d.low = x) ∧
    (x < d.high ∨ d.significand % 2 = 0 ∧ x = d.high)

theorem abs_sub_le_of_le_middle {x a b : ℚ} (hab : a < b) (hx : 2 * x ≤ a + b) :
    |x - a| ≤ |x - b| ∧ (|x - b| = |x - a| → 2 * x = a + b) := by
  rw [abs_of_neg (by linarith : x - b < 0)]
  refine ⟨abs_le.mpr ⟨by linarith, by linarith⟩, fun htie => ?_⟩
  rcases eq_or_eq_neg_of_abs_eq htie.symm with hsame | hopposite
  · linarith
  · linarith

theorem abs_sub_le_of_middle_le {x a b : ℚ} (hba : b < a) (hx : a + b ≤ 2 * x) :
    |x - a| ≤ |x - b| ∧ (|x - b| = |x - a| → 2 * x = a + b) := by
  have hmirror := abs_sub_le_of_le_middle (x := -x) (neg_lt_neg hba) (by linarith)
  rw [neg_sub_neg, neg_sub_neg, abs_sub_comm a, abs_sub_comm b] at hmirror
  exact ⟨hmirror.1, fun htie => by linarith [hmirror.2 htie]⟩

theorem Covers.compare {d : Double} {x : ℚ} (hx : d.Covers x) {e : Double} (hne : d.rank ≠ e.rank) :
    |x - d.magnitude| ≤ |x - e.magnitude| ∧
      (|x - e.magnitude| = |x - d.magnitude| → d.significand % 2 = 0) := by
  obtain ⟨hlow, hhigh⟩ := hx
  have hulp : (0 : ℚ) < 2 ^ d.power := zpow_pos two_pos _
  rcases Nat.lt_or_gt_of_ne hne with hlt | hgt
  · have hnext := magnitude_add_le hlt
    have hle : x ≤ d.high := hhigh.elim le_of_lt fun hend => hend.2.le
    rw [high] at hle hhigh
    obtain ⟨hcloser, htie⟩ := abs_sub_le_of_le_middle (magnitude_lt_iff.mpr hlt) (x := x)
      (by linarith)
    refine ⟨hcloser, fun hsame => hhigh.elim (fun hin => ?_) And.left⟩
    linarith [htie hsame]
  · have hnext := magnitude_add_gap_le hgt
    have hle : d.low ≤ x := hlow.elim le_of_lt fun hend => hend.2.le
    rw [low] at hle hlow
    obtain ⟨hcloser, htie⟩ := abs_sub_le_of_middle_le (magnitude_lt_iff.mpr hgt) (x := x)
      (by linarith)
    refine ⟨hcloser, fun hsame => hlow.elim (fun hin => ?_) And.left⟩
    linarith [htie hsame]

theorem Covers.isNearest {d : Double} (hd : d.isNaN = false) {x : ℚ} (hx : d.Covers x) :
    d.IsNearest x where
  isNumber := hd
  closest := by
    intro e _
    by_cases hrank : d.rank = e.rank
    · rw [d.magnitude_eq, e.magnitude_eq, hrank]
    · exact (hx.compare hrank).1
  even_of_tie := by
    intro e _ hne htie
    refine (hx.compare fun hrank => hne ?_).2 htie
    rw [d.magnitude_eq, e.magnitude_eq, hrank]

end LiteSql.Double
