import LiteSql.Proofs.NearestDouble
import Mathlib.Tactic.FieldSimp

/-!
# Shortest decimals round back

The decimal that is found for a double is on a grid of multiples of a power of ten, and
it is taken only if it is in the interval of the numbers that are nearest to the double.
The tests for this are comparisons of natural numbers; they are comparisons of rational
numbers that are multiplied by one common factor. If no grid has a point in the interval,
the decimal is the magnitude itself.

A double that is not whole is further away from every whole number than the ends of its
interval, so its decimal has digits after the point.
-/

namespace LiteSql

/-- The number that a decimal stands for. -/
def Scientific.value (x : Scientific) : ℚ :=
  x.coefficient * 10 ^ x.exponent

theorem zpow_eq_div {a : ℚ} (ha : a ≠ 0) (p : ℤ) : a ^ p = a ^ p.toNat / a ^ (-p).toNat := by
  rw [← zpow_natCast, ← zpow_natCast, ← zpow_sub₀ ha, Int.toNat_sub_toNat_neg]

namespace Double

theorem lowerGap_pos (d : Double) : 0 < d.lowerGap := by
  unfold lowerGap
  split <;> decide

theorem lowerGap_le (d : Double) : d.lowerGap ≤ 2 := by
  unfold lowerGap
  split <;> decide

theorem two_zpow_power_eq (d : Double) : (2 : ℚ) ^ d.power = 4 * 2 ^ (d.power - 2) := by
  rw [zpow_sub₀ two_ne_zero]
  norm_num
  ring

theorem magnitude_eq_quarters (d : Double) :
    d.magnitude = (4 * d.significand : ℕ) * 2 ^ (d.power - 2) := by
  rw [magnitude, two_zpow_power_eq]
  push_cast
  ring

theorem low_eq_quarters {d : Double} (hd : 0 < d.significand) :
    d.low = (4 * d.significand - d.lowerGap : ℕ) * 2 ^ (d.power - 2) := by
  have hgap := d.lowerGap_le
  rw [low, magnitude_eq_quarters, two_zpow_power_eq, Nat.cast_sub (by omega)]
  ring

theorem high_eq_quarters (d : Double) :
    d.high = (4 * d.significand + 2 : ℕ) * 2 ^ (d.power - 2) := by
  rw [high, magnitude_eq_quarters, two_zpow_power_eq]
  push_cast
  ring

theorem magnitude_of_power_nonneg {d : Double} (h : 0 ≤ d.power) :
    d.magnitude = (d.significand * 2 ^ d.power.toNat : ℕ) := by
  rw [magnitude, ← Int.toNat_of_nonneg h, zpow_natCast, Int.toNat_natCast]
  push_cast
  rfl

theorem magnitude_of_power_neg {d : Double} (h : ¬ 0 ≤ d.power) :
    d.magnitude = d.significand / 2 ^ (-d.power).toNat := by
  rw [magnitude, zpow_eq_div two_ne_zero, Int.toNat_of_nonpos (show d.power ≤ 0 by omega),
    pow_zero, mul_one_div]

theorem covers_magnitude (d : Double) : d.Covers d.magnitude := by
  have hulp : (0 : ℚ) < 2 ^ d.power := zpow_pos two_pos _
  have hgap : (0 : ℚ) < d.lowerGap := mod_cast d.lowerGap_pos
  constructor
  · left
    rw [low]
    have : 0 < (d.lowerGap : ℚ) / 4 * 2 ^ d.power := by positivity
    linarith
  · left
    rw [high]
    linarith

/-- A quarter of the distance between doubles. This and the distance between points of the
grid are multiplied by one factor that makes both of them natural numbers. -/
def quarter (d : Double) (s : Int) : Nat :=
  2 ^ (d.power - 2).toNat * 10 ^ (-s).toNat

/-- The distance between points of the grid, multiplied by the same factor. -/
def spacing (d : Double) (s : Int) : Nat :=
  2 ^ (2 - d.power).toNat * 10 ^ s.toNat

theorem quarter_pos (d : Double) (s : Int) : 0 < d.quarter s := by
  unfold quarter
  positivity

theorem spacing_pos (d : Double) (s : Int) : 0 < d.spacing s := by
  unfold spacing
  positivity

theorem exists_common_factor (d : Double) (s : Int) : ∃ w : ℚ, 0 < w ∧
    (d.quarter s : ℚ) = 2 ^ (d.power - 2) * w ∧ (d.spacing s : ℚ) = 10 ^ s * w := by
  refine ⟨2 ^ (2 - d.power).toNat * 10 ^ (-s).toNat, by positivity, ?_, ?_⟩
  · rw [quarter, zpow_eq_div two_ne_zero (d.power - 2), neg_sub]
    push_cast
    field_simp
  · rw [spacing, zpow_eq_div (show (10 : ℚ) ≠ 0 by norm_num) s]
    push_cast
    field_simp

section Comparisons

variable (d : Double) (s : Int) (k c : ℕ)

theorem quarter_lt_spacing_iff :
    k * d.quarter s < c * d.spacing s ↔ (k : ℚ) * 2 ^ (d.power - 2) < c * 10 ^ s := by
  obtain ⟨w, hw, hquarter, hspacing⟩ := d.exists_common_factor s
  rw [← Nat.cast_lt (α := ℚ), Nat.cast_mul, Nat.cast_mul, hquarter, hspacing, ← mul_assoc,
    ← mul_assoc, mul_lt_mul_iff_left₀ hw]

theorem spacing_lt_quarter_iff :
    c * d.spacing s < k * d.quarter s ↔ (c : ℚ) * 10 ^ s < k * 2 ^ (d.power - 2) := by
  obtain ⟨w, hw, hquarter, hspacing⟩ := d.exists_common_factor s
  rw [← Nat.cast_lt (α := ℚ), Nat.cast_mul, Nat.cast_mul, hquarter, hspacing, ← mul_assoc,
    ← mul_assoc, mul_lt_mul_iff_left₀ hw]

theorem quarter_eq_spacing_iff :
    k * d.quarter s = c * d.spacing s ↔ (k : ℚ) * 2 ^ (d.power - 2) = c * 10 ^ s := by
  obtain ⟨w, hw, hquarter, hspacing⟩ := d.exists_common_factor s
  rw [← Nat.cast_inj (R := ℚ), Nat.cast_mul, Nat.cast_mul, hquarter, hspacing, ← mul_assoc,
    ← mul_assoc, mul_left_inj' hw.ne']

end Comparisons

/-- A point is taken only if the interval reaches it. -/
theorem gridPoint?_hits {tie : Tie} {d : Double} (hd : 0 < d.significand) {s : Int}
    {x : Scientific} (h : d.gridPoint? tie s = some x) : x.exponent = s ∧
      ((4 * d.significand - d.lowerGap) * d.quarter s < x.coefficient * d.spacing s ∨
        d.significand % 2 = 0 ∧
          (4 * d.significand - d.lowerGap) * d.quarter s = x.coefficient * d.spacing s) ∧
      (x.coefficient * d.spacing s < (4 * d.significand + 2) * d.quarter s ∨
        d.significand % 2 = 0 ∧
          x.coefficient * d.spacing s = (4 * d.significand + 2) * d.quarter s) := by
  have hgap := d.lowerGap_pos
  have hquarter := d.quarter_pos s
  have hspacing := d.spacing_pos s
  simp only [gridPoint?, Nat.pow_eq] at h
  rw [← quarter, ← spacing] at h
  generalize d.quarter s = up at *
  generalize d.spacing s = step at *
  -- The point below the magnitude is below the upper end, the one above it above the lower.
  have hbelow : 4 * d.significand * up / step * step < (4 * d.significand + 2) * up :=
    lt_of_le_of_lt (Nat.div_mul_le_self _ _) (Nat.mul_lt_mul_of_pos_right (by omega) hquarter)
  have habove : (4 * d.significand - d.lowerGap) * up <
      (4 * d.significand * up / step + 1) * step :=
    lt_trans (Nat.mul_lt_mul_of_pos_right (show _ < 4 * d.significand by omega) hquarter)
      (Nat.lt_mul_of_div_lt (Nat.lt_succ_self _) hspacing)
  split at h
  · rename_i hhits
    split at h
    · cases h
      exact ⟨rfl, hhits.1, .inl hbelow⟩
    · cases h
      exact ⟨rfl, .inl habove, hhits.2⟩
  · split at h
    · rename_i hhit
      cases h
      exact ⟨rfl, hhit, .inl hbelow⟩
    · split at h
      · rename_i hhit
        cases h
        exact ⟨rfl, .inl habove, hhit⟩
      · cases h

theorem covers_gridPoint? {tie : Tie} {d : Double} (hd : 0 < d.significand) {s : Int}
    {x : Scientific} (h : d.gridPoint? tie s = some x) : d.Covers x.value := by
  obtain ⟨rfl, hlow, hhigh⟩ := gridPoint?_hits hd h
  rw [quarter_lt_spacing_iff, quarter_eq_spacing_iff, ← low_eq_quarters hd] at hlow
  rw [spacing_lt_quarter_iff, eq_comm (a := _ * d.spacing _), quarter_eq_spacing_iff,
    ← high_eq_quarters, eq_comm (a := d.high)] at hhigh
  exact ⟨hlow, hhigh⟩

theorem value_exact (d : Double) : d.exact.value = d.magnitude := by
  unfold exact Scientific.value
  split
  · rename_i hpower
    rw [magnitude_of_power_nonneg hpower, zpow_zero, mul_one]
    rfl
  · rename_i hpower
    rw [magnitude_of_power_neg hpower, zpow_eq_div (show (10 : ℚ) ≠ 0 by norm_num),
      Int.toNat_of_nonpos (show d.power ≤ 0 by omega)]
    have hten : (10 : ℚ) ^ (-d.power).toNat = 5 ^ (-d.power).toNat * 2 ^ (-d.power).toNat := by
      rw [← mul_pow]
      norm_num
    rw [hten]
    push_cast [Nat.pow_eq]
    field_simp

/-- The search goes from grid to grid; where it ends without a hit, it has the magnitude. -/
theorem covers_firstHit (tie : Tie) {d : Double} (hd : 0 < d.significand) (n : Nat) (s : Int) :
    d.Covers (d.firstHit tie n s).value := by
  induction n generalizing s with
  | zero =>
      rw [firstHit, value_exact]
      exact d.covers_magnitude
  | succ n ih =>
      unfold firstHit
      split
      · rename_i x hx
        exact covers_gridPoint? hd hx
      · exact ih (s - 1)

theorem covers_shortest (tie : Tie) (d : Double) : d.Covers (d.shortest tie).value := by
  unfold shortest
  split
  · rename_i hzero
    have hvalue : Scientific.value ⟨0, 0⟩ = d.magnitude := by
      simp [Scientific.value, magnitude, hzero]
    rw [hvalue]
    exact d.covers_magnitude
  · rename_i hpositive
    exact covers_firstHit tie (Nat.pos_of_ne_zero hpositive) 20 d.decimalCeiling

theorem magnitude_of_whole? {d : Double} {n : Nat} (h : d.whole? = some n) :
    (n : ℚ) = d.magnitude := by
  simp only [whole?, Nat.pow_eq] at h
  split at h
  · rename_i hpower
    cases h
    exact (magnitude_of_power_nonneg hpower).symm
  · split at h
    · rename_i hpower hdvd
      obtain ⟨m, hm⟩ := Nat.dvd_of_mod_eq_zero hdvd
      rw [hm, Nat.mul_div_cancel_left _ (by positivity)] at h
      cases h
      rw [magnitude_of_power_neg hpower, hm]
      push_cast
      field_simp
    · cases h

/-- The fractional bits of a number that is not whole. -/
theorem not_dvd_of_whole? {d : Double} (h : d.whole? = none) :
    ¬ 0 ≤ d.power ∧ ¬ 2 ^ (-d.power).toNat ∣ d.significand := by
  unfold whole? at h
  split at h
  · cases h
  · rename_i hpower
    split at h
    · cases h
    · rename_i hfraction
      exact ⟨hpower, fun hdvd => hfraction (Nat.mod_eq_zero_of_dvd hdvd)⟩

theorem Covers.abs_sub_le {d : Double} {x : ℚ} (hx : d.Covers x) :
    |x - d.magnitude| ≤ 2 ^ d.power / 2 := by
  have hulp : (0 : ℚ) < 2 ^ d.power := zpow_pos two_pos _
  have hgap : (d.lowerGap : ℚ) ≤ 2 := mod_cast d.lowerGap_le
  have hlow : d.low ≤ x := hx.1.elim le_of_lt fun hend => hend.2.le
  have hhigh : x ≤ d.high := hx.2.elim le_of_lt fun hend => hend.2.le
  rw [low] at hlow
  rw [high] at hhigh
  rw [abs_le]
  constructor
  · nlinarith
  · linarith

/-- Half of the distance between doubles is too little to get to a whole number from a
double that is none. -/
theorem Covers.not_natCast {d : Double} (h : d.whole? = none) (n : ℕ) : ¬ d.Covers n := by
  intro hn
  obtain ⟨hpower, hfraction⟩ := not_dvd_of_whole? h
  have hdist := hn.abs_sub_le
  rw [magnitude_of_power_neg hpower, zpow_eq_div two_ne_zero,
    Int.toNat_of_nonpos (show d.power ≤ 0 by omega)] at hdist
  generalize (-d.power).toNat = p at hdist hfraction
  -- In units of the last bit, the distance is a whole number that is at most a half.
  have hscale : (0 : ℚ) < 2 ^ p := by positivity
  have hunits : (n : ℚ) - d.significand / 2 ^ p = (n * 2 ^ p - d.significand : ℤ) / 2 ^ p := by
    push_cast
    field_simp
  rw [hunits, abs_div, abs_of_pos hscale, div_le_iff₀ hscale] at hdist
  have hclose : |((n * 2 ^ p - d.significand : ℤ) : ℚ)| < 1 := by
    refine lt_of_le_of_lt hdist ?_
    field_simp
    norm_num
  have hzero : (n * 2 ^ p - d.significand : ℤ) = 0 := Int.abs_lt_one_iff.mp (mod_cast hclose)
  exact hfraction ⟨n, by rw [mul_comm]; exact_mod_cast (sub_eq_zero.mp hzero).symm⟩

theorem shortest_exponent_neg (tie : Tie) {d : Double} (h : d.whole? = none) :
    (d.shortest tie).exponent < 0 := by
  by_contra hexponent
  obtain ⟨p, hp⟩ := Int.eq_ofNat_of_zero_le (Int.not_lt.mp hexponent)
  have hvalue : (d.shortest tie).value = ((d.shortest tie).coefficient * 10 ^ p : ℕ) := by
    rw [Scientific.value, hp]
    push_cast
    rw [zpow_natCast]
  refine Covers.not_natCast h ((d.shortest tie).coefficient * 10 ^ p) ?_
  rw [← hvalue]
  exact d.covers_shortest tie

end Double

end LiteSql
