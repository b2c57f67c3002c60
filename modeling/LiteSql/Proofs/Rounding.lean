import LiteSql.Proofs.ShortestDecimal
import Mathlib.Algebra.Order.Field.Power

/-!
# Rounding to doubles

A ratio is rounded in units of a power of two. The power is chosen such that the number
of units is below `2 ^ 53`, and not below `2 ^ 52` unless the power is the least one. The
rounded number of units is then a significand, or `2 ^ 53`, which carries into the
exponent, and the ratio is in the interval of the double that has this significand.
Ratios beyond all finite numbers round to infinity.
-/

namespace LiteSql.Double

/-- The natural number nearest to `y`, and the even one of two that are equally near. -/
def IsRounded (y : ℚ) (m : ℕ) : Prop :=
  (m - 1 / 2 < y ∨ m % 2 = 0 ∧ m - 1 / 2 = y) ∧ (y < m + 1 / 2 ∨ m % 2 = 0 ∧ y = m + 1 / 2)

theorem IsRounded.bounds {y : ℚ} {m : ℕ} (h : IsRounded y m) : m - 1 / 2 ≤ y ∧ y ≤ m + 1 / 2 :=
  ⟨h.1.elim le_of_lt fun hend => hend.2.le, h.2.elim le_of_lt fun hend => hend.2.le⟩

theorem IsRounded.le_of_lt {y : ℚ} {m n : ℕ} (h : IsRounded y m) (hy : y < n) : m ≤ n := by
  have hlt : (m : ℚ) < (n + 1 : ℕ) := by
    push_cast
    linarith [h.bounds]
  exact Nat.lt_succ_iff.mp (mod_cast hlt)

theorem IsRounded.le_of_le {y : ℚ} {m n : ℕ} (h : IsRounded y m) (hy : n ≤ y) : n ≤ m := by
  have hlt : (n : ℚ) < (m + 1 : ℕ) := by
    push_cast
    linarith [h.bounds]
  exact Nat.lt_succ_iff.mp (mod_cast hlt)

theorem isRounded_roundedQuotient (a : ℕ) {b : ℕ} (hb : 0 < b) :
    IsRounded (a / b) (roundedQuotient a b) := by
  have hb' : (0 : ℚ) < b := mod_cast hb
  have hremainder : a % b < b := Nat.mod_lt _ hb
  have hsplit : (a : ℚ) / b = (a / b : ℕ) + (a % b : ℕ) / b := by
    have hdiv : (a : ℚ) = b * (a / b : ℕ) + (a % b : ℕ) := mod_cast (Nat.div_add_mod a b).symm
    rw [div_eq_iff hb'.ne', add_mul, div_mul_cancel₀ _ hb'.ne', mul_comm _ (b : ℚ)]
    exact hdiv
  have hnonneg : (0 : ℚ) ≤ (a % b : ℕ) / b := by positivity
  have hone : ((a % b : ℕ) : ℚ) / b < 1 := (div_lt_one hb').mpr (mod_cast hremainder)
  have hlt : ((a % b : ℕ) : ℚ) / b < 1 / 2 ↔ 2 * (a % b) < b := by
    rw [div_lt_div_iff₀ hb' two_pos, one_mul, mul_comm]
    exact_mod_cast Iff.rfl
  have heq : ((a % b : ℕ) : ℚ) / b = 1 / 2 ↔ 2 * (a % b) = b := by
    rw [div_eq_div_iff hb'.ne' two_ne_zero, one_mul, mul_comm]
    exact_mod_cast Iff.rfl
  rw [hsplit]
  generalize ((a % b : ℕ) : ℚ) / b = t at *
  unfold roundedQuotient
  split
  · rename_i hdown
    refine ⟨.inl (by linarith), ?_⟩
    rcases hdown with hbelow | ⟨htie, heven⟩
    · exact .inl (by linarith [hlt.mpr hbelow])
    · exact .inr ⟨heven, by rw [heq.mpr htie]⟩
  · rename_i hup
    rw [not_or, ← hlt, ← heq, not_lt, not_and] at hup
    rw [IsRounded]
    push_cast
    refine ⟨?_, .inl (by linarith)⟩
    rcases hup.1.lt_or_eq with habove | htie
    · exact .inl (by linarith)
    · have hodd := hup.2 htie.symm
      exact .inr ⟨by omega, by linarith⟩

theorem ratio_lt_zpow_iff (a : ℕ) {b : ℕ} (hb : 0 < b) (e : ℤ) :
    a * 2 ^ (-e).toNat < b * 2 ^ e.toNat ↔ (a : ℚ) / b < 2 ^ e := by
  have hb' : (0 : ℚ) < b := mod_cast hb
  rw [zpow_eq_div two_ne_zero e, div_lt_div_iff₀ hb' (by positivity), mul_comm (_ ^ e.toNat)]
  exact_mod_cast Iff.rfl

theorem floorLog2_spec {a b : ℕ} (ha : 0 < a) (hb : 0 < b) :
    (2 : ℚ) ^ floorLog2 a b ≤ a / b ∧ (a : ℚ) / b < 2 ^ (floorLog2 a b + 1) := by
  have hb' : (0 : ℚ) < b := mod_cast hb
  have halow : (2 : ℚ) ^ (a.log2 : ℤ) ≤ a := mod_cast Nat.log2_self_le ha.ne'
  have hahigh : (a : ℚ) < 2 ^ (a.log2 + 1 : ℤ) := mod_cast Nat.lt_log2_self
  have hblow : (2 : ℚ) ^ (b.log2 : ℤ) ≤ b := mod_cast Nat.log2_self_le hb.ne'
  have hbhigh : (b : ℚ) < 2 ^ (b.log2 + 1 : ℤ) := mod_cast Nat.lt_log2_self
  have hlow : (2 : ℚ) ^ ((a.log2 - b.log2 : ℤ) - 1) ≤ a / b := by
    rw [le_div_iff₀ hb']
    calc (2 : ℚ) ^ ((a.log2 - b.log2 : ℤ) - 1) * b
        ≤ 2 ^ ((a.log2 - b.log2 : ℤ) - 1) * 2 ^ (b.log2 + 1 : ℤ) := by gcongr
      _ = 2 ^ (a.log2 : ℤ) := by
          rw [← zpow_add₀ two_ne_zero]
          congr 1
          ring
      _ ≤ a := halow
  have hhigh : (a : ℚ) / b < 2 ^ ((a.log2 - b.log2 : ℤ) + 1) := by
    rw [div_lt_iff₀ hb']
    calc (a : ℚ) < 2 ^ (a.log2 + 1 : ℤ) := hahigh
      _ = 2 ^ ((a.log2 - b.log2 : ℤ) + 1) * 2 ^ (b.log2 : ℤ) := by
          rw [← zpow_add₀ two_ne_zero]
          congr 1
          ring
      _ ≤ 2 ^ ((a.log2 - b.log2 : ℤ) + 1) * b := by gcongr
  simp only [floorLog2, Nat.pow_eq, ratio_lt_zpow_iff a hb]
  split
  · rename_i hbelow
    exact ⟨hlow, by rwa [sub_add_cancel]⟩
  · rename_i habove
    exact ⟨not_lt.mp habove, hhigh⟩

/-- The interval in units of the significand. -/
theorem covers_mul_iff {d : Double} {y : ℚ} : d.Covers (y * 2 ^ d.power) ↔
    (d.significand - d.lowerGap / 4 < y ∨
      d.significand % 2 = 0 ∧ d.significand - d.lowerGap / 4 = y) ∧
    (y < d.significand + 1 / 2 ∨ d.significand % 2 = 0 ∧ y = d.significand + 1 / 2) := by
  have hulp : (0 : ℚ) < 2 ^ d.power := zpow_pos two_pos _
  have hlow : d.low = (d.significand - d.lowerGap / 4) * 2 ^ d.power := by
    rw [low, magnitude]
    ring
  have hhigh : d.high = (d.significand + 1 / 2) * 2 ^ d.power := by
    rw [high, magnitude]
    ring
  rw [Covers, hlow, hhigh, mul_lt_mul_iff_left₀ hulp, mul_lt_mul_iff_left₀ hulp,
    mul_left_inj' hulp.ne', mul_left_inj' hulp.ne']

/-- The rounded number of units is the significand. -/
theorem covers_of_significand {y : ℚ} {k m : ℕ} (h : IsRounded y m)
    (hlow : k = 0 ∨ 2 ^ 52 ≤ y) (hm : m < 2 ^ 53) {d : Double}
    (hrank : d.rank = k * 2 ^ 52 + m) : d.Covers (y * 2 ^ (k - 1074 : ℤ)) := by
  have hk : k = 0 ∨ 2 ^ 52 ≤ m := hlow.imp_right fun hle => h.le_of_le (mod_cast hle)
  have hsignificand : d.significand = m := by
    rw [d.significand_eq, hrank]
    omega
  have hpower : d.power = k - 1074 := by
    rw [d.power_eq, hrank]
    omega
  rw [← hpower, covers_mul_iff, hsignificand]
  refine ⟨?_, h.2⟩
  by_cases hgap : d.fractionField = 0 ∧ 1 < d.exponentField
  · -- At a power of two the interval is shorter, but no number below it is rounded up to it.
    rw [lowerGap, if_pos hgap]
    rw [d.fractionField_eq, d.exponentField_eq, hrank] at hgap
    obtain rfl : m = 2 ^ 52 := by omega
    have hle := hlow.resolve_left (by omega)
    left
    push_cast
    linarith
  · rw [lowerGap, if_neg hgap]
    convert h.1 using 2 <;> norm_num

/-- The rounded number of units has one bit too many and carries into the exponent. -/
theorem covers_of_carry {y : ℚ} {k : ℕ} (h : IsRounded y (2 ^ 53)) (hhigh : y < 2 ^ 53)
    {d : Double} (hrank : d.rank = k * 2 ^ 52 + 2 ^ 53) :
    d.Covers (y * 2 ^ (k - 1074 : ℤ)) := by
  have hbounds := h.bounds
  have hsignificand : d.significand = 2 ^ 52 := by
    rw [d.significand_eq, hrank]
    omega
  have hpower : d.power = k - 1074 + 1 := by
    rw [d.power_eq, hrank]
    omega
  have hgap : d.lowerGap = 1 := by
    rw [lowerGap, d.fractionField_eq, d.exponentField_eq, hrank]
    exact if_pos (by omega)
  have hunits : y * 2 ^ (k - 1074 : ℤ) = y / 2 * 2 ^ d.power := by
    rw [hpower, zpow_add_one₀ two_ne_zero]
    ring
  rw [hunits, covers_mul_iff, hsignificand, hgap]
  push_cast at hbounds ⊢
  refine ⟨?_, .inl (by linarith)⟩
  rcases hbounds.1.lt_or_eq with hin | hend
  · exact .inl (by linarith)
  · exact .inr ⟨trivial, by linarith⟩

/-- Infinity is nearest to all that is not below it. -/
theorem isNearest_of_infinity_le {d : Double} (hd : d.rank = infinityBits) {x : ℚ}
    (hx : d.magnitude ≤ x) : d.IsNearest x := by
  have hbelow (e : Double) (he : e.isNaN = false) : e.magnitude ≤ d.magnitude := by
    rw [← not_lt, magnitude_lt_iff, hd, not_lt]
    exact e.isNaN_eq_false_iff.mp he
  have hdist (e : Double) (he : e.isNaN = false) : |x - e.magnitude| = x - e.magnitude :=
    abs_of_nonneg (by linarith [hbelow e he])
  have hnumber : d.isNaN = false := d.isNaN_eq_false_iff.mpr hd.le
  refine ⟨hnumber, fun e he => ?_, fun e he hne htie => ?_⟩
  · rw [hdist d hnumber, hdist e he]
    linarith [hbelow e he]
  · rw [hdist d hnumber, hdist e he] at htie
    exact absurd (by linarith) hne

theorem magnitude_of_infinity {d : Double} (hd : d.rank = infinityBits) :
    d.magnitude = 2 ^ 52 * 2 ^ (972 : ℤ) := by
  have hrank : d.rank = 2047 * 2 ^ 52 := hd
  have hsignificand : d.significand = 2 ^ 52 := by
    have heq := d.significand_eq
    omega
  have hpower : d.power = 972 := by
    have heq := d.power_eq
    omega
  rw [magnitude, hsignificand, hpower, Nat.cast_pow, Nat.cast_ofNat]

theorem ofMagnitude_of_infinity_le (negative : Bool) {n : Nat} (hn : infinityBits ≤ n) :
    ofMagnitude negative n = ofMagnitude negative infinityBits := by
  rw [ofMagnitude, ofMagnitude, Nat.min_eq_right hn, Nat.min_self]

theorem negative_ofMagnitude (negative : Bool) (n : Nat) :
    (ofMagnitude negative n).negative = negative := by
  have hbits : infinityBits = 2047 * 2 ^ 52 := rfl
  rw [negative_eq, ofMagnitude, UInt64.toNat_ofNat', Nat.pow_eq]
  cases negative with
  | true =>
      rw [if_pos rfl, decide_eq_true_eq]
      omega
  | false =>
      rw [if_neg (by decide), decide_eq_false_iff_not]
      omega

/-- The double that the number of units makes, which is infinity if it is too large. -/
theorem isNearest_ofMagnitude (negative : Bool) {y : ℚ} {k m : ℕ} (h : IsRounded y m)
    (hlow : k = 0 ∨ 2 ^ 52 ≤ y) (hhigh : y < 2 ^ 53) :
    (ofMagnitude negative (k * 2 ^ 52 + m)).IsNearest (y * 2 ^ (k - 1074 : ℤ)) := by
  have hm : m ≤ 2 ^ 53 := h.le_of_lt (mod_cast hhigh)
  rcases Nat.lt_or_ge infinityBits (k * 2 ^ 52 + m) with hover | hfits
  · have hbits : infinityBits = 2047 * 2 ^ 52 := rfl
    have hk : 2046 ≤ k := by omega
    have hrank := rank_ofMagnitude negative (le_refl infinityBits)
    rw [ofMagnitude_of_infinity_le negative hover.le]
    apply isNearest_of_infinity_le hrank
    rw [magnitude_of_infinity hrank]
    have hunits : (2 : ℚ) ^ 52 ≤ y := hlow.resolve_left (by omega)
    have hulp : (2 : ℚ) ^ (972 : ℤ) ≤ 2 ^ (k - 1074 : ℤ) :=
      zpow_le_zpow_right₀ one_le_two (by omega)
    gcongr
  · have hrank := rank_ofMagnitude negative hfits
    apply Covers.isNearest ((isNaN_eq_false_iff _).mpr (by omega))
    rcases Nat.lt_or_eq_of_le hm with hlt | rfl
    · exact covers_of_significand h hlow hlt hrank
    · exact covers_of_carry h hhigh hrank

theorem isNearest_zero (negative : Bool) {x : ℚ} (hnonneg : 0 ≤ x) (hx : x < unit / 2) :
    (ofMagnitude negative 0).IsNearest x := by
  have hunits : x / unit < 1 / 2 := by
    rw [div_lt_iff₀ unit_pos]
    linarith
  have hround : IsRounded (x / unit) 0 := by
    have hle : 0 ≤ x / unit := div_nonneg hnonneg unit_pos.le
    rw [IsRounded, Nat.cast_zero]
    exact ⟨.inl (by linarith), .inl (by linarith)⟩
  have hnearest := isNearest_ofMagnitude negative (k := 0) hround (.inl rfl) (by linarith)
  rwa [Nat.cast_zero, zero_sub, ← unit, div_mul_cancel₀ _ unit_pos.ne'] at hnearest

/-- The power of two leaves fifty-three bits, or fewer if it is the least one. -/
theorem ratio_units {a b : ℕ} (ha : 0 < a) (hb : 0 < b) {k : ℕ}
    (hk : max (-1074) (floorLog2 a b - 52) = k - 1074) :
    (k = 0 ∨ 2 ^ 52 ≤ (a : ℚ) / b / 2 ^ (k - 1074 : ℤ)) ∧
      (a : ℚ) / b / 2 ^ (k - 1074 : ℤ) < 2 ^ 53 := by
  obtain ⟨hlow, hhigh⟩ := floorLog2_spec ha hb
  have hulp : (0 : ℚ) < 2 ^ (k - 1074 : ℤ) := zpow_pos two_pos _
  have hmul (n : ℕ) : (2 : ℚ) ^ n * 2 ^ (k - 1074 : ℤ) = 2 ^ (n + (k - 1074) : ℤ) := by
    rw [zpow_add₀ two_ne_zero, zpow_natCast]
  rw [le_div_iff₀ hulp, div_lt_iff₀ hulp, hmul, hmul]
  constructor
  · rcases Nat.eq_zero_or_pos k with hzero | hpositive
    · exact .inl hzero
    · refine .inr (le_trans (zpow_le_zpow_right₀ one_le_two ?_) hlow)
      omega
  · refine lt_of_lt_of_le hhigh (zpow_le_zpow_right₀ one_le_two ?_)
    omega

theorem isNearest_ofRatio (negative : Bool) (a : ℕ) {b : ℕ} (hb : 0 < b) :
    (ofRatio negative a b).IsNearest (a / b) := by
  unfold ofRatio
  split
  · rename_i hzero
    rw [hzero, Nat.cast_zero, zero_div]
    exact isNearest_zero negative le_rfl (half_pos unit_pos)
  · rename_i hpositive
    dsimp only
    generalize hq : max (-1074) (floorLog2 a b - 52) = q
    obtain ⟨k, rfl⟩ : ∃ k : ℕ, q = k - 1074 := ⟨(q + 1074).toNat, by omega⟩
    obtain ⟨hlow, hhigh⟩ := ratio_units (Nat.pos_of_ne_zero hpositive) hb hq
    have hround := isRounded_roundedQuotient (a * 2 ^ (-(k - 1074 : ℤ)).toNat)
      (show 0 < b * 2 ^ (k - 1074 : ℤ).toNat by positivity)
    have hunits : ((a * 2 ^ (-(k - 1074 : ℤ)).toNat : ℕ) : ℚ) / (b * 2 ^ (k - 1074 : ℤ).toNat : ℕ) =
        a / b / 2 ^ (k - 1074 : ℤ) := by
      rw [zpow_eq_div two_ne_zero (k - 1074 : ℤ)]
      push_cast
      field_simp
    rw [hunits] at hround
    have hnearest := isNearest_ofMagnitude negative hround hlow hhigh
    rw [div_mul_cancel₀ _ (zpow_ne_zero _ two_ne_zero)] at hnearest
    rwa [sub_add_cancel, Int.toNat_natCast]

theorem negative_ofRatio (negative : Bool) (a b : ℕ) :
    (ofRatio negative a b).negative = negative := by
  unfold ofRatio
  split <;> exact negative_ofMagnitude _ _

/-- The number of digits, and the exponent, bound a decimal. -/
theorem value_bounds {coefficient : ℕ} (hpositive : 0 < coefficient) (exponent : ℤ) :
    (10 : ℚ) ^ ((Nat.toDigits 10 coefficient).length + exponent - 1) ≤
        (Scientific.mk coefficient exponent).value ∧
      (Scientific.mk coefficient exponent).value <
        10 ^ ((Nat.toDigits 10 coefficient).length + exponent) := by
  have hten : (10 : ℚ) ≠ 0 := by norm_num
  have hlength : 0 < (Nat.toDigits 10 coefficient).length :=
    List.length_pos_iff.mpr Nat.toDigits_ne_nil
  have hfirst : 10 ^ ((Nat.toDigits 10 coefficient).length - 1) ≤ coefficient := by
    rcases Nat.eq_zero_or_pos ((Nat.toDigits 10 coefficient).length - 1) with hone | hmore
    · rw [hone]
      exact hpositive
    · rw [← Nat.not_lt, ← Nat.length_toDigits_le_iff (by decide) hmore]
      omega
  have hlast : coefficient < 10 ^ (Nat.toDigits 10 coefficient).length :=
    (Nat.length_toDigits_le_iff (by decide) hlength).mp le_rfl
  generalize (Nat.toDigits 10 coefficient).length = length at *
  unfold Scientific.value
  constructor
  · have hsplit : (length : ℤ) + exponent - 1 = (length - 1 : ℕ) + exponent := by omega
    rw [hsplit, zpow_add₀ hten, zpow_natCast]
    exact mul_le_mul_of_nonneg_right (mod_cast hfirst) (by positivity)
  · rw [zpow_add₀ hten, zpow_natCast]
    exact mul_lt_mul_of_pos_right (mod_cast hlast) (by positivity)

theorem two_pow_le_ten_pow {a b : ℕ} (h : 2 ^ a ≤ 10 ^ b) (n : ℕ) :
    (2 : ℚ) ^ (a * n) ≤ 10 ^ (b * n) := by
  rw [pow_mul, pow_mul]
  exact pow_le_pow_left₀ (by positivity) (mod_cast h) n

/-- Numbers with so many places before the first digit are below half of the least
positive double. -/
theorem ten_zpow_le_half_unit {p : ℤ} (hp : p < -330) : (10 : ℚ) ^ p ≤ unit / 2 := by
  have hpow : (2 : ℚ) ^ (215 * 5) ≤ 10 ^ (66 * 5) := two_pow_le_ten_pow (by norm_num) 5
  calc (10 : ℚ) ^ p ≤ 10 ^ (-(66 * 5 : ℕ) : ℤ) := zpow_le_zpow_right₀ (by norm_num) (by omega)
    _ = (10 ^ (66 * 5))⁻¹ := by rw [zpow_neg, zpow_natCast]
    _ ≤ (2 ^ (215 * 5))⁻¹ := inv_anti₀ (by positivity) hpow
    _ = 2 ^ (-1074 - 1 : ℤ) := by rw [← zpow_natCast, ← zpow_neg]; rfl
    _ = unit / 2 := by rw [zpow_sub_one₀ two_ne_zero, unit, div_eq_mul_inv]

theorem infinity_le_ten_zpow {p : ℤ} (hp : 310 ≤ p) : (2 : ℚ) ^ 52 * 2 ^ (972 : ℤ) ≤ 10 ^ p := by
  have hpow : (2 : ℚ) ^ (205 * 5) ≤ 10 ^ (62 * 5) := two_pow_le_ten_pow (by norm_num) 5
  calc (2 : ℚ) ^ 52 * 2 ^ (972 : ℤ) = 2 ^ (52 + 972 : ℤ) := by
        rw [zpow_add₀ two_ne_zero]
        rfl
    _ ≤ 2 ^ ((205 * 5 : ℕ) : ℤ) := zpow_le_zpow_right₀ one_le_two (by norm_num)
    _ ≤ 10 ^ ((62 * 5 : ℕ) : ℤ) := by rwa [zpow_natCast, zpow_natCast]
    _ ≤ 10 ^ p := zpow_le_zpow_right₀ (by norm_num) (by omega)

theorem isNearest_ofScientific (negative : Bool) (coefficient : ℕ) (exponent : ℤ) :
    (ofScientific negative coefficient exponent).IsNearest
      (Scientific.mk coefficient exponent).value := by
  unfold ofScientific
  dsimp only
  split
  · rename_i hsmall
    apply isNearest_zero negative
    · unfold Scientific.value
      positivity
    · rcases Nat.eq_zero_or_pos coefficient with rfl | hpositive
      · rw [Scientific.value, Nat.cast_zero, zero_mul]
        exact half_pos unit_pos
      · exact lt_of_lt_of_le (value_bounds hpositive exponent).2
          (ten_zpow_le_half_unit (hsmall.resolve_left hpositive.ne'))
  · rename_i hsmall
    rw [not_or] at hsmall
    split
    · rename_i hlarge
      have hrank := rank_ofMagnitude negative (le_refl infinityBits)
      apply isNearest_of_infinity_le hrank
      rw [magnitude_of_infinity hrank]
      exact le_trans (infinity_le_ten_zpow (by omega))
        (value_bounds (Nat.pos_of_ne_zero hsmall.1) exponent).1
    · have hnearest := isNearest_ofRatio negative (coefficient * 10 ^ exponent.toNat)
        (show 0 < 10 ^ (-exponent).toNat by positivity)
      rw [Scientific.value, zpow_eq_div (show (10 : ℚ) ≠ 0 by norm_num) exponent, ← mul_div_assoc]
      exact_mod_cast hnearest

theorem negative_ofScientific (negative : Bool) (coefficient : ℕ) (exponent : ℤ) :
    (ofScientific negative coefficient exponent).negative = negative := by
  unfold ofScientific
  dsimp only
  split
  · exact negative_ofMagnitude _ _
  · split
    · exact negative_ofMagnitude _ _
    · exact negative_ofRatio _ _ _

/-- Reading a decimal gives the one double with its sign that is nearest to it. -/
theorem isNearest_iff_eq_ofScientific (negative : Bool) (x : Scientific) (d : Double) :
    d.negative = negative ∧ d.IsNearest x.value ↔
      d = ofScientific negative x.coefficient x.exponent := by
  have hnearest := isNearest_ofScientific negative x.coefficient x.exponent
  have hsign := negative_ofScientific negative x.coefficient x.exponent
  constructor
  · rintro ⟨hd, hx⟩
    exact hx.unique hnearest (hd.trans hsign.symm)
  · rintro rfl
    exact ⟨hsign, hnearest⟩

end LiteSql.Double
