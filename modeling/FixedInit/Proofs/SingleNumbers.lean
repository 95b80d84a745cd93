/-
Numbers of single precision survive being read by way of double precision.

* `exists_close_midpoint` : two numbers that are close are rounded alike unless a midpoint is
  close too;
* `eq_of_close` : for a small power of ten no decimal is close to a midpoint without being
  one;
* `exists_rank?_of_nearest` : a shortest decimal is read as a number of double precision that
  is rounded to the number it was written for.

Design notes: the powers of ten fall into two classes. For the small ones a decimal and a
midpoint are fractions with denominators too small to be close, and a decimal that is a
midpoint is not changed by double precision. All others are clear, by a search.
-/
import FixedInit.Proofs.ThroughDouble

namespace FixedInit

open Format (single double standard_single standard_double cast_twoPow)
open Numeral (scaling rank?)

variable {c rank : ℕ} {e : ℤ}

/-! ### How close a decimal gets to a midpoint -/

/-- Two numbers that are close are rounded alike unless a midpoint is close to one of them. -/
theorem exists_close_midpoint {y : ℚ} {other : ℕ}
    (nearest : single.Nearest (c * 10 ^ e * 2 ^ single.scale) rank)
    (nearest' : single.Nearest (y * 2 ^ single.scale) other) (close : IsClose c e y)
    (differ : rank ≠ other) :
    ∃ (m : ℕ) (q : ℤ), m < 2 ^ 25 ∧ -150 ≤ q ∧ IsClose c e (m * 2 ^ q) := by
  obtain ⟨lower, near⟩ := nearest.exists_midpoint_near nearest' differ
  obtain ⟨shift, m, few, half_steps⟩ := single.exists_half_steps lower
  have unit : (0 : ℚ) < 2 ^ single.scale := by positivity
  have scale : (single.scale : ℤ) = 149 := rfl
  have midpoint : single.midpoint lower = m * 2 ^ (shift - 150 : ℤ) * 2 ^ single.scale := by
    have power : (2 : ℚ) ^ (shift - 150 : ℤ) * 2 ^ single.scale * 2 = 2 ^ shift := by
      rw [← zpow_natCast 2 single.scale, scale, ← zpow_add₀ (by norm_num),
        ← zpow_add_one₀ (by norm_num), ← zpow_natCast]
      congr 1
      omega
    linarith [congrArg ((m : ℚ) * ·) power]
  refine ⟨m, shift - 150, few.trans_eq (by decide), by omega, ?_⟩
  rw [midpoint, ← sub_mul, ← sub_mul, abs_mul, abs_mul, abs_of_pos unit] at near
  have := le_of_mul_le_mul_right near unit
  unfold IsClose at *
  linarith

/-- Two whole numbers of no more than 51 bits are not close without being equal. -/
theorem eq_of_near {a b : ℕ} (small : a < 2 ^ 51 - 1)
    (near : |(a - b : ℚ)| * 2 ^ 51 ≤ b) : a = b := by
  by_contra differ
  have apart : (1 : ℚ) ≤ |(a - b : ℚ)| := by
    have : (1 : ℤ) ≤ |(a - b : ℤ)| := Int.one_le_abs (by omega)
    exact_mod_cast this
  have below := neg_abs_le (a - b : ℚ)
  have bound : (a : ℚ) ≤ 2 ^ 51 - 2 := by
    have : a + 2 ≤ 2 ^ 51 := by omega
    have : ((a + 2 : ℕ) : ℚ) ≤ (2 ^ 51 : ℕ) := by exact_mod_cast this
    push_cast at this
    linarith
  linarith

theorem tens_eq (k : ℕ) : (10 : ℚ) ^ k = 5 ^ k * 2 ^ (k : ℤ) := by
  rw [zpow_natCast, ← mul_pow]
  norm_num

section

variable {m k n : ℕ} {q : ℤ} (close : |(m * 2 ^ q * 10 ^ k - c : ℚ)| * 2 ^ 51 ≤ c)

include close

/-- With the twos on the side of the decimal both sides are whole numbers. -/
theorem eq_of_close_fraction (twos : q + k = -n) (few_fives : m * 5 ^ k < 2 ^ 51 - 1) :
    (m * 2 ^ q * 10 ^ k : ℚ) = c := by
  have power : (2 : ℚ) ^ q * 2 ^ (k : ℤ) * 2 ^ n = 1 := by
    rw [← zpow_natCast 2 n, ← zpow_add₀ (by norm_num), ← zpow_add₀ (by norm_num), twos,
      Int.add_left_neg, zpow_zero]
  have unit : (0 : ℚ) < 2 ^ n := by positivity
  have number : (m * 2 ^ q * 10 ^ k * 2 ^ n : ℚ) = (m * 5 ^ k : ℕ) := by
    push_cast
    rw [tens_eq]
    linarith [congrArg ((m * 5 ^ k : ℚ) * ·) power]
  have near : |((m * 5 ^ k : ℕ) - (c * 2 ^ n : ℕ) : ℚ)| * 2 ^ 51 ≤ (c * 2 ^ n : ℕ) := by
    rw [← number, Nat.cast_mul, Nat.cast_pow, Nat.cast_ofNat, ← sub_mul, abs_mul,
      abs_of_pos unit]
    linarith [mul_le_mul_of_nonneg_right close unit.le]
  refine mul_right_cancel₀ unit.ne' ?_
  rw [number, eq_of_near few_fives near]
  push_cast
  rfl

/-- With the twos on the side of the midpoint they are as well. -/
theorem eq_of_close_whole (twos : q + k = n) (few : c < 2 ^ 28) :
    (m * 2 ^ q * 10 ^ k : ℚ) = c := by
  have number : (m * 2 ^ q * 10 ^ k : ℚ) = (m * 5 ^ k * 2 ^ n : ℕ) := by
    have power : (2 : ℚ) ^ n = 2 ^ q * 2 ^ (k : ℤ) := by
      rw [← zpow_natCast, ← twos, zpow_add₀ (by norm_num)]
    push_cast
    rw [tens_eq, power]
    ring
  rw [number] at close ⊢
  generalize m * 5 ^ k * 2 ^ n = a at close ⊢
  have bounded : a < 2 ^ 29 := by
    have above := le_abs_self (a - c : ℚ)
    have few : (c : ℚ) < 2 ^ 28 := by exact_mod_cast few
    have : (a : ℚ) < (2 ^ 29 : ℕ) := by
      push_cast
      linarith
    exact_mod_cast this
  rw [eq_of_near (by omega) close]

end

/-- A decimal with few digits behind the point is not close to a midpoint without being
one. -/
theorem eq_of_close {m k : ℕ} {q : ℤ} (few : c < 2 ^ 28) (half_steps : m < 2 ^ 25)
    (small : k ≤ 11) (close : IsClose c (-k) (m * 2 ^ q)) :
    (m * 2 ^ q : ℚ) = c * 10 ^ (-k : ℤ) := by
  have tens : (0 : ℚ) < 10 ^ k := by positivity
  have fives : m * 5 ^ k < 2 ^ 51 - 1 := by
    have : 5 ^ k ≤ 5 ^ 11 := Nat.pow_le_pow_right (by decide) small
    have := Nat.mul_le_mul (by omega : m ≤ 2 ^ 25 - 1) this
    omega
  unfold IsClose at close
  rw [zpow_neg, zpow_natCast, ← div_eq_mul_inv] at close ⊢
  rw [eq_div_iff tens.ne']
  have scaled : |(m * 2 ^ q * 10 ^ k - c : ℚ)| * 2 ^ 51 ≤ c := by
    have distance : (m * 2 ^ q * 10 ^ k - c : ℚ) = (m * 2 ^ q - c / 10 ^ k) * 10 ^ k := by
      rw [sub_mul, div_mul_cancel₀ _ tens.ne']
    rw [le_div_iff₀ tens] at close
    rw [distance, abs_mul, abs_of_pos tens]
    linarith
  rcases le_or_gt 0 (q + k) with whole | fractional
  · obtain ⟨n, twos⟩ : ∃ n : ℕ, q + k = n := ⟨(q + k).toNat, by omega⟩
    exact eq_of_close_whole scaled twos few
  · obtain ⟨n, twos⟩ : ∃ n : ℕ, q + k = -n := ⟨(-(q + k)).toNat, by omega⟩
    exact eq_of_close_fraction scaled twos fives

/-! ### The size of a decimal -/

section

variable (nearest : single.Nearest (c * 10 ^ e * 2 ^ single.scale) rank)

include nearest

theorem le_of_nearest (finite : rank < single.bound) : (c * 10 ^ e : ℚ) ≤ 2 ^ 128 :=
  nearest.le_ceiling standard_single finite

theorem some_digit_of_nearest (some_units : rank ≠ 0) : c ≠ 0 := by
  rintro rfl
  have half := nearest.half_le some_units
  rw [Nat.cast_zero, zero_mul, zero_mul] at half
  norm_num at half

theorem exponent_bounds (some_units : rank ≠ 0) (finite : rank < single.bound)
    (few : c < 2 ^ 28) :
    -53 ≤ e ∧ e ≤ 38 := by
  have half := nearest.half_le some_units
  have top := le_of_nearest nearest finite
  have one_le : (1 : ℚ) ≤ c := by
    exact_mod_cast Nat.one_le_iff_ne_zero.mpr (some_digit_of_nearest nearest some_units)
  have few : (c : ℚ) ≤ 2 ^ 28 := by exact_mod_cast few.le
  have power : (0 : ℚ) < 10 ^ e := by positivity
  have scale : (2 : ℚ) ^ single.scale = 2 ^ 149 := rfl
  constructor
  -- the least number is about ten to the power -45, and there are at most nine digits
  · by_contra small
    have tiny : (10 : ℚ) ^ e ≤ 10 ^ (-54 : ℤ) := zpow_le_zpow_right₀ (by norm_num) (by omega)
    have product := mul_le_mul few tiny power.le (by norm_num)
    rw [scale] at half
    norm_num at product half
    linarith
  · by_contra large
    have huge : (10 : ℚ) ^ (39 : ℤ) ≤ 10 ^ e := zpow_le_zpow_right₀ (by norm_num) (by omega)
    have product := mul_le_mul one_le huge (by norm_num) (by positivity)
    norm_num at product top
    linarith

end

/-! ### The decimal in double precision -/

/-- No number of single precision is too large for double precision. -/
theorem lt_bound_of_nearest {t : ℚ} {r : ℕ} (nearest : double.Nearest t r)
    (small : t ≤ 2 ^ 129 * 2 ^ double.scale) : r < double.bound := by
  by_contra beyond
  have last : double.bound - 1 < r := by
    have := Format.bound_pos standard_double
    omega
  have top : twoPow (129 + double.scale) ≤ double.units (double.bound - 1) := by
    decide +kernel
  have top : (2 ^ 129 * 2 ^ double.scale : ℚ) ≤ double.units (double.bound - 1) := by
    rw [← pow_add, ← cast_twoPow]
    exact_mod_cast top
  have below := Format.units_lt_midpoint (f := double) (double.bound - 1)
  linarith [nearest.midpoint_le last]

/-- The scaled decimal is close to the decimal. -/
theorem isClose_of_nearest {r : ℕ}
    (nearest : double.Nearest (c * scaling e * 2 ^ double.scale) r)
    (normal : (1 / 2 : ℚ) ≤ c * 10 ^ e * 2 ^ single.scale) :
    IsClose c e (double.number r) := by
  have unit : (0 : ℚ) < 2 ^ double.scale := by positivity
  have low :=
    mul_le_mul_of_nonneg_left (Numeral.scaling_bounds e).1 (Nat.cast_nonneg (α := ℚ) c)
  have near := mul_le_mul_of_nonneg_left (Numeral.scaling_near e) (Nat.cast_nonneg (α := ℚ) c)
  -- what is a unit in single precision is a normal number in double precision
  have large : (double.fractions : ℚ) ≤ c * scaling e * 2 ^ double.scale := by
    have split : (2 : ℚ) ^ double.scale =
        2 ^ single.scale * 2 ^ (double.scale - single.scale) := by
      rw [← pow_add]
      rfl
    have width : (double.fractions : ℚ) * 4 ≤ 2 ^ (double.scale - single.scale) := by
      have power : (2 : ℚ) ^ 54 ≤ 2 ^ (double.scale - single.scale) :=
        pow_le_pow_right₀ (by norm_num) (by decide)
      linarith [Numeral.cast_width]
    have rest : (0 : ℚ) < 2 ^ (double.scale - single.scale) := by positivity
    have := mul_le_mul_of_nonneg_right normal rest.le
    rw [mul_assoc, ← split] at this
    have := mul_le_mul_of_nonneg_right low unit.le
    linarith
  have error := nearest.number_error large
  rw [Numeral.cast_width] at error
  have moved : |(c * scaling e - c * 10 ^ e : ℚ)| = c * |scaling e - 10 ^ e| := by
    rw [← mul_sub, abs_mul, Nat.abs_cast]
  have triangle := abs_sub_le (double.number r) (c * scaling e) (c * 10 ^ e)
  have above := le_abs_self (c * scaling e - c * 10 ^ e : ℚ)
  have := abs_nonneg (c * scaling e - c * 10 ^ e : ℚ)
  unfold IsClose
  linarith

/-- A decimal is a number of double precision. -/
def IsExact (c : ℕ) (e : ℤ) : Prop :=
  ∃ (count : ℕ) (shift : ℤ), count ≤ 2 * double.fractions ∧ -1074 ≤ shift ∧
    (c * 10 ^ e : ℚ) = count * 2 ^ shift

/-- A decimal that is a number of double precision is read as that number. -/
theorem exists_rank?_of_exact (some_digit : c ≠ 0) (lower : -22 ≤ e) (upper : e ≤ 22)
    (top : (c * 10 ^ e : ℚ) ≤ 2 ^ 128)
    (digits : ∃ count shift, count ≤ 2 * double.fractions ∧ c = count * 2 ^ shift)
    (exact : IsExact c e) :
    ∃ r : Fin double.bound, rank? c e = some r ∧ double.number r = c * 10 ^ e := by
  obtain ⟨count, shift, few, digits⟩ := digits
  obtain ⟨steps, power, few', low, exact⟩ := exact
  obtain ⟨r, scaled, read⟩ :=
    Numeral.nearest_rank? some_digit count shift few digits (by omega : -308 ≤ e) (by omega)
  rw [Numeral.scaling_small lower upper] at scaled
  have unit : (0 : ℚ) < 2 ^ double.scale := by positivity
  have scale : (double.scale : ℤ) = 1074 := rfl
  have units : (double.units r : ℚ) = c * 10 ^ e * 2 ^ double.scale := by
    refine scaled.units_eq steps (power + 1074).toNat few' ?_
    rw [exact, mul_assoc, ← zpow_natCast, ← zpow_natCast, scale, ← zpow_add₀ (by norm_num),
      Int.toNat_of_nonneg (by omega)]
  have small : r < double.bound := by
    refine lt_bound_of_nearest scaled (mul_le_mul_of_nonneg_right ?_ unit.le)
    linarith
  refine ⟨⟨r, small⟩, by rw [read, dif_pos small], ?_⟩
  rw [Format.number, units, mul_div_cancel_right₀ _ unit.ne']

/-! ### The decimal in single precision -/

theorem quickPowerUnits_eq (k : ℕ) : quickPowerUnits k = Numeral.powerUnits k := by
  rw [quickPowerUnits, double.quickRankOf_eq, Numeral.powerUnits]

theorem nearest_scaledRank (c : ℕ) (e : ℤ) :
    double.Nearest (c * scaling e * 2 ^ double.scale) (scaledRank c e) := by
  rw [scaledRank, double.quickRankOf_eq, double.quickRankOf_eq, quickPowerUnits_eq,
    quickPowerUnits_eq]
  split
  · rename_i negative
    have nearest := Format.nearest_rankOf standard_double (c * twoPow double.scale)
      (Numeral.powerUnits_pos (-e).toNat)
    rwa [Nat.cast_mul, cast_twoPow, Numeral.scaleDown_ratio c negative] at nearest
  · rename_i not_negative
    have nearest := Format.nearest_rankOf standard_double (c * Numeral.powerUnits e.toNat)
      (twoPow_pos double.scale)
    rwa [Nat.cast_mul, cast_twoPow, Numeral.scaleUp_ratio c not_negative] at nearest

/-- A number of double precision is rounded to single precision. -/
theorem nearest_convert (r : ℕ) : single.Nearest (double.number r * 2 ^ single.scale)
    (single.rankOf (double.units r) (twoPow double.scale)) := by
  have nearest :=
    Format.nearest_rankOf standard_single (double.units r) (twoPow_pos double.scale)
  rwa [cast_twoPow] at nearest

/-- A safe decimal that the search for the shortest one has chosen is rounded alike in both
ways. -/
theorem nearest_of_isSafe (nearest : single.Nearest (c * 10 ^ e * 2 ^ single.scale) rank)
    (chosen : single.nearestOn? rank e = some c) (safe : isSafe c e = true) :
    single.Nearest
      (double.units (scaledRank c e) / 2 ^ double.scale * 2 ^ single.scale) rank := by
  have direct : directRank c e = rank := by
    rw [directRank, single.quickRankOf_eq]
    exact beq_iff_eq.mp ((Format.readsBack_iff standard_single).mpr nearest)
  rw [isSafe, direct, chosen, bne_self_eq_false, Bool.or_false, beq_iff_eq, indirectRank,
    single.quickRankOf_eq] at safe
  exact safe ▸ nearest_convert _

theorem isClear_of_large (lower : -53 ≤ e) (upper : e ≤ 38) (large : e < -11 ∨ 10 < e) :
    isClear e = true := by
  rcases large with low | high
  · rw [show e = -((12 + (-e - 12).toNat : ℕ) : ℤ) by omega]
    exact clear_low (by omega)
  · rw [show e = ((11 + (e - 11).toNat : ℕ) : ℤ) by omega]
    exact clear_high (by omega)

/-- A small whole decimal is a number of double precision. -/
theorem isExact_of_whole {k : ℕ} (few : c * 5 ^ k ≤ 2 * double.fractions) : IsExact c k := by
  refine ⟨c * 5 ^ k, k, few, by omega, ?_⟩
  push_cast
  rw [zpow_natCast, zpow_natCast, mul_assoc, ← mul_pow]
  norm_num

/-- A decimal with a small power of ten is close to a midpoint only if it is a number of
double precision. -/
theorem isExact_of_close {m : ℕ} {q : ℤ} (few : c < 2 ^ 28) (lower : -11 ≤ e) (upper : e ≤ 10)
    (half_steps : m < 2 ^ 25) (power : -150 ≤ q) (close : IsClose c e (m * 2 ^ q)) :
    IsExact c e := by
  by_cases whole : 0 ≤ e
  · obtain ⟨k, rfl⟩ : ∃ k : ℕ, e = k := ⟨e.toNat, by omega⟩
    have fives : 5 ^ k ≤ 5 ^ 10 := Nat.pow_le_pow_right (by decide) (by omega)
    exact isExact_of_whole ((Nat.mul_le_mul few.le fives).trans (by decide))
  · obtain ⟨k, rfl⟩ : ∃ k : ℕ, e = -k := ⟨(-e).toNat, by omega⟩
    exact ⟨m, q, half_steps.le.trans (by decide), by omega,
      (eq_of_close few half_steps (by omega) close).symm⟩

/-- A shortest decimal is read as a number of double precision that is rounded to the number
it was written for. -/
theorem exists_rank?_of_nearest
    (nearest : single.Nearest (c * 10 ^ e * 2 ^ single.scale) rank) (some_units : rank ≠ 0)
    (finite : rank < single.bound) (few : c < 2 ^ 28)
    (chosen : single.nearestOn? rank e = some c) :
    ∃ r : Fin double.bound, rank? c e = some r ∧
      single.Nearest (double.number r * 2 ^ single.scale) rank := by
  obtain ⟨lower, upper⟩ := exponent_bounds nearest some_units finite few
  have some_digit := some_digit_of_nearest nearest some_units
  have top := le_of_nearest nearest finite
  have few_digits : c ≤ 2 * double.fractions := few.le.trans (by decide)
  have digits : c = c * 2 ^ 0 := by rw [pow_zero, Nat.mul_one]
  by_cases exact : (-11 ≤ e ∧ e ≤ 10) ∧ IsExact c e
  · obtain ⟨⟨low, high⟩, exact⟩ := exact
    obtain ⟨r, read, value⟩ :=
      exists_rank?_of_exact some_digit (by omega) (by omega) top
        ⟨c, 0, few_digits, digits⟩ exact
    exact ⟨r, read, by rwa [value]⟩
  obtain ⟨r, scaled, read⟩ :=
    Numeral.nearest_rank? some_digit c 0 few_digits digits (by omega : -308 ≤ e) (by omega)
  have small : r < double.bound := by
    have scaling :=
      mul_le_mul_of_nonneg_left (Numeral.scaling_bounds e).2 (Nat.cast_nonneg (α := ℚ) c)
    refine lt_bound_of_nearest scaled (mul_le_mul_of_nonneg_right ?_ (by positivity))
    linarith
  refine ⟨⟨r, small⟩, by rw [read, dif_pos small], ?_⟩
  -- if the number were rounded elsewhere, the decimal would be close to a midpoint
  have after := nearest_convert r
  by_cases same : rank = single.rankOf (double.units r) (twoPow double.scale)
  · rwa [← same] at after
  have close := isClose_of_nearest scaled (nearest.half_le some_units)
  obtain ⟨m, q, half_steps, power, close⟩ := exists_close_midpoint nearest after close same
  by_cases small_power : -11 ≤ e ∧ e ≤ 10
  · exact absurd ⟨small_power,
      isExact_of_close few small_power.1 small_power.2 half_steps power close⟩ exact
  · have clear := isClear_of_large lower upper (by omega)
    have safe :=
      nearest_of_isSafe nearest chosen (isSafe_of_close clear some_digit few half_steps close)
    rwa [(nearest_scaledRank c e).eq scaled] at safe

end FixedInit
