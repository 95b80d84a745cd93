/-
Numbers of double precision are read back to within a few places.

* `scaled_near` : what is rounded before the last step changes a decimal by a few units in the
  last place;
* `le_add_of_near` : two magnitudes so close are rounded to ranks that are at most five places
  apart;
* `exists_rank?_double` : so the decimal of a finite number is read as a finite number.

Design notes: the significand and the power of ten are rounded, and the quotient by the
largest power if there is a second one; so is the decimal itself, when it is written. Only one
of the last five finite numbers could be read as a number out of range, and none is.
-/
import FixedInit.Proofs.ThroughDouble

namespace FixedInit

open Format (double standard_double cast_twoPow)
open Numeral (scaling scaleBy scaled rank?)

variable {c : ℕ} {e : ℤ}

/-! ### Before the last rounding -/

/-- A rounded significand that is scaled by a rounded power of ten. -/
theorem number_scaling_near (some_digit : c ≠ 0) (e : ℤ) :
    |double.number (double.rankOf c 1) * scaling e - c * 10 ^ e| * 2 ^ 53 ≤
      13 / 4 * (c * 10 ^ e) := by
  have significand := Numeral.number_whole_near some_digit
  have power := Numeral.scaling_near e
  have positive : (0 : ℚ) < 10 ^ e := by positivity
  have digits : (0 : ℚ) ≤ c := Nat.cast_nonneg c
  generalize double.number (double.rankOf c 1) = n at significand ⊢
  have scaling_nonneg : 0 ≤ scaling e := by linarith [(Numeral.scaling_bounds e).1]
  have scaling_le : scaling e ≤ 5 / 4 * 10 ^ e := by
    linarith [le_abs_self (scaling e - 10 ^ e)]
  have split : n * scaling e - c * 10 ^ e =
      (n - c) * scaling e + c * (scaling e - 10 ^ e) := by
    ring
  calc |n * scaling e - c * 10 ^ e| * 2 ^ 53
      ≤ (|n - c| * scaling e + c * |scaling e - 10 ^ e|) * 2 ^ 53 := by
        refine mul_le_mul_of_nonneg_right ?_ (by positivity)
        rw [split]
        refine (abs_add_le _ _).trans_eq ?_
        rw [abs_mul, abs_mul, abs_of_nonneg scaling_nonneg, Nat.abs_cast]
    _ = |n - c| * 2 ^ 53 * scaling e + 2 * (c * (|scaling e - 10 ^ e| * 2 ^ 52)) := by ring
    _ ≤ c * (5 / 4 * 10 ^ e) + 2 * (c * 10 ^ e) :=
        add_le_add (mul_le_mul significand scaling_le scaling_nonneg digits)
          (mul_le_mul_of_nonneg_left (mul_le_mul_of_nonneg_left power digits) two_pos.le)
    _ = 13 / 4 * (c * 10 ^ e) := by ring

/-- So it is when the result is rounded in turn. -/
theorem scaleBy_near (some_digit : c ≠ 0) (e : ℤ) :
    |(double.units (scaleBy (double.rankOf c 1) e) : ℚ) - c * 10 ^ e * 2 ^ double.scale| *
      2 ^ 53 ≤ 9 / 2 * (c * 10 ^ e * 2 ^ double.scale) + 2 ^ 52 := by
  have first := number_scaling_near some_digit e
  have nearest := Numeral.nearest_scaleBy (double.rankOf c 1) e
  have unit : (0 : ℚ) < 2 ^ double.scale := by positivity
  have width : (double.fractions : ℚ) = 2 ^ 52 := Format.cast_twoPow 52
  have decimal : (0 : ℚ) ≤ c * 10 ^ e := by positivity
  generalize double.number (double.rankOf c 1) * scaling e = x at first nearest
  generalize (c * 10 ^ e : ℚ) = y at first decimal ⊢
  have x_le : x ≤ 5 / 4 * y := by linarith [le_abs_self (x - y)]
  have x_nonneg : 0 ≤ x := by linarith [neg_abs_le (x - y)]
  have error := nearest.error_le (mul_nonneg x_nonneg unit.le)
  have moved : |x * 2 ^ double.scale - y * 2 ^ double.scale| =
      |x - y| * 2 ^ double.scale := by
    rw [← sub_mul, abs_mul, abs_of_pos unit]
  have triangle :=
    abs_sub_le (double.units (scaleBy (double.rankOf c 1) e) : ℚ) (x * 2 ^ double.scale)
      (y * 2 ^ double.scale)
  rw [Numeral.cast_width, width] at error
  linarith [mul_le_mul_of_nonneg_right first unit.le, mul_le_mul_of_nonneg_right x_le unit.le]

/-- What is rounded before the last step changes a decimal by a few units in the last place,
or by a small part of the least unit of all. -/
theorem scaled_near (some_digit : c ≠ 0) (lower : -330 ≤ e) :
    |scaled c e * 2 ^ double.scale - c * 10 ^ e * 2 ^ double.scale| * 2 ^ 53 ≤
      9 / 2 * (c * 10 ^ e * 2 ^ double.scale) + 2 ^ 53 / 20 := by
  have unit : (0 : ℚ) < 2 ^ double.scale := by positivity
  rw [scaled]
  split
  · have sum : e = -308 + (e + 308) := by omega
    have split : (10 : ℚ) ^ e = 10 ^ (-308 : ℤ) * 10 ^ (e + 308) :=
      (congrArg ((10 : ℚ) ^ ·) sum).trans (zpow_add₀ (by norm_num) _ _)
    -- the second division makes the first error at least ten times smaller
    have step : (10 : ℚ) ^ (e + 308) ≤ 10 ^ (-1 : ℤ) :=
      zpow_le_zpow_right₀ (by norm_num) (by omega)
    have step_pos : (0 : ℚ) < 10 ^ (e + 308) := by positivity
    have near := mul_le_mul_of_nonneg_right (scaleBy_near some_digit (-308)) step_pos.le
    rw [zpow_neg_one] at step
    rw [Numeral.scaling_small (by omega) (by omega), split]
    generalize (10 : ℚ) ^ (e + 308) = q at near step step_pos ⊢
    rw [← double.number_mul] at near
    have factor (a : ℚ) : a * q * 2 ^ double.scale = a * 2 ^ double.scale * q :=
      mul_right_comm _ _ _
    rw [← mul_assoc, factor, factor, ← sub_mul, abs_mul, abs_of_pos step_pos]
    linarith
  · have near := mul_le_mul_of_nonneg_right (number_scaling_near some_digit e) unit.le
    have positive : (0 : ℚ) ≤ c * 10 ^ e * 2 ^ double.scale := by positivity
    rw [← sub_mul, abs_mul, abs_of_pos unit]
    linarith

/-! ### The last rounding -/

/-- The step behind a rank is no less than the last place of the magnitudes that are rounded
to it. -/
theorem gap_of_nearest {t : ℚ} {rank : ℕ} (nearest : double.Nearest t rank) :
    1 ≤ (double.units (rank + 1) : ℚ) - double.units rank ∧
      t ≤ 2 ^ 53 * ((double.units (rank + 1) : ℚ) - double.units rank) := by
  have next : (double.units rank + 1 : ℚ) ≤ double.units (rank + 1) := by
    exact_mod_cast double.units_lt_units_succ rank
  have long := double.le_gap rank
  have below := Format.midpoint_lt_units_succ (f := double) rank
  rw [Numeral.cast_width] at long
  exact ⟨by linarith, by linarith [nearest.above]⟩

/-- Two magnitudes that are close are rounded to ranks at most five places apart. -/
theorem le_add_of_near {s t : ℚ} {a b : ℕ} (hs : double.Nearest s a) (ht : double.Nearest t b)
    (near : |t - s| * 2 ^ 53 ≤ 9 / 2 * s + 2 ^ 53 / 20) : b ≤ a + 5 ∧ a ≤ b + 5 := by
  have above := le_abs_self (t - s)
  have below := neg_abs_le (t - s)
  -- otherwise five steps lie between them, which together are longer than their distance
  constructor
  · by_contra far
    have apart := hs.gap_mul_le_sub ht (not_le.mp far)
    obtain ⟨unit, bound⟩ := gap_of_nearest hs
    push_cast at apart
    linarith
  · by_contra far
    have apart := ht.gap_mul_le_sub hs (not_le.mp far)
    obtain ⟨unit, bound⟩ := gap_of_nearest ht
    push_cast at apart
    linarith

/-! ### Shortest decimals -/

/-- The powers of ten of shortest decimals. -/
theorem shortest_exponent {rank : ℕ} (some_units : rank ≠ 0) (finite : rank < double.bound) :
    -324 ≤ (double.shortest rank).2 ∧ (double.shortest rank).2 ≤ 308 := by
  constructor
  · -- the next coarser grid has steps of at least a unit
    by_contra small
    obtain ⟨lower, rfl⟩ : ∃ lower, rank = lower + 1 := ⟨rank - 1, by omega⟩
    have coarse := Format.gap_le_coarser standard_double lower
    have unit := (gap_of_nearest (double.nearest_units lower)).1
    have scale : (2 : ℚ) ^ double.scale < 10 ^ 324 := by
      rw [← cast_twoPow, ← cast_tenPow]
      exact_mod_cast (by decide +kernel : twoPow double.scale < tenPow 324)
    have tiny : (10 : ℚ) ^ ((double.shortest (lower + 1)).2 + 1) * 10 ^ 324 ≤ 1 := by
      rw [← zpow_natCast 10 324, ← zpow_add₀ (by norm_num)]
      exact zpow_le_one_of_nonpos₀ (by norm_num) (by omega)
    refine lt_irrefl (1 : ℚ) ?_
    calc (1 : ℚ) ≤ double.units (lower + 1) - double.units lower := unit
      _ ≤ 10 ^ ((double.shortest (lower + 1)).2 + 1) * 2 ^ double.scale := coarse
      _ < 10 ^ ((double.shortest (lower + 1)).2 + 1) * 10 ^ 324 :=
        mul_lt_mul_of_pos_left scale (zpow_pos (by norm_num) _)
      _ ≤ 1 := tiny
  · by_contra large
    have top :=
      (Format.nearest_shortest standard_double rank).le_ceiling standard_double finite
    have one_le : (1 : ℚ) ≤ (double.shortest rank).1 := by
      exact_mod_cast Nat.one_le_iff_ne_zero.mpr (double.shortest_ne_zero some_units)
    have ceiling : (2 : ℚ) ^ double.ceiling < 10 ^ 309 := by
      rw [← cast_twoPow, ← cast_tenPow]
      exact_mod_cast (by decide +kernel : twoPow double.ceiling < tenPow 309)
    have huge : (10 : ℚ) ^ 309 ≤ 10 ^ (double.shortest rank).2 := by
      rw [← zpow_natCast 10 309]
      exact zpow_le_zpow_right₀ (by norm_num) (by omega)
    refine lt_irrefl ((10 : ℚ) ^ 309) ?_
    calc (10 : ℚ) ^ 309 ≤ 10 ^ (double.shortest rank).2 := huge
      _ ≤ (double.shortest rank).1 * 10 ^ (double.shortest rank).2 :=
        le_mul_of_one_le_left (zpow_nonneg (by norm_num) _) one_le
      _ ≤ 2 ^ double.ceiling := top
      _ < 10 ^ 309 := ceiling

/-- A multiple of a power of ten is read as a finite number, or it is not the shortest decimal
of the rank. -/
def isReadFor (rank : ℕ) (e : ℤ) (count : ℕ) : Bool :=
  double.quickRankOf (count * tenPow e.toNat) (tenPow (-e).toNat) != rank ||
    double.nearestOn? rank e != some count || (rank? count e).isSome

/-- So it is for both multiples next to the magnitude of the rank. -/
def isReadOn (rank : ℕ) (e : ℤ) : Bool :=
  isReadFor rank e ((double.inGrid rank e).1 / (double.inGrid rank e).2) &&
    isReadFor rank e ((double.inGrid rank e).1 / (double.inGrid rank e).2 + 1)

theorem last_isReadOn :
    ∀ k < 5, ∀ i < 17, isReadOn (double.bound - 1 - k) (292 + i : ℕ) = true := by
  decide +kernel

theorem last_gap :
    ∀ k < 5, tenPow 292 * twoPow double.scale + double.units (double.bound - 2 - k) <
      double.units (double.bound - 1 - k) := by
  decide +kernel

theorem isSome_rank?_of_isReadOn {rank : ℕ} (passed : isReadOn rank e = true)
    (chosen : double.nearestOn? rank e = some c) : (rank? c e).isSome = true := by
  obtain ⟨reads, near⟩ := double.nearestOn?_eq_some chosen
  have passed : isReadFor rank e c = true := by
    rw [isReadOn, Bool.and_eq_true] at passed
    rcases near with rfl | rfl
    · exact passed.1
    · exact passed.2
  have same : double.rankOf (c * tenPow e.toNat) (tenPow (-e).toNat) = rank :=
    beq_iff_eq.mp reads
  simpa [isReadFor, double.quickRankOf_eq, same, chosen] using passed

/-- None of the last five finite numbers is read as a number out of range. -/
theorem isSome_rank?_last {rank : ℕ} (last : double.bound ≤ rank + 5)
    (finite : rank < double.bound) :
    16 < (double.shortest rank).2 ∧
    (rank? (double.shortest rank).1 (double.shortest rank).2).isSome = true := by
  have some_ranks : 5 < double.bound := by decide
  obtain ⟨k, few_places, place⟩ : ∃ k < 5, rank = double.bound - 1 - k :=
    ⟨double.bound - 1 - rank, by omega, by omega⟩
  have lower : 292 ≤ (double.shortest rank).2 := by
    -- the steps between the last numbers are longer than this power of ten
    by_contra small
    have coarse := Format.gap_le_coarser standard_double (double.bound - 2 - k)
    rw [show double.bound - 2 - k + 1 = rank by omega] at coarse
    have gap : (10 ^ 292 * 2 ^ double.scale + double.units (double.bound - 2 - k) : ℚ) <
        double.units rank := by
      rw [← cast_tenPow, ← cast_twoPow, place]
      exact_mod_cast last_gap k few_places
    have power : (10 : ℚ) ^ ((double.shortest rank).2 + 1) ≤ 10 ^ 292 := by
      rw [← zpow_natCast 10 292]
      exact zpow_le_zpow_right₀ (by norm_num) (by omega)
    have unit : (0 : ℚ) ≤ 2 ^ double.scale := by positivity
    exact absurd (coarse.trans (mul_le_mul_of_nonneg_right power unit))
      (not_le.mpr (lt_sub_iff_add_lt.mpr gap))
  have upper := (shortest_exponent (by omega) finite).2
  have scale : (double.scale : ℤ) = 1074 := rfl
  have chosen := (double.shortest_spec rank).2.1.resolve_left (by omega)
  generalize (double.shortest rank).1 = c at chosen ⊢
  generalize (double.shortest rank).2 = e at lower upper chosen ⊢
  refine ⟨by omega, isSome_rank?_of_isReadOn ?_ chosen⟩
  have passed := last_isReadOn k few_places (e - 292).toNat (by omega)
  rwa [← place, show ((292 + (e - 292).toNat : ℕ) : ℤ) = e by omega] at passed

/-- Shortest decimals are small enough to be read with all their digits, and so they are with
the zeros that are written behind them. -/
theorem written_bounds {rank zeros : ℕ} (some_units : rank ≠ 0) (finite : rank < double.bound)
    (extra : zeros = 0 ∨ zeros = (double.shortest rank).2 + 1 ∧
      (double.shortest rank).2 + (Digits.ofNat (double.shortest rank).1).length ≤
      Expr.layout.plainBelow) :
    (double.shortest rank).1 * tenPow zeros < twoPow 64 ∧
      -324 ≤ (double.shortest rank).2 - zeros ∧ (double.shortest rank).2 - zeros ≤ 308 := by
  have plain : Expr.layout.plainBelow = 16 := rfl
  obtain ⟨lower, upper⟩ := shortest_exponent some_units finite
  rcases extra with rfl | ⟨behind, short⟩
  · have few :=
      lt_of_le_of_lt (Format.shortest_le standard_double some_units)
        (by decide +kernel : _ < twoPow 64)
    rw [tenPow_zero, Nat.mul_one]
    exact ⟨few, by omega, by omega⟩
  · have few : (double.shortest rank).1 * tenPow zeros < tenPow 17 :=
      Digits.mul_tenPow_lt (by omega)
    exact ⟨few.trans (by decide), by omega, by omega⟩

/-- The number of double precision that the written digits of another one are read as. -/
theorem exists_rank?_double (negative : Bool) (rank : Fin double.bound) :
    (Expr.layout.finite negative rank).decimal.significand < twoPow 64 ∧
      ∃ other : Fin double.bound, rank? (Expr.layout.finite negative rank).decimal.significand
          (Expr.layout.finite negative rank).decimal.exponent = some other ∧
        double.Nearest (scaled (Expr.layout.finite negative rank).decimal.significand
          (Expr.layout.finite negative rank).decimal.exponent * 2 ^ double.scale) other ∧
        other.val ≤ rank + 5 ∧ rank.val ≤ other + 5 := by
  by_cases zero : rank.val = 0
  · rw [Expr.layout.decimal_zero negative zero]
    refine ⟨twoPow_pos 64, ⟨0, Format.bound_pos standard_double⟩, rfl, ?_,
      Nat.zero_le _, by omega⟩
    have nothing : scaled 0 (-1) = 0 := by
      rw [Numeral.scaled_exact (c := 0) (e := -1) 0 0 (Nat.zero_le _) rfl (by decide),
        Nat.cast_zero, zero_mul]
    have nearest := double.nearest_units 0
    rw [Format.units_zero, Nat.cast_zero] at nearest
    simp only
    rwa [nothing, zero_mul]
  obtain ⟨zeros, decimal, extra⟩ := Expr.layout.decimal_finite negative zero
  have plain : Expr.layout.plainBelow = 16 := rfl
  have nearest := Expr.layout.nearest_decimal standard_double negative rank
  rw [Decimal.abs_value] at nearest
  obtain ⟨few, lower, upper⟩ := written_bounds zero rank.isLt extra
  have some_digit : (double.shortest rank).1 * tenPow zeros ≠ 0 :=
    Nat.mul_ne_zero (double.shortest_ne_zero zero) (Nat.pow_pos (by decide)).ne'
  rw [decimal] at nearest ⊢
  obtain ⟨r, rounded, read⟩ := Numeral.exists_nearest_scaled some_digit (by omega) upper
  obtain ⟨above, below⟩ := le_add_of_near nearest rounded (scaled_near some_digit (by omega))
  have finite : r < double.bound := by
    -- being at most five places away, it would have been written for one of the last numbers
    by_contra beyond
    obtain ⟨large, is_read⟩ := isSome_rank?_last (by omega) rank.isLt
    obtain rfl : zeros = 0 := extra.resolve_right (by omega)
    rw [dif_neg beyond, tenPow_zero, Nat.mul_one, Int.natCast_zero, Int.sub_zero] at read
    rw [read] at is_read
    cases is_read
  exact ⟨few, ⟨r, finite⟩, by rw [read, dif_pos finite], rounded, above, below⟩

end FixedInit
