/-
Decimals that are read in single precision by way of double precision.

Such a decimal is scaled in double precision, by a power of ten that is itself rounded, and
the result is rounded to single precision. Only a decimal very close to the midpoint of two
single precision numbers can go wrong.

* `quickRankOf_eq` : rounding with logarithms that are found by bisection;
* `clear_low`, `clear_high` : what the search says for most powers of ten;
* `isSafe_of_close` : so all decimals of these powers are safe that are close to a midpoint.

Design notes: the significand of a decimal and the number of half steps of a midpoint are a
fraction close to the power of ten, up to a power of two. So for each power of ten it is
enough to look at the close fractions of small denominators, and there are only a few. Most of
them are rounded well all the same; the others are no shortest decimals, as a neighbour on
their grid is nearer to the number. Logarithms are found by bisection here, which is what
makes trying them cheap.
-/
import FixedInit.Proofs.CloseFractions
import FixedInit.Proofs.JsonNumber

namespace FixedInit

open Format (single double standard_single standard_double cast_twoPow)

/-! ### Rounding by bisection -/

/-- The whole binary logarithm of a number below `2 ^ 2 ^ depth`. -/
def bisectLog : ℕ → ℕ → ℕ
  | 0, _ => 0
  | depth + 1, n =>
    if twoPow (twoPow depth) ≤ n then
      bisectLog depth (n / twoPow (twoPow depth)) + twoPow depth
    else bisectLog depth n

theorem bisectLog_eq {depth n : ℕ} (small : n < twoPow (twoPow depth)) :
    bisectLog depth n = n.log2 := by
  induction depth generalizing n with
  | zero =>
    have : n = 0 ∨ n = 1 := by
      have : n < 2 := small
      omega
    rcases this with rfl | rfl <;> rfl
  | succ depth ih =>
    rw [bisectLog]
    split
    · rename_i large
      have half_pos := twoPow_pos (twoPow depth)
      have double : twoPow (depth + 1) = twoPow depth + twoPow depth := by
        rw [twoPow_succ, Nat.two_mul]
      rw [double, twoPow_add] at small
      have quotient_ne : n / twoPow (twoPow depth) ≠ 0 := (Nat.div_pos large half_pos).ne'
      have n_ne : n ≠ 0 := by omega
      rw [ih ((Nat.div_lt_iff_lt_mul half_pos).mpr small)]
      obtain ⟨low, high⟩ := (log2_eq_iff _ quotient_ne).mp rfl
      refine ((log2_eq_iff _ n_ne).mpr ⟨?_, ?_⟩).symm
      · rw [twoPow_add]
        exact (Nat.le_div_iff_mul_le half_pos).mp low
      · rw [Nat.add_right_comm, twoPow_add]
        exact (Nat.div_lt_iff_lt_mul half_pos).mp high
    · exact ih (by omega)

/-- The rank nearest to a quotient, with its logarithm found by bisection. -/
def Format.quickRankOf (f : Format) (num den : ℕ) : ℕ :=
  let num := num * twoPow f.scale
  let quotient := num / den
  let log := if quotient < twoPow (twoPow 12) then bisectLog 12 quotient else quotient.log2
  let shift := log - f.fractionBits
  shift * f.fractions + nearestEven num (den * twoPow shift)

theorem Format.quickRankOf_eq (f : Format) (num den : ℕ) :
    f.quickRankOf num den = f.rankOf num den := by
  unfold quickRankOf rankOf
  simp only
  split
  · rename_i small
    rw [bisectLog_eq small]
  · rfl

/-! ### The search -/

/-- The rank of single precision that a decimal is rounded to. -/
def directRank (c : ℕ) (e : ℤ) : ℕ :=
  single.quickRankOf (c * tenPow e.toNat) (tenPow (-e).toNat)

/-- The units of double precision of a power of ten, as it is rounded. -/
def quickPowerUnits (k : ℕ) : ℕ :=
  double.units (double.quickRankOf (tenPow k) 1)

/-- The rank of double precision that a decimal is scaled to. -/
def scaledRank (c : ℕ) (e : ℤ) : ℕ :=
  if e < 0 then double.quickRankOf (c * twoPow double.scale) (quickPowerUnits (-e).toNat)
  else double.quickRankOf (c * quickPowerUnits e.toNat) (twoPow double.scale)

/-- The rank of single precision that a decimal is rounded to by way of double precision. -/
def indirectRank (c : ℕ) (e : ℤ) : ℕ :=
  single.quickRankOf (double.units (scaledRank c e)) (twoPow double.scale)

/-- A decimal is rounded alike in both ways, or it is not the shortest one of a number. -/
def isSafe (c : ℕ) (e : ℤ) : Bool :=
  indirectRank c e == directRank c e || single.nearestOn? (directRank c e) e != some c

/-- A number and its halves, as long as they are whole. -/
def halvings : ℕ → ℕ → List ℕ
  | 0, _ => []
  | fuel + 1, n => n :: if n % 2 = 0 then halvings fuel (n / 2) else []

/-- All decimals are safe whose significand is, up to a power of two, a multiple of 28 bits of
the given number. -/
def areMultiplesSafe (e : ℤ) (q : ℕ) : Bool :=
  (List.range (twoPow 28 / q + 1)).all fun k =>
    k * q < twoPow 27 || (halvings 28 (k * q)).all fun c => isSafe c e

/-- A power of ten as a fraction, up to a power of two that brings it between an eighth and a
quarter. -/
def tenRatio (e : ℤ) : ℕ × ℕ :=
  if e < 0 then (twoPow ((tenPow (-e).toNat).log2 - 2), tenPow (-e).toNat)
  else (tenPow e.toNat, twoPow ((tenPow e.toNat).log2 + 3))

/-- The fractions that are close to the given one, in proportion. -/
def Window.around (num den : ℕ) : Window :=
  ⟨num * (twoPow 51 - 1), den * twoPow 51, num * (twoPow 51 + 1), den * twoPow 51⟩

/-- All decimals with a power of ten are safe that are close to a midpoint. -/
def isClear (e : ℤ) : Bool :=
  (tenRatio e).2 ≤ 8 * (tenRatio e).1 && 4 * (tenRatio e).1 ≤ (tenRatio e).2 &&
    (Window.around (tenRatio e).1 (tenRatio e).2).all
      (twoPow 28) (areMultiplesSafe e) 1000 0 1 1 1

theorem clear_low {k : ℕ} : k < 42 → isClear (-(12 + k : ℕ)) = true := by
  revert k
  decide +kernel

theorem clear_high {k : ℕ} : k < 28 → isClear (11 + k : ℕ) = true := by
  revert k
  decide +kernel

/-! ### What the search says -/

theorem mem_halvings {fuel i : ℕ} (c : ℕ) (h : i < fuel) :
    c ∈ halvings fuel (c * twoPow i) := by
  induction fuel generalizing i with
  | zero => omega
  | succ fuel ih =>
    cases i with
    | zero =>
      rw [twoPow_zero, Nat.mul_one, halvings]
      exact List.mem_cons_self
    | succ i =>
      have half : c * twoPow (i + 1) = 2 * (c * twoPow i) := by
        rw [twoPow_succ]
        ring
      rw [halvings, half, if_pos (Nat.mul_mod_right 2 _),
        Nat.mul_div_cancel_left _ (by decide)]
      exact List.mem_cons_of_mem _ (ih (by omega))

/-- A multiple of 28 bits is safe, and so are its halves. -/
theorem isSafe_of_multiple {e : ℤ} {c i k q : ℕ} (h : areMultiplesSafe e q = true)
    (multiple : c * twoPow i = k * q) (lower : twoPow 27 ≤ c * twoPow i)
    (upper : c * twoPow i < twoPow 28) (few : i < 28) : isSafe c e = true := by
  have positive : 0 < q := by
    refine Nat.pos_of_ne_zero ?_
    rintro rfl
    rw [multiple, Nat.mul_zero] at lower
    exact absurd lower (by decide)
  have bounded : k < twoPow 28 / q + 1 :=
    Nat.lt_succ_of_le ((Nat.le_div_iff_mul_le positive).mpr (multiple ▸ upper.le))
  have passed := List.all_eq_true.mp h k (List.mem_range.mpr bounded)
  rw [← multiple, Bool.or_eq_true, decide_eq_true_eq] at passed
  exact List.all_eq_true.mp (passed.resolve_left (by omega)) c (mem_halvings c few)

theorem tenRatio_spec (e : ℤ) : 0 < (tenRatio e).2 ∧
    ∃ q : ℤ, ((tenRatio e).1 : ℚ) = (tenRatio e).2 * (10 ^ e * 2 ^ q) := by
  unfold tenRatio
  split
  · refine ⟨Nat.pow_pos (by decide), ((tenPow (-e).toNat).log2 - 2 : ℕ), ?_⟩
    have cancel : (10 : ℚ) ^ (-e).toNat * 10 ^ e = 1 := by
      rw [← zpow_natCast, ← zpow_add₀ (by norm_num),
        show ((-e).toNat : ℤ) + e = 0 by omega, zpow_zero]
    rw [cast_twoPow, cast_tenPow, zpow_natCast, ← mul_assoc, cancel, one_mul]
  · refine ⟨twoPow_pos _, -((tenPow e.toNat).log2 + 3 : ℕ), ?_⟩
    have power : (10 : ℚ) ^ e = 10 ^ e.toNat := by
      rw [← zpow_natCast]
      congr 1
      omega
    rw [cast_twoPow, cast_tenPow, zpow_neg, zpow_natCast, power]
    field_simp

/-- A decimal is close to a number, in proportion. -/
def IsClose (c : ℕ) (e : ℤ) (m : ℚ) : Prop :=
  |m - c * 10 ^ e| * 2 ^ 51 ≤ c * 10 ^ e

theorem contains_around {num den x y : ℕ}
    (close : |(x * den - y * num : ℚ)| * 2 ^ 51 ≤ y * num) :
    (Window.around num den).Contains x y := by
  have ⟨low, high⟩ : (y * num : ℚ) * (2 ^ 51 - 1) ≤ x * den * 2 ^ 51 ∧
      (x * den : ℚ) * 2 ^ 51 ≤ y * num * (2 ^ 51 + 1) := by
    have lower := neg_abs_le (x * den - y * num : ℚ)
    have upper := le_abs_self (x * den - y * num : ℚ)
    constructor <;> linarith
  have width : ((twoPow 51 - 1 : ℕ) : ℚ) = 2 ^ 51 - 1 := by
    rw [Nat.cast_sub (twoPow_pos 51), cast_twoPow, Nat.cast_one]
  constructor
  · have : ((num * (twoPow 51 - 1) * y : ℕ) : ℚ) ≤ (x * (den * twoPow 51) : ℕ) := by
      push_cast [cast_twoPow, width]
      linarith
    exact_mod_cast this
  · have : ((x * (den * twoPow 51) : ℕ) : ℚ) ≤ (num * (twoPow 51 + 1) * y : ℕ) := by
      push_cast [cast_twoPow]
      linarith
    exact_mod_cast this

/-- A number is doubled until it has 28 bits. -/
theorem exists_doublings {c : ℕ} (some_digit : c ≠ 0) (few : c < 2 ^ 28) :
    ∃ i < 28, twoPow 27 ≤ c * twoPow i ∧ c * twoPow i < twoPow 28 := by
  have bits : c.log2 < 28 := (Nat.log2_lt some_digit).mpr few
  obtain ⟨low, high⟩ := (log2_eq_iff c.log2 some_digit).mp rfl
  obtain ⟨i, sum⟩ : ∃ i, i + c.log2 = 27 := ⟨27 - c.log2, by omega⟩
  refine ⟨i, by omega, ?_, ?_⟩
  · rw [← sum, twoPow_add, Nat.mul_comm]
    exact Nat.mul_le_mul_right _ low
  · rw [show 28 = c.log2 + 1 + i by omega, twoPow_add]
    exact Nat.mul_lt_mul_of_pos_right high (twoPow_pos i)

section

variable {n m num den : ℕ} {p : ℤ}

/-- Closeness to a number of few bits, with the power of ten replaced by a fraction. -/
theorem close_scaled {c i : ℕ} {e q shift : ℤ} (den_pos : 0 < den)
    (ratio : (num : ℚ) = den * (10 ^ e * 2 ^ shift)) (close : IsClose c e (m * 2 ^ q)) :
    |(m * 2 ^ (q + i + shift) * den - (c * twoPow i : ℕ) * num : ℚ)| * 2 ^ 51 ≤
      (c * twoPow i : ℕ) * num := by
  have den_cast : (0 : ℚ) < den := by exact_mod_cast den_pos
  have factor : (0 : ℚ) < 2 ^ i * 2 ^ shift * den := by positivity
  have left : (m * 2 ^ (q + i + shift) * den : ℚ) =
      m * 2 ^ q * (2 ^ i * 2 ^ shift * den) := by
    rw [zpow_add₀ (by norm_num), zpow_add₀ (by norm_num), zpow_natCast]
    ring
  have right : ((c * twoPow i : ℕ) * num : ℚ) = c * 10 ^ e * (2 ^ i * 2 ^ shift * den) := by
    rw [Nat.cast_mul, cast_twoPow, ratio]
    ring
  rw [left, right, ← sub_mul, abs_mul, abs_of_pos factor]
  linarith [mul_le_mul_of_nonneg_right close factor.le]

variable (close : |(m * 2 ^ p * den - n * num : ℚ)| * 2 ^ 51 ≤ n * num)

include close

/-- Few bits are close to many only if they are scaled up. -/
theorem nonneg_of_close (den_pos : 0 < den) (eighth : den ≤ 8 * num) (many : twoPow 27 ≤ n)
    (few : m < 2 ^ 25) :
    0 ≤ p := by
  by_contra fractional
  have den_cast : (0 : ℚ) < den := by exact_mod_cast den_pos
  have eighth : (den : ℚ) ≤ 8 * num := by exact_mod_cast eighth
  have many : (2 : ℚ) ^ 27 ≤ n := by
    rw [← cast_twoPow]
    exact_mod_cast many
  have half : (2 : ℚ) ^ p ≤ 2 ^ (-1 : ℤ) := zpow_le_zpow_right₀ (by norm_num) (by omega)
  rw [zpow_neg_one] at half
  have steps : (m : ℚ) ≤ 2 ^ 25 - 1 := by
    have : ((m + 1 : ℕ) : ℚ) ≤ (2 ^ 25 : ℕ) := by exact_mod_cast few
    push_cast at this
    linarith
  have small : (m * 2 ^ p * den : ℚ) ≤ (2 ^ 25 - 1) * 2⁻¹ * den :=
    mul_le_mul_of_nonneg_right (mul_le_mul steps half (by positivity) (by norm_num))
      den_cast.le
  have large : (2 ^ 27 * (den / 8) : ℚ) ≤ n * num :=
    mul_le_mul many (by linarith) (by positivity) (by positivity)
  linarith [neg_abs_le (m * 2 ^ p * den - n * num : ℚ)]

end

/-- A number that is close to a fraction of another one is less than it, and more than
nothing. -/
theorem lt_of_close {x n num den : ℕ} (close : |(x * den - n * num : ℚ)| * 2 ^ 51 ≤ n * num)
    (some_bits : 0 < n) (num_pos : 0 < num) (quarter : 4 * num ≤ den) : 0 < x ∧ x < n := by
  have product : (0 : ℚ) < n * num := by exact_mod_cast Nat.mul_pos some_bits num_pos
  have den_cast : (0 : ℚ) < den := by exact_mod_cast (by omega : 0 < den)
  have quarter : (4 * num : ℚ) ≤ den := by exact_mod_cast quarter
  have low := neg_abs_le (x * den - n * num : ℚ)
  have high := le_abs_self (x * den - n * num : ℚ)
  constructor
  · have : (0 : ℚ) < x * den := by linarith
    exact_mod_cast (mul_pos_iff_of_pos_right den_cast).mp this
  · have fraction : (n * (4 * num) : ℚ) ≤ n * den :=
      mul_le_mul_of_nonneg_left quarter (Nat.cast_nonneg n)
    have : (x * den : ℚ) < n * den := by linarith
    exact_mod_cast lt_of_mul_lt_mul_right this den_cast.le

/-- A decimal of 28 bits that is close to 25 bits, scaled by a power of two, is safe if its
power of ten is clear. -/
theorem isSafe_of_close {c m : ℕ} {e q : ℤ} (clear : isClear e = true) (some_digit : c ≠ 0)
    (few : c < 2 ^ 28) (half_steps : m < 2 ^ 25) (close : IsClose c e (m * 2 ^ q)) :
    isSafe c e = true := by
  obtain ⟨den_pos, shift, ratio⟩ := tenRatio_spec e
  unfold isClear at clear
  generalize (tenRatio e).1 = num at clear ratio
  generalize (tenRatio e).2 = den at clear ratio den_pos
  rw [Bool.and_eq_true, Bool.and_eq_true, decide_eq_true_eq, decide_eq_true_eq] at clear
  obtain ⟨⟨eighth, quarter⟩, searched⟩ := clear
  obtain ⟨i, few_doublings, lower, upper⟩ := exists_doublings some_digit few
  have scaled := close_scaled (i := i) den_pos ratio close
  -- the half steps are a whole number of the same steps as the doubled significand
  obtain ⟨j, hj⟩ : ∃ j : ℕ, q + i + shift = j :=
    ⟨_, (Int.toNat_of_nonneg (nonneg_of_close scaled den_pos eighth lower half_steps)).symm⟩
  rw [hj, zpow_natCast, ← cast_twoPow, ← Nat.cast_mul] at scaled
  obtain ⟨positive, less⟩ :=
    lt_of_close scaled ((twoPow_pos 27).trans_le lower) (by omega) quarter
  have start : Neighbours 0 1 1 1 := rfl
  obtain ⟨k, p, multiple, passed⟩ :=
    Window.exists_of_all start searched (by omega) (by omega) upper (contains_around scaled)
  exact isSafe_of_multiple passed multiple lower upper few_doublings

end FixedInit
