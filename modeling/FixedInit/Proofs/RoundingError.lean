/-
How far a magnitude is from the one that it is rounded to.

* `exists_units_eq` : few digits, scaled by any power of two, are a magnitude of the format;
* `Nearest.units_eq` : a magnitude of the format is not changed by rounding;
* `Nearest.relative_error`, `Nearest.error_le` : any other one is changed by half a unit in
  the last place at most;
* `Nearest.gap_mul_le_sub` : two magnitudes that are rounded apart are as far apart as the
  steps between their ranks;
* `Nearest.exists_midpoint_near` : they are as far apart as one of them is from the midpoint
  of two ranks.

Design notes: the ranks of a format are counts of steps, and the step doubles where the count
has become twice as large. What is said of the gap between two ranks is read off the count.
-/
import FixedInit.Proofs.ShortestDecimal

namespace FixedInit.Format

variable {f : Format}

/-! ### Ranks as counts of steps -/

/-- A rank counts steps of a power of two, by a number with as many digits as a significand
has. -/
theorem exists_steps (f : Format) (rank : ℕ) :
    ∃ shift count, rank = shift * f.fractions + count ∧
    count < 2 * f.fractions ∧ (shift = 0 ∨ f.fractions ≤ count) := by
  have positive := f.fractions_pos
  have split := Nat.div_add_mod' rank f.fractions
  have small := Nat.mod_lt rank positive
  cases field : rank / f.fractions with
  | zero =>
    rw [field, Nat.zero_mul, Nat.zero_add] at split
    exact ⟨0, rank, by omega, by omega, .inl rfl⟩
  | succ shift =>
    rw [field, Nat.succ_mul] at split
    exact ⟨shift, f.fractions + rank % f.fractions, by omega, by omega, .inr (by omega)⟩

/-- The step from a rank to the next one, and the two magnitudes counted by it. -/
theorem exists_gap (f : Format) (rank : ℕ) : ∃ shift count : ℕ, count < 2 * f.fractions ∧
    (shift = 0 ∨ f.fractions ≤ count) ∧ rank = shift * f.fractions + count ∧
    (f.units rank : ℚ) = count * 2 ^ shift ∧
    (f.units (rank + 1) : ℚ) = (count + 1) * 2 ^ shift := by
  obtain ⟨shift, count, rfl, small, large⟩ := f.exists_steps rank
  have next := @units_steps f shift (count + 1) (large.imp_right (by omega)) (by omega)
  refine ⟨shift, count, small, large, rfl, units_steps large small.le, ?_⟩
  rw [Nat.add_assoc, next]
  push_cast
  rfl

/-- The midpoint behind a rank is a whole number of half steps. -/
theorem exists_half_steps (f : Format) (rank : ℕ) : ∃ shift odd : ℕ, odd < 4 * f.fractions ∧
    2 * f.midpoint rank = odd * 2 ^ shift := by
  obtain ⟨shift, count, small, -, -, here, next⟩ := f.exists_gap rank
  refine ⟨shift, 2 * count + 1, by omega, ?_⟩
  rw [midpoint, here, next]
  push_cast
  ring

/-- The first ranks count units. -/
theorem units_of_few {rank : ℕ} (few : rank ≤ 2 * f.fractions) : f.units rank = rank := by
  have := units_shift (f := f) (.inl rfl) few
  rwa [Nat.zero_mul, Nat.zero_add, twoPow_zero, Nat.mul_one] at this

theorem units_fractions : f.units f.fractions = f.fractions :=
  units_of_few (by omega)

/-- The step behind a normal magnitude is small in proportion. -/
theorem gap_le {rank : ℕ} (normal : f.fractions ≤ rank) :
    f.fractions * ((f.units (rank + 1) : ℚ) - f.units rank) ≤ f.units rank := by
  obtain ⟨shift, count, -, large, rfl, here, next⟩ := f.exists_gap rank
  have enough : (f.fractions : ℚ) ≤ count := by
    have : f.fractions ≤ count := by
      rcases large with rfl | large
      · omega
      · exact large
    exact_mod_cast this
  have step : (0 : ℚ) ≤ 2 ^ shift := by positivity
  rw [here, next]
  linarith [mul_le_mul_of_nonneg_right enough step]

/-- No magnitude is more than the steps in front of it, each as long as the last one, can make
up. -/
theorem le_gap (f : Format) (rank : ℕ) :
    (f.units (rank + 1) : ℚ) ≤ 2 * f.fractions * (f.units (rank + 1) - f.units rank) := by
  obtain ⟨shift, count, small, -, -, here, next⟩ := f.exists_gap rank
  have few : (count + 1 : ℚ) ≤ 2 * f.fractions := by exact_mod_cast small
  have step : (0 : ℚ) ≤ 2 ^ shift := by positivity
  rw [here, next]
  linarith [mul_le_mul_of_nonneg_right few step]

/-- Steps do not get shorter. -/
theorem gap_le_gap (f : Format) (rank : ℕ) :
    (f.units (rank + 1) : ℚ) - f.units rank ≤
      f.units (rank + 1 + 1) - f.units (rank + 1) := by
  obtain ⟨shift, count, small, large, rfl, here, next⟩ := f.exists_gap rank
  have step : (0 : ℚ) ≤ 2 ^ shift := by positivity
  by_cases last : count + 1 = 2 * f.fractions
  · -- the next rank starts the next power of two
    have above := @units_steps f (shift + 1) (f.fractions + 1)
      (.inr (by omega)) (by have := f.fractions_pos; omega)
    have same : shift * f.fractions + count + 1 + 1 =
        (shift + 1) * f.fractions + (f.fractions + 1) := by
      rw [Nat.succ_mul]
      omega
    have count_eq : (count + 1 : ℚ) = 2 * f.fractions := by exact_mod_cast last
    rw [same, above, here, next, pow_succ]
    push_cast
    linarith [mul_le_mul_of_nonneg_right count_eq.le step]
  · have above := @units_steps f shift (count + 2) (large.imp_right (by omega))
      (by omega)
    have same : shift * f.fractions + count + 1 + 1 = shift * f.fractions + (count + 2) := rfl
    rw [same, above, here, next]
    push_cast
    linarith

theorem gap_le_gap_of_le {a b : ℕ} (h : a ≤ b) :
    (f.units (a + 1) : ℚ) - f.units a ≤ f.units (b + 1) - f.units b := by
  induction b, h using Nat.le_induction with
  | base => exact le_rfl
  | succ b _ ih => exact ih.trans (f.gap_le_gap b)

/-- Midpoints are at least as far apart as the steps between their ranks. -/
theorem gap_mul_le (f : Format) (rank places : ℕ) :
    places * ((f.units (rank + 1) : ℚ) - f.units rank) ≤
      f.midpoint (rank + places) - f.midpoint rank := by
  induction places with
  | zero => simp
  | succ places ih =>
    have here := gap_le_gap_of_le (f := f) (Nat.le_add_right rank places)
    have next := f.gap_le_gap (rank + places)
    rw [← Nat.add_assoc]
    unfold midpoint at *
    push_cast
    linarith

/-! ### Rounding -/

/-- The number of a rank. -/
def number (f : Format) (rank : ℕ) : ℚ :=
  f.units rank / 2 ^ f.scale

theorem number_mul (f : Format) (rank : ℕ) : f.number rank * 2 ^ f.scale = f.units rank :=
  div_mul_cancel₀ _ (by positivity)

/-- Few digits, scaled by any power of two, are a magnitude of the format. -/
theorem exists_units_eq {count : ℕ} (small : count ≤ 2 * f.fractions) (shift : ℕ) :
    ∃ rank, f.units rank = count * twoPow shift := by
  induction shift generalizing count with
  | zero => exact ⟨0 * f.fractions + count, units_shift (.inl rfl) small⟩
  | succ shift ih =>
    by_cases full : f.fractions ≤ count
    · exact ⟨_, units_shift (.inr full) small⟩
    · obtain ⟨rank, units⟩ := @ih (2 * count) (by omega)
      refine ⟨rank, ?_⟩
      rw [units, twoPow_succ]
      ring

/-- What is nearer to a rank than half the step in front of it is rounded to the rank. -/
theorem nearest_of_near {t : ℚ} {lower : ℕ}
    (near : 2 * |t - f.units (lower + 1)| < f.units (lower + 1) - f.units lower) :
    f.Nearest t (lower + 1) := by
  have longer := f.gap_le_gap lower
  have ⟨below, above⟩ : f.midpoint lower < t ∧ t < f.midpoint (lower + 1) := by
    have :=
      abs_lt.mp (show |t - f.units (lower + 1)| <
        (f.units (lower + 1) - f.units lower) / 2 by linarith)
    unfold midpoint
    constructor <;> linarith
  refine ⟨above.le, fun tie => absurd tie above.ne, fun other next => ?_,
    fun other next tie => ?_⟩
  · obtain rfl : other = lower := by omega
    exact below.le
  · obtain rfl : other = lower := by omega
    exact absurd tie below.ne

namespace Nearest

variable {s t : ℚ} {rank : ℕ}

/-- A magnitude of the format is not changed by rounding. -/
theorem units_eq (h : f.Nearest t rank) (count shift : ℕ) (small : count ≤ 2 * f.fractions)
    (exact : t = count * 2 ^ shift) : (f.units rank : ℚ) = t := by
  obtain ⟨other, units⟩ := f.exists_units_eq small shift
  have same : (f.units other : ℚ) = t := by rw [units, Nat.cast_mul, cast_twoPow, exact]
  have nearest := nearest_units f other
  rw [same] at nearest
  rw [h.eq nearest, same]

/-- A normal magnitude is changed by no more than half a unit in its last place. -/
theorem relative_error (h : f.Nearest t rank) (normal : (f.fractions : ℚ) ≤ t) :
    |f.units rank - t| * (2 * f.fractions) ≤ t := by
  have positive : (0 : ℚ) < f.fractions := by exact_mod_cast f.fractions_pos
  rcases le_or_gt (f.units rank : ℚ) t with below | above
  · have above_fractions : f.fractions ≤ rank := by
      by_contra small
      have less : (f.units (rank + 1) : ℚ) ≤ f.fractions := by
        rw [← units_fractions]
        exact_mod_cast units_le_units (by omega : rank + 1 ≤ f.fractions)
      have := midpoint_lt_units_succ (f := f) rank
      linarith [h.above]
    have gap := gap_le above_fractions
    have near := h.above
    unfold midpoint at near
    rw [abs_of_nonpos (by linarith)]
    nlinarith
  · -- the magnitude lies behind the rank in front of its own
    have above_fractions : f.fractions < rank := by
      by_contra small
      have : (f.units rank : ℚ) ≤ f.fractions := by
        rw [← units_fractions]
        exact_mod_cast units_le_units (not_lt.mp small)
      linarith
    obtain ⟨lower, rfl⟩ : ∃ lower, rank = lower + 1 := ⟨rank - 1, by omega⟩
    have gap := @gap_le f lower (by omega)
    have near := h.below lower rfl
    have behind := units_lt_midpoint (f := f) lower
    unfold midpoint at near behind
    rw [abs_of_nonneg (by linarith)]
    nlinarith

/-- A magnitude is changed by no more than half a unit in its last place, or half the least
unit of all. -/
theorem error_le (h : f.Nearest t rank) (positive : 0 ≤ t) :
    |f.units rank - t| * (2 * f.fractions) ≤ t + f.fractions := by
  have fractions : (0 : ℚ) < f.fractions := by exact_mod_cast f.fractions_pos
  rcases le_or_gt (f.fractions : ℚ) t with normal | small
  · linarith [h.relative_error normal]
  · have few : rank ≤ f.fractions := by
      by_contra many
      have := h.midpoint_le (not_le.mp many)
      have := units_lt_midpoint (f := f) f.fractions
      rw [units_fractions] at this
      linarith
    have half : |(f.units rank - t : ℚ)| ≤ 1 / 2 := by
      have above := h.above
      rw [midpoint, units_of_few (by omega),
        units_of_few (by have := f.fractions_pos; omega)] at above
      rw [units_of_few (by omega), abs_le]
      push_cast at above
      refine ⟨by linarith, ?_⟩
      cases rank with
      | zero =>
        push_cast
        linarith
      | succ lower =>
        have below := h.below lower rfl
        rw [midpoint, units_of_few (by omega), units_of_few (by omega)] at below
        push_cast at below ⊢
        linarith
    linarith [mul_le_mul_of_nonneg_right half (mul_pos two_pos fractions).le]

/-- A magnitude that is not rounded to zero is at least half a unit. -/
theorem half_le (h : f.Nearest t rank) (some_units : rank ≠ 0) : 1 / 2 ≤ t := by
  have near := h.midpoint_le (Nat.pos_of_ne_zero some_units)
  rw [midpoint, units_zero, units_one] at near
  push_cast at near
  linarith

/-- A number that is rounded to a finite one is below the ceiling of the format. -/
theorem le_ceiling (standard : f.Standard) {x : ℚ} (h : f.Nearest (x * 2 ^ f.scale) rank)
    (finite : rank < f.bound) : x ≤ 2 ^ f.ceiling := by
  have below := mt (h.bound_le_iff standard).mpr (not_le.mpr finite)
  linarith [f.largest_le_ceiling]

theorem number_error (h : f.Nearest (t * 2 ^ f.scale) rank)
    (normal : (f.fractions : ℚ) ≤ t * 2 ^ f.scale) :
    |f.number rank - t| * (2 * f.fractions) ≤ t := by
  have unit : (0 : ℚ) < 2 ^ f.scale := by positivity
  have error := h.relative_error normal
  rw [← f.number_mul, ← sub_mul, abs_mul, abs_of_pos unit, mul_right_comm] at error
  exact le_of_mul_le_mul_right error unit

/-- Magnitudes are at least as far apart as the steps between the ranks that they are rounded
to. -/
theorem gap_mul_le_sub {a b places : ℕ} (hs : f.Nearest s a) (ht : f.Nearest t b)
    (apart : a + places < b) :
    places * ((f.units (a + 1) : ℚ) - f.units a) ≤ t - s := by
  linarith [hs.above, ht.midpoint_le apart, f.gap_mul_le a places]

/-- Of two magnitudes that are rounded apart, one is no nearer to the other than to a
midpoint. -/
theorem exists_midpoint_near {a b : ℕ} (hs : f.Nearest s a) (ht : f.Nearest t b)
    (differ : a ≠ b) :
    ∃ rank, |f.midpoint rank - s| ≤ |t - s| := by
  rcases Nat.lt_or_gt_of_ne differ with less | greater
  · have near := hs.above
    have far := ht.midpoint_le less
    exact ⟨a, by rw [abs_of_nonneg (by linarith), abs_of_nonneg (by linarith)]; linarith⟩
  · have near := ht.above
    have far := hs.midpoint_le greater
    exact ⟨b, by rw [abs_of_nonpos (by linarith), abs_of_nonpos (by linarith)]; linarith⟩

end Nearest

end FixedInit.Format
