/-
The rank that a magnitude is rounded to.

* `nearest_rankOf` : the rank of a quotient is the nearest one, ties to the even rank;
* `Nearest.lt_iff_of_odd`, `Nearest.lt_iff_of_even` : the magnitudes that are rounded beyond a
  rank;
* `Nearest.abs_sub_le`, `Nearest.even_of_tie` : no other rank is nearer, and one that is as
  near leaves an even rank to be chosen.

Design notes: a magnitude is counted in units. A rank is nearest if the magnitude lies between
the midpoints to its two neighbours, at a midpoint only if the rank is even. As midpoints
increase this leaves one rank for every magnitude, beyond the finite ones too. In the rounding
of a quotient both midpoints lie on a grid of half steps, except at a power of two, where the
quotient is known to lie on the near side of the power.
-/
import FixedInit.Binary.Nearest
import Mathlib.Tactic.FieldSimp
import Mathlib.Tactic.Linarith
import Mathlib.Tactic.Positivity
import Mathlib.Tactic.Ring

namespace FixedInit

/-! ### Whole quotients -/

/-- Twice a numerator lies between the odd multiples around twice the quotient, and on one of
them only if the quotient is even. -/
theorem nearestEven_spec (num : ℕ) {den : ℕ} (h : 0 < den) :
    2 * num ≤ (2 * nearestEven num den + 1) * den ∧
    (2 * num = (2 * nearestEven num den + 1) * den → nearestEven num den % 2 = 0) ∧
    2 * nearestEven num den * den ≤ 2 * num + den ∧
    (2 * nearestEven num den * den = 2 * num + den → nearestEven num den % 2 = 0) := by
  have split := Nat.div_add_mod num den
  have small := Nat.mod_lt num h
  unfold nearestEven
  simp only
  generalize num / den = q at split ⊢
  generalize num % den = r at split small ⊢
  have product : den * q = q * den := Nat.mul_comm _ _
  split
  · have up : 2 * (q + 1) * den = 2 * (q * den) + 2 * den := by ring
    have up' : (2 * (q + 1) + 1) * den = 2 * (q * den) + 3 * den := by ring
    rw [up, up']
    omega
  · have down : 2 * q * den = 2 * (q * den) := by ring
    have down' : (2 * q + 1) * den = 2 * (q * den) + den := by ring
    rw [down, down']
    omega

namespace Format

/-- The fields of the format are wide enough for a fraction and for numbers on both sides of
one. -/
structure Standard (f : Format) : Prop where
  fraction : 1 ≤ f.fractionBits
  exponent : 2 ≤ f.exponentBits

variable {f : Format}

/-! ### Units of a rank -/

theorem units_le_units {a b : ℕ} (h : a ≤ b) : f.units a ≤ f.units b := by
  rcases Nat.lt_or_eq_of_le h with h | rfl
  · exact (f.units_lt_units h).le
  · exact le_rfl

theorem units_ne_units {a b : ℕ} (h : a ≠ b) : f.units a ≠ f.units b := by
  rcases Nat.lt_or_gt_of_ne h with h | h
  · exact (f.units_lt_units h).ne
  · exact (f.units_lt_units h).ne'

theorem units_zero : f.units 0 = 0 := by
  rw [units, if_pos f.fractions_pos]

theorem units_one : f.units 1 = 1 := by
  have := f.fractions_pos
  unfold units
  split
  · rfl
  · have one : f.fractions = 1 := by omega
    simp [one]

/-- The units of a rank from the number of digits that are rounded away and the rounded
quotient. The quotient may be the next power of two. -/
theorem units_shift {shift count : ℕ} (large : shift = 0 ∨ f.fractions ≤ count)
    (small : count ≤ 2 * f.fractions) :
    f.units (shift * f.fractions + count) = count * twoPow shift := by
  have hp := f.fractions_pos
  generalize hf : f.fractions = p at *
  -- a rank with `above` behind the exponent field `field`
  have units_at {field above : ℕ} (h : above < p) :
      f.units ((field + 1) * p + above) = (p + above) * twoPow field := by
    have div : ((field + 1) * p + above) / p = field + 1 := by
      rw [Nat.add_comm, Nat.add_mul_div_right _ _ hp, Nat.div_eq_of_lt h, Nat.zero_add]
    have mod : ((field + 1) * p + above) % p = above := by
      rw [Nat.mul_add_mod', Nat.mod_eq_of_lt h]
    have large : ¬ (field + 1) * p + above < p := by
      have : (field + 1) * p = field * p + p := by ring
      omega
    rw [units, hf, if_neg large, div, mod, Nat.add_sub_cancel]
  by_cases below : count < p
  · obtain rfl : shift = 0 := large.resolve_right (by omega)
    rw [units, hf, Nat.zero_mul, Nat.zero_add, if_pos below, twoPow_zero, Nat.mul_one]
  by_cases top : count = 2 * p
  · -- the significand has become the next power of two
    have power : shift * p + count = (shift + 1 + 1) * p + 0 := by
      rw [top]
      ring
    rw [power, units_at hp, top, twoPow_succ]
    ring
  · have field : shift * p + count = (shift + 1) * p + (count - p) := by
      have : (shift + 1) * p = shift * p + p := by ring
      omega
    rw [field, units_at (by omega), show p + (count - p) = count by omega]

/-! ### The nearest rank -/

/-- The magnitude half way between a rank and the next one, in units. -/
def midpoint (f : Format) (rank : ℕ) : ℚ :=
  (f.units rank + f.units (rank + 1)) / 2

/-- A rank is the nearest one to a magnitude, given in units; a tie goes to the even rank. -/
structure Nearest (f : Format) (magnitude : ℚ) (rank : ℕ) : Prop where
  above : magnitude ≤ f.midpoint rank
  above_even : magnitude = f.midpoint rank → rank % 2 = 0
  below : ∀ lower, lower + 1 = rank → f.midpoint lower ≤ magnitude
  below_even : ∀ lower, lower + 1 = rank → f.midpoint lower = magnitude → rank % 2 = 0

theorem midpoint_lt_midpoint {a b : ℕ} (h : a < b) : f.midpoint a < f.midpoint b := by
  have low : (f.units a : ℚ) < f.units b := by exact_mod_cast f.units_lt_units h
  have high : (f.units (a + 1) : ℚ) ≤ f.units (b + 1) := by
    exact_mod_cast units_le_units (by omega : a + 1 ≤ b + 1)
  unfold midpoint
  linarith

theorem midpoint_le_midpoint {a b : ℕ} (h : a ≤ b) : f.midpoint a ≤ f.midpoint b := by
  rcases Nat.lt_or_eq_of_le h with h | rfl
  · exact (midpoint_lt_midpoint h).le
  · exact le_rfl

theorem sq_sub_sub_sq (t a b : ℚ) :
    (t - a) ^ 2 - (t - b) ^ 2 = (b - a) * (2 * t - (a + b)) := by
  ring

namespace Nearest

variable {t : ℚ} {rank : ℕ}

theorem midpoint_le (h : f.Nearest t rank) {lower : ℕ} (less : lower < rank) :
    f.midpoint lower ≤ t := by
  obtain ⟨k, rfl⟩ : ∃ k, rank = k + 1 := ⟨rank - 1, by omega⟩
  exact (midpoint_le_midpoint (by omega)).trans (h.below k rfl)

theorem lt_of_midpoint_lt (h : f.Nearest t rank) {lower : ℕ} (less : f.midpoint lower < t) :
    lower < rank := by
  by_contra not_less
  have : f.midpoint rank ≤ f.midpoint lower := midpoint_le_midpoint (by omega)
  exact absurd (h.above.trans this) (not_le.mpr less)

/-- A magnitude is rounded beyond an odd rank from the midpoint on. -/
theorem lt_iff_of_odd (h : f.Nearest t rank) {lower : ℕ} (odd : lower % 2 = 1) :
    lower < rank ↔ f.midpoint lower ≤ t := by
  refine ⟨h.midpoint_le, fun le => ?_⟩
  rcases le.lt_or_eq with less | tie
  · exact h.lt_of_midpoint_lt less
  by_contra not_less
  -- at the midpoint itself the rank would be the odd one
  have same : lower = rank := by
    by_contra other
    have : f.midpoint rank < f.midpoint lower := midpoint_lt_midpoint (by omega)
    exact absurd (tie ▸ h.above) (not_le.mpr this)
  subst same
  have := h.above_even tie.symm
  omega

/-- A magnitude is rounded beyond an even rank after the midpoint. -/
theorem lt_iff_of_even (h : f.Nearest t rank) {lower : ℕ} (even : lower % 2 = 0) :
    lower < rank ↔ f.midpoint lower < t := by
  refine ⟨fun less => ?_, h.lt_of_midpoint_lt⟩
  rcases (h.midpoint_le less).lt_or_eq with past | tie
  · exact past
  -- at the midpoint itself the rank would be the next, odd one
  have next : lower + 1 = rank := by
    by_contra other
    have : f.midpoint lower < f.midpoint (lower + 1) := midpoint_lt_midpoint (by omega)
    exact absurd (h.midpoint_le (by omega : lower + 1 < rank)) (not_le.mpr (tie ▸ this))
  have := h.below_even lower next tie
  omega

/-- There is one nearest rank. -/
theorem eq {a b : ℕ} (ha : f.Nearest t a) (hb : f.Nearest t b) : a = b := by
  have same (lower : ℕ) : lower < a ↔ lower < b := by
    rcases Nat.mod_two_eq_zero_or_one lower with even | odd
    · rw [ha.lt_iff_of_even even, hb.lt_iff_of_even even]
    · rw [ha.lt_iff_of_odd odd, hb.lt_iff_of_odd odd]
  have := (same a).not
  have := (same b).not
  omega

/-- A smaller rank lies at least as far below the magnitude as the nearest one lies above
it. -/
theorem add_le_of_lt (h : f.Nearest t rank) {other : ℕ} (less : other < rank) :
    f.units other + f.units rank ≤ 2 * t ∧
    (f.units other + f.units rank = 2 * t → rank % 2 = 0) := by
  obtain ⟨lower, rfl⟩ : ∃ lower, rank = lower + 1 := ⟨rank - 1, by omega⟩
  have near := h.below lower rfl
  have even := h.below_even lower rfl
  have far : (f.units other : ℚ) ≤ f.units lower := by
    exact_mod_cast units_le_units (by omega : other ≤ lower)
  unfold midpoint at near even
  exact ⟨by linarith, fun tie => even (by linarith)⟩

/-- A larger rank lies at least as far above the magnitude as the nearest one lies below
it. -/
theorem le_add_of_lt (h : f.Nearest t rank) {other : ℕ} (greater : rank < other) :
    2 * t ≤ f.units rank + f.units other ∧
    (2 * t = f.units rank + f.units other → rank % 2 = 0) := by
  have near := h.above
  have even := h.above_even
  have far : (f.units (rank + 1) : ℚ) ≤ f.units other := by
    exact_mod_cast units_le_units (by omega : rank + 1 ≤ other)
  unfold midpoint at near even
  exact ⟨by linarith, fun tie => even (by linarith)⟩

/-- No other rank is nearer. -/
theorem abs_sub_le (h : f.Nearest t rank) (other : ℕ) :
    |t - f.units rank| ≤ |t - f.units other| := by
  rw [← sq_le_sq, ← sub_nonneg, sq_sub_sub_sq]
  rcases Nat.lt_trichotomy other rank with less | rfl | greater
  · have apart : (f.units other : ℚ) ≤ f.units rank := by
      exact_mod_cast units_le_units less.le
    have sum := (h.add_le_of_lt less).1
    exact mul_nonneg (by linarith) (by linarith)
  · simp
  · have apart : (f.units rank : ℚ) ≤ f.units other := by
      exact_mod_cast units_le_units greater.le
    have sum := (h.le_add_of_lt greater).1
    exact mul_nonneg_of_nonpos_of_nonpos (by linarith) (by linarith)

/-- A rank that is as near as another one is even. -/
theorem even_of_tie (h : f.Nearest t rank) {other : ℕ} (differs : other ≠ rank)
    (tie : |t - f.units other| = |t - f.units rank|) : rank % 2 = 0 := by
  have sum : (f.units other + f.units rank : ℚ) = 2 * t := by
    rw [← sq_eq_sq_iff_abs_eq_abs, ← sub_eq_zero, sq_sub_sub_sq, mul_eq_zero] at tie
    have apart : (f.units rank : ℚ) - f.units other ≠ 0 := by
      rw [sub_ne_zero]
      exact_mod_cast units_ne_units differs.symm
    have := tie.resolve_left apart
    linarith
  rcases Nat.lt_or_gt_of_ne differs with less | greater
  · exact (h.add_le_of_lt less).2 sum
  · exact (h.le_add_of_lt greater).2 (by linarith)

end Nearest

/-! ### Rounding a quotient -/

/-- How many digits of a quotient are rounded away: none if it has few digits, and otherwise
as many as leave a significand between two powers of two. -/
theorem shift_spec (f : Format) (quotient : ℕ) :
    quotient < 2 * f.fractions * twoPow (quotient.log2 - f.fractionBits) ∧
      (quotient.log2 - f.fractionBits = 0 ∨
        f.fractions * twoPow (quotient.log2 - f.fractionBits) ≤ quotient) := by
  have double : 2 * f.fractions = twoPow (f.fractionBits + 1) := (twoPow_succ _).symm
  by_cases zero : quotient = 0
  · subst zero
    have := twoPow_pos (f.fractionBits + 1)
    simp [double, this]
  obtain ⟨low, high⟩ := (log2_eq_iff _ zero).mp rfl
  by_cases few : quotient.log2 ≤ f.fractionBits
  · have none : quotient.log2 - f.fractionBits = 0 := by omega
    rw [none, twoPow_zero, Nat.mul_one, double]
    exact ⟨high.trans_le (twoPow_le_twoPow (by omega)), .inl rfl⟩
  · obtain ⟨shift, many⟩ : ∃ shift, quotient.log2 = f.fractionBits + shift :=
      ⟨quotient.log2 - f.fractionBits, by omega⟩
    rw [many] at low high ⊢
    rw [Nat.add_sub_cancel_left, double, fractions, ← twoPow_add, ← twoPow_add]
    exact ⟨by rwa [Nat.add_right_comm], .inr low⟩

theorem cast_twoPow (n : ℕ) : (twoPow n : ℚ) = 2 ^ n :=
  Nat.cast_pow 2 n

theorem units_steps {shift count : ℕ} (large : shift = 0 ∨ f.fractions ≤ count)
    (small : count ≤ 2 * f.fractions) :
    (f.units (shift * f.fractions + count) : ℚ) = count * 2 ^ shift := by
  rw [units_shift large small, Nat.cast_mul, cast_twoPow]

/-- Between two counts of steps the midpoint is half a step from either. -/
theorem midpoint_steps {shift count : ℕ} (large : shift = 0 ∨ f.fractions ≤ count)
    (small : count < 2 * f.fractions) :
    2 * f.midpoint (shift * f.fractions + count) = (2 * count + 1) * 2 ^ shift := by
  have next : (f.units (shift * f.fractions + (count + 1)) : ℚ) =
      (count + 1 : ℕ) * 2 ^ shift :=
    units_steps (by omega) (by omega)
  rw [midpoint, Nat.add_assoc, next, units_steps large small.le]
  push_cast
  ring

theorem units_lt_midpoint (rank : ℕ) : f.units rank < f.midpoint rank := by
  have : (f.units rank : ℚ) < f.units (rank + 1) := by
    exact_mod_cast f.units_lt_units_succ rank
  unfold midpoint
  linarith

theorem midpoint_lt_units_succ (rank : ℕ) : f.midpoint rank < f.units (rank + 1) := by
  have : (f.units rank : ℚ) < f.units (rank + 1) := by
    exact_mod_cast f.units_lt_units_succ rank
  unfold midpoint
  linarith

/-- A magnitude that is rounded to a count of steps is rounded to the rank of that count, if
the steps are those of its power of two. -/
theorem nearest_of_steps (standard : f.Standard) {t : ℚ} {shift count : ℕ}
    (above : 2 * t ≤ (2 * count + 1) * 2 ^ shift)
    (above_even : 2 * t = (2 * count + 1) * 2 ^ shift → count % 2 = 0)
    (below : 2 * count * 2 ^ shift ≤ 2 * t + 2 ^ shift)
    (below_even : 2 * count * 2 ^ shift = 2 * t + 2 ^ shift → count % 2 = 0)
    (few : t < 2 * f.fractions * 2 ^ shift) (many : shift = 0 ∨ f.fractions * 2 ^ shift ≤ t) :
    f.Nearest t (shift * f.fractions + count) := by
  have step : (0 : ℚ) < 2 ^ shift := by positivity
  have some_fraction := f.fractions_pos
  have count_le : count ≤ 2 * f.fractions := by
    have : (2 * count : ℚ) * 2 ^ shift < (4 * f.fractions + 1) * 2 ^ shift := by linarith
    have := lt_of_mul_lt_mul_right this step.le
    have : 2 * count < 4 * f.fractions + 1 := by exact_mod_cast this
    omega
  have le_count : shift = 0 ∨ f.fractions ≤ count := by
    refine many.imp_right fun many => ?_
    have : (2 * f.fractions : ℚ) * 2 ^ shift ≤ (2 * count + 1) * 2 ^ shift := by linarith
    have := le_of_mul_le_mul_right this step
    have : 2 * f.fractions ≤ 2 * count + 1 := by exact_mod_cast this
    omega
  have even (h : count % 2 = 0) : (shift * f.fractions + count) % 2 = 0 := by
    obtain ⟨bits, hbits⟩ : ∃ bits, f.fractionBits = bits + 1 :=
      ⟨f.fractionBits - 1, by have := standard.fraction; omega⟩
    have double : shift * f.fractions = 2 * (shift * twoPow bits) := by
      rw [fractions, hbits, twoPow_succ]
      ring
    omega
  have upper : t < f.midpoint (shift * f.fractions + count) ∨
      2 * f.midpoint (shift * f.fractions + count) = (2 * count + 1) * 2 ^ shift := by
    rcases count_le.lt_or_eq with small | top
    · exact .inr (midpoint_steps le_count small)
    · -- a quotient does not reach the next power of two
      refine .inl (lt_trans ?_ (units_lt_midpoint _))
      rw [units_steps le_count count_le, top]
      push_cast
      exact few
  have lower {l : ℕ} (next : l + 1 = shift * f.fractions + count) :
      f.midpoint l < t ∨ 2 * f.midpoint l = 2 * count * 2 ^ shift - 2 ^ shift := by
    by_cases bottom : shift = 0 ∨ f.fractions < count
    · obtain ⟨fewer, rfl⟩ : ∃ fewer, count = fewer + 1 := ⟨count - 1, by
        rcases bottom with rfl | bottom <;> omega⟩
      refine .inr ?_
      rw [show l = shift * f.fractions + fewer by omega, midpoint_steps (by omega) (by omega)]
      push_cast
      ring
    · -- a quotient with more digits is no smaller than its power of two
      rw [not_or, not_lt] at bottom
      have power := many.resolve_left bottom.1
      obtain rfl : count = f.fractions := by
        have := le_count.resolve_left bottom.1
        omega
      refine .inl (lt_of_lt_of_le (midpoint_lt_units_succ l) ?_)
      rw [next, units_steps le_count count_le]
      exact power
  refine ⟨?_, fun tie => even ?_, fun l next => ?_, fun l next tie => even ?_⟩
  · rcases upper with far | grid <;> linarith
  · rcases upper with far | grid
    · exact absurd tie far.ne
    · exact above_even (by linarith)
  · rcases lower next with far | grid <;> linarith
  · rcases lower next with far | grid
    · exact absurd tie far.ne
    · exact below_even (by linarith)

/-- The rank of a quotient is the nearest one to it. -/
theorem nearest_rankOf (standard : f.Standard) (num : ℕ) {den : ℕ} (h : 0 < den) :
    f.Nearest (num / den * 2 ^ f.scale) (f.rankOf num den) := by
  have den_pos : (0 : ℚ) < den := by exact_mod_cast h
  have magnitude : (num / den * 2 ^ f.scale : ℚ) = (num * twoPow f.scale : ℕ) / den := by
    push_cast [cast_twoPow]
    ring
  rw [magnitude, rankOf]
  generalize num * twoPow f.scale = units
  obtain ⟨few, many⟩ := f.shift_spec (units / den)
  generalize (units / den).log2 - f.fractionBits = shift at few many ⊢
  have step : 0 < den * twoPow shift := Nat.mul_pos h (twoPow_pos _)
  obtain ⟨above, above_even, below, below_even⟩ := nearestEven_spec units step
  generalize nearestEven units (den * twoPow shift) = count at *
  -- everything is compared after multiplication by the denominator
  rw [Nat.div_lt_iff_lt_mul h] at few
  rw [Nat.le_div_iff_mul_le h] at many
  obtain ⟨t, ht⟩ : ∃ t : ℚ, (units : ℚ) = t * den := ⟨units / den, by field_simp⟩
  have scaled {a b : ℕ} (x y : ℚ) (ha : (a : ℚ) = x * den) (hb : (b : ℚ) = y * den) :
      (a ≤ b ↔ x ≤ y) ∧ (a = b ↔ x = y) ∧ (a < b ↔ x < y) := by
    rw [← Nat.cast_le (α := ℚ), ← Nat.cast_inj (R := ℚ), ← Nat.cast_lt (α := ℚ), ha, hb]
    exact ⟨mul_le_mul_iff_left₀ den_pos, mul_left_inj' den_pos.ne',
      mul_lt_mul_iff_left₀ den_pos⟩
  have half := scaled (a := 2 * units) (b := (2 * count + 1) * (den * twoPow shift)) (2 * t)
    ((2 * count + 1) * 2 ^ shift) (by push_cast [ht]; ring) (by push_cast [cast_twoPow]; ring)
  have half' :=
    scaled (a := 2 * count * (den * twoPow shift)) (b := 2 * units + den * twoPow shift)
      (2 * count * 2 ^ shift) (2 * t + 2 ^ shift) (by push_cast [cast_twoPow]; ring)
      (by push_cast [ht, cast_twoPow]; ring)
  have top := scaled (a := units) (b := 2 * f.fractions * twoPow shift * den) t
    (2 * f.fractions * 2 ^ shift) ht (by push_cast [cast_twoPow]; ring)
  have bottom := scaled (a := f.fractions * twoPow shift * den) (b := units)
    (f.fractions * 2 ^ shift) t (by push_cast [cast_twoPow]; ring) ht
  rw [ht, mul_div_cancel_right₀ _ den_pos.ne']
  exact nearest_of_steps standard (half.1.mp above) (fun tie => above_even (half.2.1.mpr tie))
    (half'.1.mp below) (fun tie => below_even (half'.2.1.mpr tie)) (top.2.2.mp few)
    (many.imp_right bottom.1.mp)

end Format

end FixedInit
