/-
Bit patterns of binary numbers, and what it means that one is the correctly rounded value of a
rational number.

* `valueOf_eq` : the value of a pattern from the units of its rank;
* `Nearest.bound_le_iff`, `Nearest.eq_zero_iff` : which magnitudes are rounded to infinity and
  which to zero;
* `roundsTo_ofRank` : the pattern of the nearest rank is correctly rounded.

Design notes: the fields of a pattern and their value are those of the interchange formats,
without ranks and units. A pattern is the correctly rounded value of a number if no finite
pattern is nearer, ties go to the even significand, and the largest magnitudes go to infinity.
Zeros and infinities have the sign that the number is written with.
-/
import FixedInit.Proofs.Rounding
import Mathlib.Algebra.Order.Field.Power

namespace FixedInit

namespace Format

/-! ### Fields of a bit pattern -/

/-- The bias of an exponent field. -/
def bias (f : Format) : ℤ := 2 ^ (f.exponentBits - 1) - 1

/-- Whether the sign bit of a pattern is set. -/
def signBit (f : Format) (bits : ℕ) : Bool :=
  2 ^ (f.fractionBits + f.exponentBits) ≤ bits

/-- The exponent field of a pattern. -/
def exponentField (f : Format) (bits : ℕ) : ℕ :=
  bits / 2 ^ f.fractionBits % 2 ^ f.exponentBits

/-- The fraction field of a pattern. -/
def fractionField (f : Format) (bits : ℕ) : ℕ :=
  bits % 2 ^ f.fractionBits

/-- A pattern of a finite number. -/
structure IsFinite (f : Format) (bits : ℕ) : Prop where
  width : bits < 2 ^ f.width
  exponent : f.exponentField bits ≠ 2 ^ f.exponentBits - 1

/-- A pattern of an infinity. -/
structure IsInfinite (f : Format) (bits : ℕ) : Prop where
  width : bits < 2 ^ f.width
  exponent : f.exponentField bits = 2 ^ f.exponentBits - 1
  fraction : f.fractionField bits = 0

/-- The significand of a finite pattern as a whole number. Without an exponent the number is
subnormal. -/
def significand (f : Format) (bits : ℕ) : ℕ :=
  if f.exponentField bits = 0 then f.fractionField bits
    else 2 ^ f.fractionBits + f.fractionField bits

/-- The value of a finite pattern. -/
def valueOf (f : Format) (bits : ℕ) : ℚ :=
  (if f.signBit bits then -1 else 1) * f.significand bits *
    2 ^ (max 1 (f.exponentField bits : ℤ) - f.bias - f.fractionBits)

/-- A unit in the last place of the largest finite numbers. -/
def lastPlace (f : Format) : ℚ := 2 ^ (f.bias - f.fractionBits)

/-- The largest finite number. -/
def largest (f : Format) : ℚ := (2 ^ (f.fractionBits + 1) - 1) * f.lastPlace

/-- The smallest number above zero. -/
def smallest (f : Format) : ℚ := 2 ^ (1 - f.bias - f.fractionBits)

/-- A pattern is the correctly rounded value of a number that is written with a sign. -/
structure RoundsTo (f : Format) (q : ℚ) (negative : Bool) (bits : ℕ) : Prop where
  number : f.IsFinite bits ∨ f.IsInfinite bits
  sign : f.signBit bits = negative
  infinite_iff : f.IsInfinite bits ↔ f.largest + f.lastPlace / 2 ≤ |q|
  zero_iff : f.IsFinite bits ∧ f.valueOf bits = 0 ↔ |q| ≤ f.smallest / 2
  nearest : f.IsFinite bits → ∀ other, f.IsFinite other →
    |q - f.valueOf bits| ≤ |q - f.valueOf other|
  ties_even : f.IsFinite bits → ∀ other, f.IsFinite other → f.valueOf other ≠ f.valueOf bits →
    |q - f.valueOf other| = |q - f.valueOf bits| → f.significand bits % 2 = 0

variable {f : Format}

/-! ### Patterns and ranks -/

/-- The rank that a pattern has without its sign. -/
def rankField (f : Format) (bits : ℕ) : ℕ :=
  bits % 2 ^ (f.fractionBits + f.exponentBits)

theorem exponentField_eq (bits : ℕ) :
    f.exponentField bits = f.rankField bits / f.fractions := by
  show bits / 2 ^ f.fractionBits % 2 ^ f.exponentBits =
    bits % 2 ^ (f.fractionBits + f.exponentBits) / 2 ^ _
  rw [Nat.pow_add, Nat.mod_mul_right_div_self]

theorem fractionField_eq (bits : ℕ) :
    f.fractionField bits = f.rankField bits % f.fractions := by
  show bits % 2 ^ f.fractionBits = bits % 2 ^ (f.fractionBits + f.exponentBits) % 2 ^ _
  rw [Nat.pow_add, Nat.mod_mul_right_mod]

theorem bound_eq (f : Format) : f.bound = (2 ^ f.exponentBits - 1) * f.fractions := rfl

theorem exponentField_lt (bits : ℕ) : f.exponentField bits < 2 ^ f.exponentBits :=
  Nat.mod_lt _ (Nat.two_pow_pos _)

theorem isFinite_iff {bits : ℕ} :
    f.IsFinite bits ↔ bits < 2 ^ f.width ∧ f.rankField bits < f.bound := by
  have field_lt := f.exponentField_lt bits
  have below : f.rankField bits < f.bound ↔
        f.exponentField bits ≠ 2 ^ f.exponentBits - 1 := by
    rw [bound_eq, ← Nat.div_lt_iff_lt_mul f.fractions_pos, ← exponentField_eq]
    omega
  rw [below]
  exact ⟨fun h => ⟨h.width, h.exponent⟩, fun h => ⟨h.1, h.2⟩⟩

theorem isInfinite_iff {bits : ℕ} :
    f.IsInfinite bits ↔ bits < 2 ^ f.width ∧ f.rankField bits = f.bound := by
  have split := Nat.div_add_mod (f.rankField bits) f.fractions
  rw [← exponentField_eq, ← fractionField_eq] at split
  constructor
  · rintro ⟨width, exponent, fraction⟩
    refine ⟨width, ?_⟩
    rw [← split, exponent, fraction, Nat.add_zero, Nat.mul_comm]
    rfl
  · rintro ⟨width, top⟩
    refine ⟨width, ?_, ?_⟩
    · rw [exponentField_eq, top, bound_eq, Nat.mul_div_cancel _ f.fractions_pos]
    · rw [fractionField_eq, top, bound_eq, Nat.mul_mod_left]

/-- A significand is even exactly if the rank is. -/
theorem significand_mod_two (standard : f.Standard) (bits : ℕ) :
    f.significand bits % 2 = f.rankField bits % 2 := by
  obtain ⟨k, hk⟩ : ∃ k, f.fractionBits = k + 1 :=
    ⟨f.fractionBits - 1, by have := standard.fraction; omega⟩
  have split := Nat.div_add_mod (f.rankField bits) f.fractions
  have double : f.fractions * (f.rankField bits / f.fractions) =
      2 * (twoPow k * (f.rankField bits / f.fractions)) := by
    rw [fractions, hk, twoPow_succ, Nat.mul_assoc]
  have leading : 2 ^ f.fractionBits = 2 * twoPow k := by rw [hk, ← twoPow_succ]; rfl
  rw [double, ← fractionField_eq] at split
  rw [significand, leading]
  split
  · omega
  · omega

/-! ### Values -/

theorem scale_eq (standard : f.Standard) : (f.scale : ℤ) = f.bias + f.fractionBits - 1 := by
  have wide := standard.exponent
  have two_le : 2 ^ 1 ≤ 2 ^ (f.exponentBits - 1) :=
    Nat.pow_le_pow_right (by decide) (by omega)
  have scale : f.scale = 2 ^ (f.exponentBits - 1) - 2 + f.fractionBits := rfl
  have cast : ((2 ^ (f.exponentBits - 1) : ℕ) : ℤ) = 2 ^ (f.exponentBits - 1) :=
    Nat.cast_pow 2 _
  rw [bias, ← cast, scale]
  omega

/-- The magnitude of a rank from its significand, in units. -/
theorem units_rankField (bits : ℕ) :
    f.units (f.rankField bits) = f.significand bits * 2 ^ (f.exponentField bits - 1) := by
  rw [units, significand, exponentField_eq, fractionField_eq]
  by_cases subnormal : f.rankField bits < f.fractions
  · rw [if_pos subnormal, Nat.div_eq_of_lt subnormal, if_pos rfl, Nat.mod_eq_of_lt subnormal]
    simp
  · have normal : f.rankField bits / f.fractions ≠ 0 := by
      rw [Nat.div_ne_zero_iff]
      exact ⟨f.fractions_pos.ne', not_lt.mp subnormal⟩
    rw [if_neg subnormal, if_neg normal]
    rfl

/-- The value of a pattern is that of its rank, with its sign. -/
theorem valueOf_eq (standard : f.Standard) (bits : ℕ) :
    f.valueOf bits =
      (if f.signBit bits then -1 else 1) * (f.units (f.rankField bits) / 2 ^ f.scale) := by
  have scale := scale_eq standard
  have exponent : max 1 (f.exponentField bits : ℤ) - f.bias - f.fractionBits =
      (f.exponentField bits - 1 : ℕ) - (f.scale : ℤ) := by omega
  rw [valueOf, exponent, zpow_sub₀ two_ne_zero, zpow_natCast, zpow_natCast, units_rankField]
  push_cast
  ring

theorem abs_valueOf (standard : f.Standard) (bits : ℕ) :
    |f.valueOf bits| = f.units (f.rankField bits) / 2 ^ f.scale := by
  have positive : (0 : ℚ) ≤ f.units (f.rankField bits) / 2 ^ f.scale := by positivity
  rw [valueOf_eq standard, abs_mul, abs_of_nonneg positive]
  split <;> simp

theorem smallest_eq (standard : f.Standard) : f.smallest = 1 / 2 ^ f.scale := by
  have scale := scale_eq standard
  rw [smallest, show 1 - f.bias - (f.fractionBits : ℤ) = -(f.scale : ℤ) by omega, zpow_neg,
    zpow_natCast, one_div]

theorem lastPlace_eq (standard : f.Standard) :
    f.lastPlace * 2 ^ f.scale = 2 ^ (2 ^ f.exponentBits - 3) := by
  have wide := standard.exponent
  have scale := scale_eq standard
  obtain ⟨e, he⟩ : ∃ e, f.exponentBits = e + 1 := ⟨f.exponentBits - 1, by omega⟩
  have two_le : 2 ^ 1 ≤ 2 ^ e := Nat.pow_le_pow_right (by decide) (by omega)
  have double : 2 ^ f.exponentBits = 2 * 2 ^ e := by rw [he, Nat.pow_succ']
  have bias : f.bias = ((2 ^ e : ℕ) : ℤ) - 1 := by
    rw [Format.bias, he, Nat.add_sub_cancel, Nat.cast_pow]; rfl
  have exponent : f.bias - f.fractionBits + (f.scale : ℤ) = (2 ^ f.exponentBits - 3 : ℕ) := by
    omega
  rw [lastPlace, ← zpow_natCast, ← zpow_add₀ two_ne_zero, exponent, zpow_natCast]

/-- Half way from the largest finite number to the next power of two, in units. -/
theorem midpoint_largest (standard : f.Standard) :
    f.midpoint (f.bound - 1) = (f.largest + f.lastPlace / 2) * 2 ^ f.scale := by
  have wide := standard.exponent
  have some_fraction := f.fractions_pos
  have four_le : 2 ^ 2 ≤ 2 ^ f.exponentBits := Nat.pow_le_pow_right (by decide) (by omega)
  have top : f.bound - 1 =
      (2 ^ f.exponentBits - 3) * f.fractions + (2 * f.fractions - 1) := by
    obtain ⟨k, hk⟩ : ∃ k, 2 ^ f.exponentBits = k + 3 := ⟨2 ^ f.exponentBits - 3, by omega⟩
    rw [bound_eq, hk, Nat.add_sub_cancel, show k + 3 - 1 = k + 2 from rfl, Nat.add_mul]
    omega
  have middle :
      2 * f.midpoint ((2 ^ f.exponentBits - 3) * f.fractions + (2 * f.fractions - 1)) =
      (2 * (2 * f.fractions - 1 : ℕ) + 1) * 2 ^ (2 ^ f.exponentBits - 3) :=
    midpoint_steps (.inr (by omega)) (by omega)
  rw [← top, ← lastPlace_eq standard, Nat.cast_sub (by omega)] at middle
  have fractions : (f.fractions : ℚ) = 2 ^ f.fractionBits := cast_twoPow _
  push_cast [fractions] at middle
  rw [largest, pow_succ]
  linarith

theorem midpoint_zero : f.midpoint 0 = 1 / 2 := by
  rw [midpoint, units_zero, units_one]
  norm_num

theorem bound_even (standard : f.Standard) : f.bound % 2 = 0 := by
  obtain ⟨k, hk⟩ : ∃ k, f.fractionBits = k + 1 :=
    ⟨f.fractionBits - 1, by have := standard.fraction; omega⟩
  rw [bound_eq, fractions, hk, twoPow_succ, Nat.mul_left_comm, Nat.mul_mod_right]

theorem bound_pos (standard : f.Standard) : 0 < f.bound := by
  have four_le : 2 ^ 2 ≤ 2 ^ f.exponentBits :=
    Nat.pow_le_pow_right (by decide) standard.exponent
  rw [bound_eq]
  exact Nat.mul_pos (by omega) f.fractions_pos

namespace Nearest

variable {magnitude : ℚ} {rank : ℕ}

/-- The magnitudes that are rounded beyond the finite numbers. -/
theorem bound_le_iff (standard : f.Standard) (h : f.Nearest (magnitude * 2 ^ f.scale) rank) :
    f.bound ≤ rank ↔ f.largest + f.lastPlace / 2 ≤ magnitude := by
  have even := bound_even standard
  have pos := bound_pos standard
  have odd : (f.bound - 1) % 2 = 1 := by omega
  have beyond := h.lt_iff_of_odd odd
  rw [midpoint_largest standard, mul_le_mul_iff_left₀ (by positivity)] at beyond
  rw [← beyond]
  omega

/-- The magnitudes that are rounded to zero. -/
theorem eq_zero_iff (standard : f.Standard) (h : f.Nearest (magnitude * 2 ^ f.scale) rank) :
    rank = 0 ↔ magnitude ≤ f.smallest / 2 := by
  have scale : (0 : ℚ) < 2 ^ f.scale := by positivity
  have some_units : 0 < rank ↔ f.midpoint 0 < magnitude * 2 ^ f.scale := h.lt_iff_of_even rfl
  rw [midpoint_zero] at some_units
  rw [smallest_eq standard, div_div, mul_comm, ← div_div, le_div_iff₀ scale,
    ← not_lt, ← some_units]
  omega

end Nearest

theorem abs_sub_units (standard : f.Standard) (q : ℚ) (bits : ℕ) :
    |(|q| * 2 ^ f.scale) - f.units (f.rankField bits)| =
      |(|q| - |f.valueOf bits|)| * 2 ^ f.scale := by
  have scale : (0 : ℚ) < 2 ^ f.scale := by positivity
  have factor : |q| * 2 ^ f.scale - f.units (f.rankField bits) =
      (|q| - |f.valueOf bits|) * 2 ^ f.scale := by
    rw [abs_valueOf standard, sub_mul, div_mul_cancel₀ _ scale.ne']
  rw [factor, abs_mul, abs_of_pos scale]

/-- A pattern is no nearer to a number than their magnitudes are to each other. -/
theorem abs_sub_units_le (standard : f.Standard) (q : ℚ) (bits : ℕ) :
    |(|q| * 2 ^ f.scale) - f.units (f.rankField bits)| ≤
      |q - f.valueOf bits| * 2 ^ f.scale := by
  rw [abs_sub_units standard]
  exact mul_le_mul_of_nonneg_right (abs_abs_sub_abs_le_abs_sub _ _) (by positivity)

/-- A pattern of the sign of a number is as near to it as their magnitudes are to each
other. -/
theorem abs_sub_units_eq (standard : f.Standard) {q : ℚ} {bits : ℕ}
    (sign : q = (if f.signBit bits then -1 else 1) * |q|) :
    |(|q| * 2 ^ f.scale) - f.units (f.rankField bits)| =
      |q - f.valueOf bits| * 2 ^ f.scale := by
  have value : f.valueOf bits = (if f.signBit bits then -1 else 1) * |f.valueOf bits| := by
    rw [abs_valueOf standard]
    exact valueOf_eq standard bits
  rw [abs_sub_units standard]
  congr 1
  conv_rhs => rw [sign, value, ← mul_sub, abs_mul]
  split <;> simp

theorem valueOf_eq_zero_iff (standard : f.Standard) (bits : ℕ) :
    f.valueOf bits = 0 ↔ f.rankField bits = 0 := by
  have scale : (2 : ℚ) ^ f.scale ≠ 0 := by positivity
  rw [← abs_eq_zero, abs_valueOf standard, div_eq_zero_iff, or_iff_left scale,
    Nat.cast_eq_zero]
  constructor
  · intro none
    by_contra some_units
    exact units_ne_units some_units (none.trans units_zero.symm)
  · intro none
    rw [none, units_zero]

end Format

/-! ### Correct rounding -/

namespace Binary

variable {f : Format}

/-- The number of a rank; beyond the finite ones it is infinite. -/
def ofRank (f : Format) (negative : Bool) (rank : ℕ) : Binary f :=
  if h : rank < f.bound then finite negative ⟨rank, h⟩ else infinite negative

/-- A magnitude below the sign bit with a sign in front of it. -/
theorem fields_of_sign (negative : Bool) {magnitude : ℕ}
    (h : magnitude < 2 ^ (f.fractionBits + f.exponentBits)) :
    let bits := (if negative then 2 ^ (f.fractionBits + f.exponentBits) else 0) + magnitude
    bits < 2 ^ f.width ∧ f.rankField bits = magnitude ∧ f.signBit bits = negative := by
  have double : 2 ^ f.width = 2 * 2 ^ (f.fractionBits + f.exponentBits) := Nat.pow_succ'
  rw [double]
  unfold Format.rankField Format.signBit
  generalize 2 ^ (f.fractionBits + f.exponentBits) = half at h ⊢
  cases negative with
  | true =>
    refine ⟨by simp; omega, ?_, by simp⟩
    simp [Nat.mod_eq_of_lt h]
  | false =>
    refine ⟨by simp; omega, ?_, by simpa using h⟩
    simp [Nat.mod_eq_of_lt h]

theorem bound_lt_signBit (f : Format) : f.bound < 2 ^ (f.fractionBits + f.exponentBits) :=
  bound_lt_half f

theorem fields_finite (negative : Bool) (rank : Fin f.bound) :
    f.IsFinite (finite negative rank : Binary f).toBits ∧
      f.rankField (finite negative rank : Binary f).toBits = rank ∧
      f.signBit (finite negative rank : Binary f).toBits = negative := by
  obtain ⟨width, field, sign⟩ :=
    fields_of_sign negative (rank.isLt.trans (bound_lt_signBit f))
  exact ⟨Format.isFinite_iff.mpr ⟨width, field.symm ▸ rank.isLt⟩, field, sign⟩

theorem fields_infinite (negative : Bool) :
    f.IsInfinite (infinite negative : Binary f).toBits ∧
      f.signBit (infinite negative : Binary f).toBits = negative := by
  obtain ⟨width, field, sign⟩ := fields_of_sign negative (bound_lt_signBit f)
  exact ⟨Format.isInfinite_iff.mpr ⟨width, field⟩, sign⟩

/-- The pattern of a rank is finite below the bound, and infinite from there. -/
theorem fields_ofRank (f : Format) (negative : Bool) (rank : ℕ) :
    f.signBit (ofRank f negative rank).toBits = negative ∧
      (rank < f.bound ∧ f.IsFinite (ofRank f negative rank).toBits ∧
          f.rankField (ofRank f negative rank).toBits = rank ∨
        f.bound ≤ rank ∧ f.IsInfinite (ofRank f negative rank).toBits) := by
  unfold ofRank
  split
  · rename_i below
    obtain ⟨finite, field, sign⟩ := fields_finite negative ⟨rank, below⟩
    exact ⟨sign, .inl ⟨below, finite, field⟩⟩
  · rename_i beyond
    obtain ⟨infinite, sign⟩ := fields_infinite (f := f) negative
    exact ⟨sign, .inr ⟨not_lt.mp beyond, infinite⟩⟩

theorem not_isInfinite_of_isFinite {bits : ℕ} (h : f.IsFinite bits) : ¬ f.IsInfinite bits :=
  fun infinite => h.exponent infinite.exponent

/-- The pattern of the nearest rank is the correctly rounded value of a number. -/
theorem roundsTo_ofRank (standard : f.Standard) {q : ℚ} {negative : Bool} {rank : ℕ}
    (sign : q = (if negative then -1 else 1) * |q|)
    (nearest : f.Nearest (|q| * 2 ^ f.scale) rank) :
    f.RoundsTo q negative (ofRank f negative rank).toBits := by
  obtain ⟨sign_bit, number⟩ := fields_ofRank f negative rank
  have beyond := nearest.bound_le_iff standard
  have zero := nearest.eq_zero_iff standard
  generalize (ofRank f negative rank).toBits = bits at sign_bit number ⊢
  have scale : (0 : ℚ) < 2 ^ f.scale := by positivity
  subst sign_bit
  refine ⟨number.imp (·.2.1) (·.2), rfl, ?_, ?_, fun finite other _ => ?_,
    fun finite other _ differs tie => ?_⟩
  · rw [← beyond]
    rcases number with ⟨below, finite, -⟩ | ⟨beyond, infinite⟩
    · exact iff_of_false (not_isInfinite_of_isFinite finite) (not_le.mpr below)
    · exact iff_of_true infinite beyond
  · rw [← zero, Format.valueOf_eq_zero_iff standard]
    rcases number with ⟨-, finite, field⟩ | ⟨beyond, infinite⟩
    · rw [field]
      exact and_iff_right finite
    · have := Format.bound_pos standard
      exact iff_of_false (fun h => not_isInfinite_of_isFinite h.1 infinite) (by omega)
  · obtain ⟨-, -, field⟩ :=
      number.resolve_right fun h => not_isInfinite_of_isFinite finite h.2
    refine le_of_mul_le_mul_right ?_ scale
    rw [← Format.abs_sub_units_eq standard sign, field]
    exact (nearest.abs_sub_le _).trans (Format.abs_sub_units_le standard q other)
  · obtain ⟨-, -, field⟩ :=
      number.resolve_right fun h => not_isInfinite_of_isFinite finite h.2
    rw [Format.significand_mod_two standard, field]
    by_cases same : f.rankField other = rank
    · -- the other pattern has the other sign, and only zero is as near to both
      have opposite : f.valueOf other = -f.valueOf bits := by
        refine (abs_eq_abs.mp ?_).resolve_left differs
        rw [Format.abs_valueOf standard, Format.abs_valueOf standard, same, field]
      rw [← sq_eq_sq_iff_abs_eq_abs, ← sub_eq_zero, Format.sq_sub_sub_sq, mul_eq_zero,
        opposite, neg_add_cancel, sub_zero] at tie
      have zero_q : q = 0 := by
        have apart : f.valueOf bits - -f.valueOf bits ≠ 0 := by
          rw [← opposite, sub_ne_zero]
          exact differs.symm
        linarith [tie.resolve_left apart]
      have small : |q| ≤ f.smallest / 2 := by
        rw [zero_q, abs_zero, Format.smallest_eq standard]
        positivity
      rw [zero.mpr small]
    · refine nearest.even_of_tie same (le_antisymm ?_ (nearest.abs_sub_le _))
      refine (Format.abs_sub_units_le standard q other).trans ?_
      rw [tie, ← Format.abs_sub_units_eq standard sign, field]

end Binary

end FixedInit
