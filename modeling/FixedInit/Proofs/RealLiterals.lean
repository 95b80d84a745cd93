/-
Decimal literals are correctly rounded in the format of their field.

* `ofDecimal_eq_ofRatio` : the shortcuts for huge and tiny exponents change no result;
* `roundsTo_ofDecimal` : the number that a decimal is read as is its correctly rounded value,
  in any format;
* `decimal_literals` : so are the literals of fields of either floating point type.

Design notes: the number is rounded once, from the decimal itself to the format of the field.
-/
import FixedInit.Proofs.NumeralText
import FixedInit.Proofs.Patterns
import FixedInit.Proofs.RealText

namespace FixedInit

/-! ### Decimals -/

namespace Decimal

theorem abs_value (d : Decimal) : |d.value| = d.significand * 10 ^ d.exponent := by
  have positive : (0 : ℚ) ≤ d.significand * 10 ^ d.exponent := by positivity
  rw [value, mul_assoc, abs_mul, abs_of_nonneg positive]
  split <;> simp

theorem value_eq_sign (d : Decimal) :
    d.value = (if d.negative then -1 else 1) * |d.value| := by
  rw [abs_value, value, mul_assoc]

/-- The quotient of natural numbers that a decimal is. -/
theorem ratio_eq (d : Decimal) :
    ((d.significand * tenPow d.exponent.toNat : ℕ) : ℚ) / (tenPow (-d.exponent).toNat : ℕ) =
      |d.value| := by
  have power (n : ℕ) : (tenPow n : ℚ) = 10 ^ n := Nat.cast_pow 10 n
  have exponent : d.exponent = (d.exponent.toNat : ℤ) - ((-d.exponent).toNat : ℤ) := by omega
  rw [abs_value]
  conv_rhs => rw [exponent, zpow_sub₀ (by norm_num), zpow_natCast, zpow_natCast]
  push_cast [power]
  ring

theorem le_abs_value_of_huge {d : Decimal} {bits : ℕ} (some_digit : d.significand ≠ 0)
    (huge : (bits : ℤ) ≤ d.exponent) : 2 ^ bits ≤ |d.value| := by
  have one_le : (1 : ℚ) ≤ d.significand := by
    exact_mod_cast Nat.one_le_iff_ne_zero.mpr some_digit
  calc (2 : ℚ) ^ bits ≤ 10 ^ bits := pow_le_pow_left₀ (by norm_num) (by norm_num) bits
    _ = 10 ^ (bits : ℤ) := (zpow_natCast 10 bits).symm
    _ ≤ 10 ^ d.exponent := zpow_le_zpow_right₀ (by norm_num) huge
    _ ≤ d.significand * 10 ^ d.exponent := le_mul_of_one_le_left (by positivity) one_le
    _ = |d.value| := d.abs_value.symm

/-- Ten is more than two to the third. -/
theorem abs_value_le_of_tiny {d : Decimal} {bits : ℕ}
    (tiny : (d.significand.log2 + 1 + bits : ℤ) + 3 * d.exponent ≤ 0) :
    |d.value| ≤ 1 / 2 ^ bits := by
  have significand : (d.significand : ℚ) ≤ 2 ^ (d.significand.log2 + 1) := by
    exact_mod_cast Nat.lt_log2_self.le
  have power : (10 : ℚ) ^ d.exponent ≤ 2 ^ (3 * d.exponent) := by
    obtain ⟨n, hn⟩ : ∃ n : ℕ, d.exponent = -n := ⟨(-d.exponent).toNat, by omega⟩
    rw [hn, zpow_mul, zpow_neg, zpow_neg, zpow_natCast, zpow_natCast]
    exact inv_anti₀ (by positivity) (pow_le_pow_left₀ (by norm_num) (by norm_num) n)
  calc |d.value| = d.significand * 10 ^ d.exponent := d.abs_value
    _ ≤ 2 ^ (d.significand.log2 + 1) * 2 ^ (3 * d.exponent) :=
        mul_le_mul significand power (by positivity) (by positivity)
    _ = 2 ^ ((d.significand.log2 + 1 : ℕ) + 3 * d.exponent) := by
        rw [zpow_add₀ two_ne_zero, zpow_natCast]
    _ ≤ 2 ^ (-(bits : ℤ)) := zpow_le_zpow_right₀ (by norm_num) (by push_cast; omega)
    _ = 1 / 2 ^ bits := by rw [zpow_neg, zpow_natCast, one_div]

end Decimal

namespace Format

variable {f : Format}

/-- The ceiling of a format is rounded to infinity. -/
theorem largest_le_ceiling (f : Format) : f.largest + f.lastPlace / 2 ≤ 2 ^ f.ceiling := by
  have ceiling : (f.ceiling : ℤ) = f.bias - f.fractionBits + (f.fractionBits + 1 : ℕ) := by
    have : (f.ceiling : ℤ) = f.bias + 1 := by
      rw [bias, Format.ceiling, sub_add_cancel]
      exact Nat.cast_pow 2 _
    push_cast
    omega
  have power : (2 : ℚ) ^ f.ceiling = f.lastPlace * 2 ^ (f.fractionBits + 1) := by
    rw [← zpow_natCast, ceiling, zpow_add₀ two_ne_zero, zpow_natCast, lastPlace]
  have positive : 0 < f.lastPlace := by
    rw [lastPlace]
    positivity
  rw [power, largest]
  linarith

theorem standard_single : single.Standard := ⟨by decide, by decide⟩

theorem standard_double : double.Standard := ⟨by decide, by decide⟩

end Format

namespace Binary

variable {f : Format}

theorem ofRatio_eq_ofRank (negative : Bool) (num den : ℕ) :
    ofRatio f negative num den = ofRank f negative (f.rankOf num den) := rfl

/-- A decimal is read as the quotient that it is: the shortcuts for huge and for tiny
exponents change no result. -/
theorem ofDecimal_eq_ofRatio (standard : f.Standard) (d : Decimal) :
    ofDecimal f d = ofRatio f d.negative (d.significand * tenPow d.exponent.toNat)
      (tenPow (-d.exponent).toNat) := by
  have some_tens : 0 < tenPow (-d.exponent).toNat := Nat.pow_pos (by decide)
  have nearest :=
    Format.nearest_rankOf standard (d.significand * tenPow d.exponent.toNat) some_tens
  rw [Decimal.ratio_eq] at nearest
  unfold ofDecimal
  split
  · rename_i zero
    rw [ofRatio_eq_ofRank, ofRatio_eq_ofRank, zero, Nat.zero_mul, f.rankOf_zero,
      f.rankOf_zero]
  split
  · rename_i some_digit huge
    have beyond : f.bound ≤
        f.rankOf (d.significand * tenPow d.exponent.toNat) (tenPow (-d.exponent).toNat) := by
      rw [nearest.bound_le_iff standard]
      exact f.largest_le_ceiling.trans (d.le_abs_value_of_huge some_digit huge)
    rw [ofRatio_eq_ofRank, ofRank, dif_neg (not_lt.mpr beyond)]
  split
  · rename_i some_digit not_huge tiny
    have zero : f.rankOf (d.significand * tenPow d.exponent.toNat)
        (tenPow (-d.exponent).toNat) = 0 := by
      rw [nearest.eq_zero_iff standard, Format.smallest_eq standard, div_div, ← pow_succ]
      exact d.abs_value_le_of_tiny (by omega)
    rw [ofRatio_eq_ofRank, ofRatio_eq_ofRank, zero, f.rankOf_zero]
  · rfl

/-- The number that a decimal is read as is its correctly rounded value. -/
theorem roundsTo_ofDecimal (standard : f.Standard) (d : Decimal) :
    f.RoundsTo d.value d.negative (ofDecimal f d).toBits := by
  have some_tens : 0 < tenPow (-d.exponent).toNat := Nat.pow_pos (by decide)
  have nearest :=
    Format.nearest_rankOf standard (d.significand * tenPow d.exponent.toNat) some_tens
  rw [Decimal.ratio_eq] at nearest
  rw [ofDecimal_eq_ofRatio standard, ofRatio_eq_ofRank]
  exact roundsTo_ofRank standard d.value_eq_sign nearest

end Binary

/-! ### Fields -/

namespace Literal

/-- **The decimal literals of a field.** A text is read as a decimal exactly if it writes a
number in decimal notation. A field of single precision then gets the correctly rounded value
of that number in single precision, and a field of double precision the one in double
precision, with the sign that the text has. -/
theorem decimal_literals (field value : String) :
    ((∃ d, RealLiteral.read value.toList = .ok (.decimal d)) ↔
      ∃ negative q, WritesDecimal value.toList negative q) ∧
    ∀ negative q, WritesDecimal value.toList negative q →
      (∃ x, singleFloat field value = .ok (.float x) ∧
        Format.single.RoundsTo q negative x.toBits) ∧
      ∃ y, doubleFloat field value = .ok (.double y) ∧
        Format.double.RoundsTo q negative y.toBits := by
  constructor
  · constructor
    · rintro ⟨d, run⟩
      exact ⟨_, _, writesDecimal_iff.mpr ⟨d, run, rfl, rfl⟩⟩
    · rintro ⟨negative, q, writes⟩
      obtain ⟨d, run, -⟩ := writesDecimal_iff.mp writes
      exact ⟨d, run⟩
  · intro negative q writes
    obtain ⟨d, run, rfl, rfl⟩ := writesDecimal_iff.mp writes
    refine ⟨⟨.ofDecimal .single d, ?_, Binary.roundsTo_ofDecimal Format.standard_single d⟩,
      ⟨.ofDecimal .double d, ?_, Binary.roundsTo_ofDecimal Format.standard_double d⟩⟩
    · rw [singleFloat, run]
      rfl
    · rw [doubleFloat, run]
      rfl

/-- A number half way between two others of single precision goes to the even one, below
it. -/
theorem tie_goes_to_even :
    WritesDecimal "16777217".toList false 16777217 ∧
      ∃ x, singleFloat "count" "16777217" = .ok (.float x) ∧ x.toBits = 0x4b800000 ∧
        Format.single.RoundsTo 16777217 false x.toBits := by
  have writes : WritesDecimal "16777217".toList false 16777217 := by
    refine ⟨"16777217".toList, _, [1, 6, 7, 7, 7, 2, 1, 7], [], 0,
      ⟨[], [], by simp, by simp, by simp⟩, .bare (by simp),
      ⟨.inl nofun, [], [], .none, .none, rfl⟩, ?_⟩
    norm_num [Digits.value]
  obtain ⟨⟨x, run, rounds⟩, -⟩ :=
    (decimal_literals "count" "16777217").2 false 16777217 writes
  refine ⟨writes, x, run, ?_, rounds⟩
  have evaluated :
      singleFloat "count" "16777217" =
        .ok (.float (.ofDecimal .single ⟨false, 16777217, 0⟩)) :=
    rfl
  cases run.symm.trans evaluated
  decide +kernel

end Literal

end FixedInit
