/-
The shortest decimal of a binary number is one that reads back.

* `nearest_shortest` : the rank that the shortest decimal of a rank is rounded to is that
  rank;
* `nearest_decimal` : so it is for the decimal that is written, however the digits of it are
  laid out.

Design notes: a search that ends on some grid has found a multiple that reads back. One that
goes down to the last grid finds the magnitude itself, as the powers of ten there are
multiples of the powers of two of a unit.
-/
import FixedInit.Proofs.NumeralDecimal
import FixedInit.Proofs.RealLiterals

namespace FixedInit

namespace Format

variable {f : Format} {rank : ℕ}

/-- A magnitude of the format is nearest to its own rank. -/
theorem nearest_units (f : Format) (rank : ℕ) : f.Nearest (f.units rank) rank where
  above := (units_lt_midpoint rank).le
  above_even tie := absurd tie (units_lt_midpoint rank).ne
  below lower next := next ▸ (midpoint_lt_units_succ lower).le
  below_even lower next tie := absurd tie (next ▸ midpoint_lt_units_succ lower).ne

theorem readsBack_iff (standard : f.Standard) {count : ℕ} {e : ℤ} :
    f.readsBack rank count e = true ↔ f.Nearest (count * 10 ^ e * 2 ^ f.scale) rank := by
  have some_tens : 0 < tenPow (-e).toNat := Nat.pow_pos (by decide)
  have rounded := nearest_rankOf standard (count * tenPow e.toNat) some_tens
  have ratio := Decimal.ratio_eq ⟨false, count, e⟩
  rw [Decimal.abs_value] at ratio
  rw [ratio] at rounded
  exact ⟨fun read => beq_iff_eq.mp read ▸ rounded,
    fun nearest => beq_iff_eq.mpr (rounded.eq nearest)⟩

/-- On the last grid of the search the magnitude is a multiple of the step. -/
theorem inGrid_exact (f : Format) (rank : ℕ) {e : ℤ} (far : (f.scale : ℤ) ≤ -e) :
    (((f.inGrid rank e).1 / (f.inGrid rank e).2 : ℕ) : ℚ) * 10 ^ e * 2 ^ f.scale =
      f.units rank := by
  obtain ⟨n, rfl⟩ : ∃ n : ℕ, e = -n := ⟨(-e).toNat, by omega⟩
  have plain : (-(n : ℤ)).toNat = 0 := by omega
  have tens : (- -(n : ℤ)).toNat = n := by omega
  obtain ⟨fives, hfives⟩ : twoPow f.scale ∣ tenPow n :=
    (pow_dvd_pow 2 (by omega)).trans (pow_dvd_pow_of_dvd (by decide : 2 ∣ 10) n)
  have quotient : (f.inGrid rank (-n)).1 / (f.inGrid rank (-n)).2 = f.units rank * fives := by
    have step : f.units rank * tenPow n = f.units rank * fives * twoPow f.scale := by
      rw [hfives]
      ring
    rw [inGrid, plain, tens, tenPow_zero, Nat.mul_one, step,
      Nat.mul_div_cancel _ (twoPow_pos _)]
  have power : (10 : ℚ) ^ n = 2 ^ f.scale * fives := by
    rw [← cast_twoPow, ← Nat.cast_mul, ← hfives]
    exact (Nat.cast_pow 10 n).symm
  calc (((f.inGrid rank (-n)).1 / (f.inGrid rank (-n)).2 : ℕ) : ℚ) * 10 ^ (-n : ℤ) *
          2 ^ f.scale
      = f.units rank * ((2 ^ f.scale * fives) * 10 ^ (-n : ℤ)) := by
        rw [quotient]
        push_cast
        ring
    _ = f.units rank * (10 ^ n * (10 ^ n)⁻¹) := by rw [← power, zpow_neg, zpow_natCast]
    _ = f.units rank := by rw [mul_inv_cancel₀ (by positivity), mul_one]

theorem nearest_shortestFrom (standard : f.Standard) {steps : ℕ} {e : ℤ}
    (far : (f.scale : ℤ) ≤ steps - e) :
    f.Nearest ((f.shortestFrom rank steps e).1 * 10 ^ (f.shortestFrom rank steps e).2 *
      2 ^ f.scale) rank := by
  induction steps generalizing e with
  | zero =>
    rw [shortestFrom, inGrid_exact f rank (by omega)]
    exact nearest_units f rank
  | succ steps ih =>
    rw [shortestFrom]
    split
    · rename_i found
      exact (readsBack_iff standard).mp (f.nearestOn?_eq_some found).1
    · exact ih (by omega)

/-- The shortest decimal of a rank is rounded to that rank. -/
theorem nearest_shortest (standard : f.Standard) (rank : ℕ) :
    f.Nearest ((f.shortest rank).1 * 10 ^ (f.shortest rank).2 * 2 ^ f.scale) rank := by
  refine nearest_shortestFrom standard ?_
  omega

end Format

namespace Binary

variable {f : Format}

/-- A decimal is read as the number of the rank nearest to it. -/
theorem ofDecimal_of_nearest (standard : f.Standard) {d : Decimal} {rank : ℕ}
    (nearest : f.Nearest (|d.value| * 2 ^ f.scale) rank) :
    ofDecimal f d = ofRank f d.negative rank := by
  have some_tens : 0 < tenPow (-d.exponent).toNat := Nat.pow_pos (by decide)
  have rounded :=
    Format.nearest_rankOf standard (d.significand * tenPow d.exponent.toNat) some_tens
  rw [Decimal.ratio_eq] at rounded
  rw [ofDecimal_eq_ofRatio standard, ofRatio_eq_ofRank, rounded.eq nearest]

end Binary

namespace Layout

variable {f : Format}

/-- The decimal that is written for a number is rounded to that number. -/
theorem nearest_decimal (standard : f.Standard) (layout : Layout) (negative : Bool)
    (rank : Fin f.bound) :
    f.Nearest (|(layout.finite negative rank).decimal.value| * 2 ^ f.scale) rank := by
  by_cases zero : rank.val = 0
  · have nearest := f.nearest_units 0
    rw [Format.units_zero, Nat.cast_zero] at nearest
    rw [layout.decimal_zero negative zero, Decimal.abs_value, Nat.cast_zero, zero_mul,
      zero_mul, zero]
    exact nearest
  · obtain ⟨zeros, decimal, -⟩ := layout.decimal_finite negative zero
    have value :
        ((f.shortest rank).1 * tenPow zeros : ℕ) * (10 : ℚ) ^ ((f.shortest rank).2 - zeros) =
        (f.shortest rank).1 * 10 ^ (f.shortest rank).2 := by
      have power : ((tenPow zeros : ℕ) : ℚ) = 10 ^ zeros := Nat.cast_pow 10 zeros
      rw [zpow_sub₀ (by norm_num), zpow_natCast]
      push_cast [power]
      field_simp
    rw [decimal, Decimal.abs_value, value]
    exact Format.nearest_shortest standard rank

end Layout

end FixedInit
