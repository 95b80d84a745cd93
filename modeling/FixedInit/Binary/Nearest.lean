/-
Rounding to the nearest number of a binary format, ties to the even significand.

* `nearestEven_mul` : a whole quotient is not rounded;
* `rankOf_units` : a magnitude of the format rounds to its own rank.

Design notes: a quotient is first counted in units. If the count has at most
`fractionBits + 1` binary digits it is rounded to a whole number of units, which is its rank;
otherwise as many low digits as are too many are rounded away, and each one rounded away adds
`fractions` to the rank. A significand that rounds up to the next power of two gives, by the
same sum, the rank of that power.
-/
import FixedInit.Binary.Format

namespace FixedInit

/-- A decimal number: `(-1) ^ negative * significand * 10 ^ exponent`, with a sign even on
zero. -/
structure Decimal where
  negative : Bool
  significand : Nat
  exponent : Int
  deriving DecidableEq

/-- The whole number nearest to `num / den`, and of two equally near ones the even one. -/
def nearestEven (num den : Nat) : Nat :=
  let quotient := num / den
  let twice := 2 * (num % den)
  if den < twice ∨ twice = den ∧ quotient % 2 = 1 then quotient + 1 else quotient

theorem nearestEven_mul (n : Nat) {den : Nat} (h : 0 < den) :
    nearestEven (n * den) den = n := by
  simp [nearestEven, Nat.mul_div_cancel _ h]
  omega

namespace Format

/-- The rank of the number nearest to `num / den`. It may lie beyond the finite ones. -/
def rankOf (f : Format) (num den : Nat) : Nat :=
  let num := num * twoPow f.scale
  let shift := (num / den).log2 - f.fractionBits
  shift * f.fractions + nearestEven num (den * twoPow shift)

theorem rankOf_units (f : Format) (rank : Nat) :
    f.rankOf (f.units rank) (twoPow f.scale) = rank := by
  have hs : 0 < twoPow f.scale := twoPow_pos _
  simp only [rankOf, Nat.mul_div_cancel _ hs]
  unfold units
  by_cases hr : rank < f.fractions
  · have hlog : rank.log2 - f.fractionBits = 0 := by
      by_cases h0 : rank = 0
      · simp [h0]
      · have : rank.log2 < f.fractionBits := (log2_lt_iff _ h0).2 hr
        omega
    rw [if_pos hr, hlog]
    simp [nearestEven_mul _ hs]
  · rw [if_neg hr]
    have hpos := f.fractions_pos
    obtain ⟨shift, hshift⟩ : ∃ shift, rank / f.fractions = shift + 1 :=
      ⟨rank / f.fractions - 1, by
        have : 1 ≤ rank / f.fractions := (Nat.le_div_iff_mul_le hpos).2 (by omega)
        omega⟩
    have hm := Nat.mod_lt rank hpos
    have hlog : ((f.fractions + rank % f.fractions) * twoPow shift).log2 =
        f.fractionBits + shift := by
      have hne : (f.fractions + rank % f.fractions) * twoPow shift ≠ 0 :=
        Nat.mul_ne_zero (by omega) (Nat.ne_of_gt (twoPow_pos _))
      rw [log2_eq_iff _ hne, twoPow_add, show f.fractionBits + shift + 1 =
        (f.fractionBits + 1) + shift by omega, twoPow_add (f.fractionBits + 1)]
      have h2 : twoPow (f.fractionBits + 1) = f.fractions + f.fractions := by
        rw [fractions, twoPow_succ]; omega
      rw [h2]
      exact ⟨Nat.mul_le_mul_right _ (Nat.le_add_right _ _),
        Nat.mul_lt_mul_of_pos_right (by omega) (twoPow_pos _)⟩
    rw [hshift, Nat.add_sub_cancel, hlog, Nat.add_sub_cancel_left, Nat.mul_assoc,
      Nat.mul_comm (twoPow shift), nearestEven_mul _ (Nat.mul_pos hs (twoPow_pos _))]
    have := Nat.div_add_mod rank f.fractions
    rw [hshift] at this
    grind

end Format

namespace Binary

/-- The number with a sign and the magnitude nearest to `num / den`. -/
def ofRatio (f : Format) (negative : Bool) (num den : Nat) : Binary f :=
  let rank := f.rankOf num den
  if h : rank < f.bound then finite negative ⟨rank, h⟩ else infinite negative

/-- The number nearest to a decimal, computed from the decimal itself at the width of the
format.

Two shortcuts keep huge exponents cheap. Ten to the power `ceiling` is beyond every finite
number. And since ten is more than two to the third, a significand below `2 ^ b` with exponent
`e < 0` is a number below `2 ^ (b + 3 * e)`, which rounds to zero once it is at most half a
unit. -/
def ofDecimal (f : Format) (d : Decimal) : Binary f :=
  if d.significand = 0 then ofRatio f d.negative 0 1
  else if (f.ceiling : Int) ≤ d.exponent then infinite d.negative
  else if (d.significand.log2 + 1 + f.scale + 1 : Int) + 3 * d.exponent ≤ 0 then
    ofRatio f d.negative 0 1
  else ofRatio f d.negative (d.significand * tenPow d.exponent.toNat)
    (tenPow (-d.exponent).toNat)

/-- The number nearest to a whole number. -/
def ofInt (f : Format) (n : Int) : Binary f :=
  ofRatio f (n < 0) n.natAbs 1

/-- The number of another format nearest to a given one. -/
def convert {f : Format} (g : Format) : Binary f → Binary g
  | nan => nan
  | infinite negative => infinite negative
  | finite negative rank => ofRatio g negative (f.units rank) (twoPow f.scale)

end Binary

end FixedInit
