/-
Finite numbers in a snapshot.

* `durable_single` : a finite number of single precision is read back from what is written for
  it;
* `exists_binary?_double` : one of double precision is read as a finite number nearby;
* `numbers_in_snapshots` : so it is for the literals that have them as values.

Design notes: a number of double precision is not always read back, since its digits and the
power of ten by which they are scaled are rounded before the result is.
-/
import FixedInit.Proofs.DoubleNumbers
import FixedInit.Proofs.RoundTrip
import FixedInit.Proofs.SingleNumbers

namespace FixedInit

open Format (single double standard_single standard_double cast_twoPow)
open Numeral (rank? scaled)

/-! ### Single precision -/

/-- A whole number that is written with a zero behind the point is not changed by double
precision. -/
theorem exists_rank?_of_whole {c k rank : ℕ}
    (nearest : single.Nearest (c * 10 ^ (k : ℤ) * 2 ^ single.scale) rank)
    (some_units : rank ≠ 0) (finite : rank < single.bound) (few : c < 2 ^ 28)
    (short : c * tenPow k < tenPow 16) :
    ∃ r : Fin double.bound, rank? (c * tenPow (k + 1)) (-1) = some r ∧
      single.Nearest (double.number r * 2 ^ single.scale) rank := by
  have ten : tenPow (k + 1) = 5 ^ (k + 1) * 2 ^ (k + 1) := by
    rw [← Nat.mul_pow]
    rfl
  have fives : c * 5 ^ (k + 1) ≤ 2 * double.fractions := by
    have split : c * tenPow k = c * 5 ^ k * 2 ^ k := by
      rw [Nat.mul_assoc, ← Nat.mul_pow]
      rfl
    -- with more than two zeros the digits have at least three twos among their factors
    by_cases small : k < 3
    · have : 5 ^ (k + 1) ≤ 5 ^ 3 := Nat.pow_le_pow_right (by decide) (by omega)
      exact (Nat.mul_le_mul few.le this).trans (by decide)
    · have : 2 ^ 3 ≤ 2 ^ k := Nat.pow_le_pow_right (by decide) (by omega)
      have := Nat.mul_le_mul_left (c * 5 ^ k) this
      have width : 2 * double.fractions = 2 ^ 53 := rfl
      have top : tenPow 16 = 10 ^ 16 := rfl
      rw [pow_succ, ← Nat.mul_assoc, width]
      omega
  have value : ((c * tenPow (k + 1) : ℕ) : ℚ) * 10 ^ (-1 : ℤ) = c * 10 ^ (k : ℤ) := by
    rw [zpow_neg_one, zpow_natCast]
    push_cast [cast_tenPow]
    rw [pow_succ]
    field_simp
  have exact : IsExact (c * tenPow (k + 1)) (-1) := by
    obtain ⟨count, shift, small, low, same⟩ := isExact_of_whole (c := c) (k := k)
      ((Nat.mul_le_mul_left c (Nat.pow_le_pow_right (by decide) (Nat.le_succ k))).trans fives)
    exact ⟨count, shift, small, low, by rw [value, same]⟩
  have some_digit : c * tenPow (k + 1) ≠ 0 :=
    Nat.mul_ne_zero (some_digit_of_nearest nearest some_units) (Nat.pow_pos (by decide)).ne'
  have top := le_of_nearest nearest finite
  rw [← value] at top
  obtain ⟨r, read, same⟩ := exists_rank?_of_exact some_digit (by decide) (by decide) top
    ⟨c * 5 ^ (k + 1), k + 1, fives, by rw [ten, Nat.mul_assoc]⟩ exact
  exact ⟨r, read, by rwa [same, value]⟩

/-- The number of double precision that the written digits of a number of single precision are
read as. -/
theorem exists_rank?_single (negative : Bool) (rank : Fin single.bound) :
    (Expr.layout.finite negative rank).decimal.significand < twoPow 64 ∧
      ∃ r : Fin double.bound, rank? (Expr.layout.finite negative rank).decimal.significand
          (Expr.layout.finite negative rank).decimal.exponent = some r ∧
        single.Nearest (double.number r * 2 ^ single.scale) rank := by
  by_cases zero : rank.val = 0
  · rw [Expr.layout.decimal_zero negative zero]
    refine ⟨twoPow_pos 64, ⟨0, Format.bound_pos standard_double⟩, rfl, ?_⟩
    have nearest := single.nearest_units 0
    rw [Format.units_zero, Nat.cast_zero, ← zero] at nearest
    simp only
    rwa [Format.number, Format.units_zero, Nat.cast_zero, zero_div, zero_mul]
  obtain ⟨zeros, decimal, extra⟩ := Expr.layout.decimal_finite negative zero
  have nearest := Format.nearest_shortest standard_single rank.val
  have few : (single.shortest rank).1 < 2 ^ 28 :=
    lt_of_le_of_lt (Format.shortest_le standard_single zero) (by decide)
  rw [decimal]
  rcases Nat.eq_zero_or_pos zeros with rfl | some_zero
  · obtain ⟨lower, -⟩ := exponent_bounds nearest zero rank.isLt few
    have scale : (single.scale : ℤ) = 149 := rfl
    have chosen := (single.shortest_spec rank).2.1.resolve_left (by omega)
    rw [tenPow_zero, Nat.mul_one, Int.natCast_zero, Int.sub_zero]
    exact ⟨few.trans (by decide), exists_rank?_of_nearest nearest zero rank.isLt few chosen⟩
  · obtain ⟨k, rfl⟩ : ∃ k, zeros = k + 1 := ⟨zeros - 1, by omega⟩
    obtain ⟨power, short⟩ := extra.resolve_left (Nat.succ_ne_zero k)
    have exponent : (single.shortest rank).2 = k := by omega
    have plain : Expr.layout.plainBelow = 16 := rfl
    have short : (single.shortest rank).1 * tenPow k < tenPow 16 :=
      Digits.mul_tenPow_lt (by omega)
    rw [exponent] at nearest ⊢
    rw [show (k : ℤ) - (k + 1 : ℕ) = -1 by omega]
    refine ⟨?_, exists_rank?_of_whole nearest zero rank.isLt few short⟩
    rw [tenPow_succ, Nat.mul_left_comm]
    exact (Nat.mul_lt_mul_of_pos_left short (by decide : 0 < 10)).trans (by decide)

/-- A finite number of single precision is read back. -/
theorem durable_single (negative : Bool) (rank : Fin single.bound) :
    FloatLiteral.Durable ⟨.single, .finite negative rank⟩ := by
  obtain ⟨small, r, read, nearest⟩ := exists_rank?_single negative rank
  show (Expr.layout.finite negative rank).binary? single = some (.finite negative rank)
  rw [Expr.layout.binary?_finite single negative rank small, read, Option.map_some,
    Binary.convert, Binary.ofRatio_eq_ofRank, (nearest_convert r).eq nearest, Binary.ofRank,
    dif_pos rank.isLt]

/-! ### Double precision -/

/-- A finite number of double precision is read as a finite one of the same sign. -/
theorem exists_binary?_double (negative : Bool) (rank : Fin double.bound) :
    ∃ other : Fin double.bound,
      Json.binary? .double (Binary.finite negative rank).toJson =
        some (.finite negative other) ∧
        double.Nearest (scaled (Expr.layout.finite negative rank).decimal.significand
          (Expr.layout.finite negative rank).decimal.exponent * 2 ^ double.scale) other ∧
        other.val ≤ rank + 5 ∧ rank.val ≤ other + 5 := by
  obtain ⟨small, other, read, nearest, places⟩ := exists_rank?_double negative rank
  refine ⟨other, ?_, nearest, places⟩
  show (Expr.layout.finite negative rank).binary? double = some (.finite negative other)
  rw [Expr.layout.binary?_finite double negative rank small, read, Option.map_some,
    Binary.convert, Binary.ofRatio_eq_ofRank, double.rankOf_units, Binary.ofRank,
    dif_pos other.isLt]

/-- With few digits and a small power of ten nothing is rounded before the last step. -/
theorem nearest_scaled {d : Decimal} {rank : ℕ}
    (nearest : double.Nearest (|d.value| * 2 ^ double.scale) rank)
    (few : d.significand ≤ 2 ^ 53) (lower : -22 ≤ d.exponent) (upper : d.exponent ≤ 22) :
    double.Nearest (scaled d.significand d.exponent * 2 ^ double.scale) rank := by
  have digits : d.significand = d.significand * 2 ^ 0 := by rw [pow_zero, Nat.mul_one]
  rwa [Numeral.scaled_exact _ 0 few digits (by omega), Numeral.scaling_small lower upper,
    ← Decimal.abs_value]

/-! ### Literals -/

theorem readText?_float (value : Binary .single) :
    readText? Expr.ofJson? (Expr.float value).toJson.write =
      (Json.binary? .single value.toJson).map .float := by
  rw [readText?, Json.read?_write ((Expr.faithful 0).proper _)]
  rfl

theorem readText?_double (value : Binary .double) :
    readText? Expr.ofJson? (Expr.double value).toJson.write =
      (Json.binary? .double value.toJson).map .double := by
  rw [readText?, Json.read?_write ((Expr.faithful 0).proper _)]
  rfl

/-- **Finite numbers in a snapshot.** A literal of single precision with a finite value is
read back from what is written for it, bit by bit. One of double precision is read as a finite
number of the same sign that is at most five places away, and is read back exactly if the
written digits and their power of ten, each of them rounded, give a number that is rounded to
it. So it is if the digits fit a significand and the power of ten is not rounded. -/
theorem numbers_in_snapshots (negative : Bool) (x : Fin single.bound) (y : Fin double.bound) :
    let d := (Expr.layout.finite negative y).decimal
    readText? Expr.ofJson? (Expr.float (.finite negative x)).toJson.write =
      some (.float (.finite negative x)) ∧
    (∃ other : Fin double.bound,
      readText? Expr.ofJson? (Expr.double (.finite negative y)).toJson.write =
        some (.double (.finite negative other)) ∧ other.val ≤ y + 5 ∧ y.val ≤ other + 5) ∧
    (readText? Expr.ofJson? (Expr.double (.finite negative y)).toJson.write =
      some (.double (.finite negative y)) ↔
      double.Nearest (scaled d.significand d.exponent * 2 ^ double.scale) y) ∧
    (d.significand ≤ 2 ^ 53 → -22 ≤ d.exponent → d.exponent ≤ 22 →
      readText? Expr.ofJson? (Expr.double (.finite negative y)).toJson.write =
        some (.double (.finite negative y))) := by
  intro d
  obtain ⟨other, read, nearest, places⟩ := exists_binary?_double negative y
  have exact : readText? Expr.ofJson? (Expr.double (.finite negative y)).toJson.write =
      some (.double (.finite negative y)) ↔
        double.Nearest (scaled d.significand d.exponent * 2 ^ double.scale) y := by
    rw [readText?_double, read, Option.map_some]
    constructor
    · rintro ⟨⟩
      exact nearest
    · intro nearest'
      rw [Fin.ext (nearest.eq nearest')]
  refine ⟨?_, ⟨other, ?_, places⟩, exact,
    fun few lower upper => exact.mpr (nearest_scaled ?_ few lower upper)⟩
  · rw [readText?_float, durable_single negative x, Option.map_some]
  · rw [readText?_double, read, Option.map_some]
  · exact Expr.layout.nearest_decimal standard_double negative y

/-- The only number of single precision that would be lost if its decimal were correctly
rounded to double precision, which is `7.038531e-26`; and a tenth in double precision. -/
theorem tenth_is_read_back :
    readText? Expr.ofJson?
      (Expr.float (.finite false ⟨363742205, by decide +kernel⟩)).toJson.write =
        some (.float (.finite false ⟨363742205, by decide +kernel⟩)) ∧
      readText? Expr.ofJson?
        (Expr.double (.finite false ⟨4591870180066957722, by decide +kernel⟩)).toJson.write =
        some (.double (.finite false ⟨4591870180066957722, by decide +kernel⟩)) := by
  obtain ⟨single, -, -, double⟩ := numbers_in_snapshots false ⟨363742205, by decide +kernel⟩
    ⟨4591870180066957722, by decide +kernel⟩
  exact ⟨single, double (by decide +kernel) (by decide +kernel) (by decide +kernel)⟩

/-- The number that is written as `1e-23` is read as the next one. -/
theorem tiny_number_is_changed :
    readText? Expr.ofJson?
      (Expr.double (.finite false ⟨4262707295203537489, by decide +kernel⟩)).toJson.write =
      some (.double (.finite false ⟨4262707295203537490, by decide +kernel⟩)) := by
  rw [readText?_double]
  have changed : Json.binary? .double (Binary.toJson
        (.finite false ⟨4262707295203537489, by decide +kernel⟩ : Binary .double)) =
        some (.finite false ⟨4262707295203537490, by decide +kernel⟩) := by decide +kernel
  rw [changed, Option.map_some]

end FixedInit
