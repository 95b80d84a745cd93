/-
How a number of a JSON text is read, and how near the result is.

* `significand_eq` : digits that fit 64 bits are all read;
* `binary?_finite` : a written number is read by scaling its digits by a power of ten;
* `exists_nearest_scaled` : the scaled number is rounded once more, after the digits and the
  power were;
* `nearest_rank?` : with few digits only the power is rounded before that.

Design notes: the power of ten stands for itself as long as five to it fits a significand,
which is up to the twenty-second power. A larger one is rounded. Whether digits are multiplied
or divided by it, they are scaled by the same number, which is close to a power of ten with a
sign.
-/
import FixedInit.Proofs.ShortestSize

namespace FixedInit

/-! ### The digits -/

namespace Numeral

theorem absorb_eq {n : ℕ} {digits : List Digit}
    (small : n * tenPow digits.length + Digits.value digits < twoPow 64) :
    absorb n digits = (n * tenPow digits.length + Digits.value digits, []) := by
  induction digits generalizing n with
  | nil =>
    rw [absorb, List.length_nil, tenPow_zero, Nat.mul_one, Digits.value_nil, Nat.add_zero]
  | cons d digits ih =>
    have split : Digits.value (d :: digits) =
        d.val * tenPow digits.length + Digits.value digits := by
      rw [← List.singleton_append, Digits.value_append, Digits.value_singleton]
    have value : n * tenPow (d :: digits).length + Digits.value (d :: digits) =
        (10 * n + d.val) * tenPow digits.length + Digits.value digits := by
      rw [split, List.length_cons, tenPow_succ]
      ring
    rw [value] at small ⊢
    have some_tens : 0 < tenPow digits.length := Nat.pow_pos (by decide)
    have fits : 10 * n + d.val < twoPow 64 :=
      lt_of_le_of_lt
        (Nat.le_trans (Nat.le_mul_of_pos_right _ some_tens) (Nat.le_add_right _ _))
        small
    rw [absorb, if_pos fits]
    exact ih small

/-- Digits that fit 64 bits are all read. -/
theorem significand_eq {n : Numeral} (small : n.decimal.significand < twoPow 64) :
    n.significand = (n.decimal.significand, n.decimal.exponent) := by
  have digits : n.decimal.significand =
      Digits.value n.whole * tenPow n.fraction.length + Digits.value n.fraction :=
    Digits.value_append _ _
  have whole : absorb 0 n.whole = (Digits.value n.whole, []) := by
    have some_tens : 0 < tenPow n.fraction.length := Nat.pow_pos (by decide)
    have fits : 0 * tenPow n.whole.length + Digits.value n.whole < twoPow 64 := by
      rw [Nat.zero_mul, Nat.zero_add]
      exact lt_of_le_of_lt
        (Nat.le_trans (Nat.le_mul_of_pos_right _ some_tens) (Nat.le_add_right _ _))
        (digits ▸ small)
    rw [absorb_eq fits, Nat.zero_mul, Nat.zero_add]
  rw [digits] at small
  have exponent : n.decimal.exponent = n.power - n.fraction.length := rfl
  rw [exponent, digits, power]
  simp only [significand, whole, absorb_eq small, List.length_nil, Digits.signed]
  congr 1
  cases n.exponent with
  | none => simp
  | some parts =>
    simp only
    omega

end Numeral

/-! ### Written numbers -/

namespace Layout

variable {f : Format}

/-- A written number has a point or an exponent, and so it is no integer. -/
theorem integer?_finite (layout : Layout) (negative : Bool) (rank : Fin f.bound) :
    (layout.finite negative rank).integer? = none := by
  have some_digit : Digits.ofNat (f.shortest rank).1 ≠ [] := Digits.ofNat_ne_nil _
  have length := List.length_pos_iff.mpr some_digit
  have not_integer {n : Numeral} (h : n.fraction ≠ [] ∨ n.exponent ≠ none) :
      n.integer? = none := by
    rw [Numeral.integer?, if_neg]
    rcases h with fraction | exponent
    · simp [fraction]
    · simp [exponent]
  apply not_integer
  unfold finite numeral
  simp only
  split
  · exact .inl (List.cons_ne_nil _ _)
  split
  · split
    · exact .inl (List.cons_ne_nil _ _)
    split
    · exact .inl fun empty => by
        have := List.length_eq_zero_iff.mpr empty
        rw [List.length_drop] at this
        omega
    · exact .inl fun empty => some_digit (List.append_eq_nil_iff.mp empty).2
  · exact .inr (Option.some_ne_none _)

/-- A written number of few enough digits is read by scaling them. -/
theorem binary?_finite (layout : Layout) (g : Format) (negative : Bool) (rank : Fin f.bound)
    (small : (layout.finite negative rank).decimal.significand < twoPow 64) :
    (layout.finite negative rank).binary? g =
      (Numeral.rank? (layout.finite negative rank).decimal.significand
        (layout.finite negative rank).decimal.exponent).map
          fun scaled => Binary.convert g (.finite negative scaled) := by
  rw [Numeral.binary?, layout.integer?_finite, Numeral.double?, Numeral.significand_eq small,
    Option.map_map, layout.negative_finite]
  rfl

end Layout

/-! ### Scaling -/

namespace Numeral

open Format (double standard_double cast_twoPow)

theorem cast_width : (2 * double.fractions : ℚ) = 2 ^ 53 := by
  rw [Format.fractions, cast_twoPow, ← pow_succ']
  rfl

theorem fractions_le_scaled {x : ℚ} (one_le : 1 ≤ x) :
    (double.fractions : ℚ) ≤ x * 2 ^ double.scale := by
  have power : (2 : ℚ) ^ 52 ≤ 2 ^ double.scale := pow_le_pow_right₀ (by norm_num) (by decide)
  linarith [cast_width,
    le_mul_of_one_le_left (by positivity : (0 : ℚ) ≤ 2 ^ double.scale) one_le]

theorem nearest_whole (n : ℕ) :
    double.Nearest (n * 2 ^ double.scale) (double.rankOf n 1) := by
  have nearest := Format.nearest_rankOf standard_double n Nat.one_pos
  rwa [Nat.cast_one, div_one] at nearest

/-- A whole number of few digits is not rounded. -/
theorem number_whole {n : ℕ} (count shift : ℕ) (few : count ≤ 2 * double.fractions)
    (exact : n = count * 2 ^ shift) : double.number (double.rankOf n 1) = n := by
  have value : (n * 2 ^ double.scale : ℚ) = count * 2 ^ (shift + double.scale) := by
    rw [exact]
    push_cast
    ring
  rw [Format.number, (nearest_whole n).units_eq count (shift + double.scale) few value,
    mul_div_cancel_right₀ _ (by positivity)]

/-- Any other one is rounded to within half a unit in its last place. -/
theorem number_whole_near {n : ℕ} (some_digit : n ≠ 0) :
    |double.number (double.rankOf n 1) - n| * 2 ^ 53 ≤ n := by
  have one_le : (1 : ℚ) ≤ n := by exact_mod_cast Nat.one_le_iff_ne_zero.mpr some_digit
  rw [← cast_width]
  exact (nearest_whole n).number_error (fractions_le_scaled one_le)

/-- A power of ten, as it is rounded. -/
def roundedPower (k : ℕ) : ℚ :=
  double.number (double.rankOf (tenPow k) 1)

/-- A small power of ten is not rounded. -/
theorem roundedPower_small {k : ℕ} (small : k ≤ 22) : roundedPower k = 10 ^ k := by
  have fives : 5 ^ k ≤ 2 * double.fractions :=
    (Nat.pow_le_pow_right (by decide) small).trans (by decide)
  have split : tenPow k = 5 ^ k * 2 ^ k := Nat.mul_pow 5 2 k
  rw [roundedPower, number_whole (5 ^ k) k fives split, cast_tenPow]

theorem roundedPower_near (k : ℕ) : |roundedPower k - 10 ^ k| * 2 ^ 53 ≤ 10 ^ k := by
  have near := @number_whole_near (tenPow k) (Nat.pow_pos (by decide)).ne'
  rwa [cast_tenPow] at near

/-- A power that is rounded is no less than half of itself. -/
theorem half_le_roundedPower (k : ℕ) : 10 ^ k / 2 ≤ roundedPower k := by
  have near := roundedPower_near k
  have power : (0 : ℚ) < 10 ^ k := by positivity
  have := neg_abs_le (roundedPower k - 10 ^ k)
  linarith

theorem roundedPower_eq (k : ℕ) : roundedPower k = powerUnits k / 2 ^ double.scale := rfl

theorem powerUnits_pos (k : ℕ) : 0 < powerUnits k := by
  have half := half_le_roundedPower k
  have power : (0 : ℚ) < 10 ^ k := by positivity
  refine Nat.pos_of_ne_zero fun zero => ?_
  rw [roundedPower_eq, zero, Nat.cast_zero, zero_div] at half
  linarith

/-- The power of ten by which a significand is scaled, as it is rounded. -/
def scaling (e : ℤ) : ℚ :=
  if e < 0 then (roundedPower (-e).toNat)⁻¹ else roundedPower e.toNat

theorem scaling_small {e : ℤ} (lower : -22 ≤ e) (upper : e ≤ 22) : scaling e = 10 ^ e := by
  unfold scaling
  split
  · rw [roundedPower_small (by omega), ← zpow_natCast, ← zpow_neg]
    congr 1
    omega
  · rw [roundedPower_small (by omega), ← zpow_natCast]
    congr 1
    omega

/-- Neither rounding a power nor dividing by the result loses more than a unit in the last
place. -/
theorem scaling_near (e : ℤ) : |scaling e - 10 ^ e| * 2 ^ 52 ≤ 10 ^ e := by
  unfold scaling
  split
  · rename_i negative
    obtain ⟨k, rfl⟩ : ∃ k : ℕ, e = -k := ⟨(-e).toNat, by omega⟩
    have near := roundedPower_near k
    have half := half_le_roundedPower k
    have power : (0 : ℚ) < 10 ^ k := by positivity
    have positive : 0 < roundedPower k := by linarith
    have distance : (roundedPower k)⁻¹ - (10 ^ k)⁻¹ =
        (10 ^ k - roundedPower k) / (roundedPower k * 10 ^ k) := by
      field_simp
    rw [Int.neg_neg, Int.toNat_natCast, zpow_neg, zpow_natCast, distance, abs_div,
      abs_sub_comm, abs_of_pos (mul_pos positive power), div_mul_eq_mul_div,
      div_le_iff₀ (mul_pos positive power)]
    calc |roundedPower k - 10 ^ k| * 2 ^ 52 ≤ roundedPower k := by linarith
      _ = (10 ^ k)⁻¹ * (roundedPower k * 10 ^ k) := by field_simp
  · obtain ⟨k, rfl⟩ : ∃ k : ℕ, e = k := ⟨e.toNat, by omega⟩
    have near := roundedPower_near k
    rw [Int.toNat_natCast, zpow_natCast]
    linarith [abs_nonneg (roundedPower k - 10 ^ k)]

theorem scaling_bounds (e : ℤ) : 10 ^ e / 2 ≤ scaling e ∧ scaling e ≤ 2 * 10 ^ e := by
  have near := scaling_near e
  have power : (0 : ℚ) < 10 ^ e := by positivity
  have below := neg_abs_le (scaling e - 10 ^ e)
  have above := le_abs_self (scaling e - 10 ^ e)
  constructor <;> linarith

theorem scaleDown_ratio (x : ℚ) {e : ℤ} (negative : e < 0) :
    x * 2 ^ double.scale / powerUnits (-e).toNat = x * scaling e := by
  rw [scaling, if_pos negative, roundedPower_eq, inv_div, mul_div_assoc]

theorem scaleUp_ratio (x : ℚ) {e : ℤ} (not_negative : ¬ e < 0) :
    x * powerUnits e.toNat / 2 ^ double.scale = x * scaling e := by
  rw [scaling, if_neg not_negative, roundedPower_eq, mul_div_assoc]

/-- The rank of a magnitude that is multiplied or divided by a rounded power of ten. -/
def scaleBy (rank : ℕ) (e : ℤ) : ℕ :=
  if e < 0 then scaleDown rank (-e).toNat else scaleUp rank e.toNat

theorem nearest_scaleBy (rank : ℕ) (e : ℤ) :
    double.Nearest (double.number rank * scaling e * 2 ^ double.scale) (scaleBy rank e) := by
  have unit : (2 : ℚ) ^ double.scale ≠ 0 := by positivity
  unfold scaleBy
  split
  · rename_i negative
    have nearest :=
      Format.nearest_rankOf standard_double (double.units rank) (powerUnits_pos (-e).toNat)
    rwa [← double.number_mul, scaleDown_ratio _ negative] at nearest
  · rename_i not_negative
    have nearest :=
      Format.nearest_rankOf standard_double (double.units rank * powerUnits e.toNat)
        (twoPow_pos (2 * double.scale))
    rwa [Nat.cast_mul, ← double.number_mul, cast_twoPow, pow_mul', sq, mul_right_comm,
      mul_div_mul_right _ _ unit, scaleUp_ratio _ not_negative] at nearest

/-- What is rounded last of a significand and a power of ten: a number of double precision
that is scaled by a rounded power of ten. A power below the least one takes a step before
that. -/
def scaled (c : ℕ) (e : ℤ) : ℚ :=
  if e < -308 then double.number (scaleBy (double.rankOf c 1) (-308)) * scaling (e + 308)
  else double.number (double.rankOf c 1) * scaling e

theorem scaled_exact {c : ℕ} {e : ℤ} (count shift : ℕ) (few : count ≤ 2 * double.fractions)
    (exact : c = count * 2 ^ shift) (lower : -308 ≤ e) : scaled c e = c * scaling e := by
  rw [scaled, if_neg (not_lt.mpr lower), number_whole count shift few exact]

theorem exists_nearest_scaled {c : ℕ} {e : ℤ} (some_digit : c ≠ 0) (lower : -616 ≤ e)
    (upper : e ≤ 308) :
    ∃ r, double.Nearest (scaled c e * 2 ^ double.scale) r ∧
      rank? c e = if h : r < double.bound then some ⟨r, h⟩ else none := by
  have not_zero : ¬ (c = 0 ∨ e < -616) := by omega
  by_cases tiny : e < -308
  · refine ⟨scaleBy (scaleBy (double.rankOf c 1) (-308)) (e + 308), ?_, ?_⟩
    · rw [scaled, if_pos tiny]
      exact nearest_scaleBy _ _
    · have power : (-(e + 308)).toNat = (-e - 308).toNat := by omega
      rw [rank?, if_neg not_zero, if_pos tiny, scaleBy, if_pos (by omega), power]
      rfl
  · refine ⟨scaleBy (double.rankOf c 1) e, ?_, ?_⟩
    · rw [scaled, if_neg tiny]
      exact nearest_scaleBy _ _
    · rw [rank?, if_neg not_zero, if_neg tiny, if_pos upper, scaleBy]

/-- A significand that is not rounded is scaled by a rounded power, and the result is
rounded. -/
theorem nearest_rank? {c : ℕ} {e : ℤ} (some_digit : c ≠ 0) (count shift : ℕ)
    (few : count ≤ 2 * double.fractions) (exact : c = count * 2 ^ shift) (lower : -308 ≤ e)
    (upper : e ≤ 308) :
    ∃ r, double.Nearest (c * scaling e * 2 ^ double.scale) r ∧
      rank? c e = if h : r < double.bound then some ⟨r, h⟩ else none := by
  rw [← scaled_exact count shift few exact lower]
  exact exists_nearest_scaled some_digit (by omega) upper

end Numeral

end FixedInit
