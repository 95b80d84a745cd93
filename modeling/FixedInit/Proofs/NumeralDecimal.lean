/-
The decimal that a numeral writes.

* `read_text` : a numeral is read as the decimal that it writes;
* `decimal_numeral` : laying out digits changes neither the sign nor the number, and appends
  at most the zeros of a whole number and one behind its point.
-/
import FixedInit.Proofs.NumeralText
import FixedInit.Proofs.RealText

namespace FixedInit

namespace Digits

theorem value_zeros (n : Nat) : value (List.replicate n 0) = 0 := by
  induction n with
  | zero => rfl
  | succ n ih =>
    rw [List.replicate_succ', value_append, ih]
    rfl

theorem value_append_zeros (digits : List Digit) (n : Nat) :
    value (digits ++ List.replicate n 0) = value digits * tenPow n := by
  rw [value_append, value_zeros, List.length_replicate, Nat.add_zero]

theorem value_zeros_append (n : Nat) (digits : List Digit) :
    value (List.replicate n 0 ++ digits) = value digits := by
  rw [value_append, value_zeros, Nat.zero_mul, Nat.zero_add]

theorem signed_ofNat_natAbs (n : Int) : signed (n < 0) (ofNat n.natAbs) = n := by
  rw [signed, value_ofNat]
  by_cases h : n < 0
  · rw [if_pos (by simpa using h)]
    omega
  · rw [if_neg (by simpa using h)]
    omega

end Digits

namespace Numeral

/-- The power of ten behind the letter of an exponent; without an exponent it is zero. -/
def power (n : Numeral) : Int :=
  match n.exponent with
  | none => 0
  | some (negative, digits) => Digits.signed negative digits

/-- The decimal that a numeral writes: all its digits, and how far the point stands from their
end. -/
def decimal (n : Numeral) : Decimal :=
  ⟨n.negative, Digits.value (n.whole ++ n.fraction), n.power - n.fraction.length⟩

theorem decimal_plain (negative : Bool) (whole fraction : List Digit) :
    decimal ⟨negative, whole, fraction, none⟩ =
      ⟨negative, Digits.value (whole ++ fraction), -(fraction.length : Int)⟩ := by
  rw [← Int.zero_sub]
  rfl

theorem decimal_scientific (negative : Bool) (whole fraction : List Digit) (power : Int) :
    decimal ⟨negative, whole, fraction, some (power < 0, Digits.ofNat power.natAbs)⟩ =
      ⟨negative, Digits.value (whole ++ fraction), power - fraction.length⟩ := by
  rw [decimal, Numeral.power]
  simp only [Digits.signed_ofNat_natAbs]

variable {n : Numeral}

theorem fraction_grammar (fraction : List Digit) :
    FractionText fraction (fractionText fraction) := by
  cases fraction with
  | nil => exact .none
  | cons d ds => exact .point (d :: ds)

theorem exponent_grammar (written : n.Written) :
    ExponentText n.power (exponentText n.exponent) := by
  have some_digit := written.exponent
  unfold power
  cases exponent : n.exponent with
  | none => exact .none
  | some parts =>
    obtain ⟨negative, digits⟩ := parts
    refine .power (.inl rfl) ?_ (some_digit negative digits exponent)
    cases negative with
    | true => exact .minus _
    | false =>
      have plain := not_sign_of_text (some_digit false digits exponent) []
      rw [List.append_nil] at plain
      exact .bare plain

/-- A numeral is read as the decimal that it writes. -/
theorem read_text (written : n.Written) :
    RealLiteral.read n.text = .ok (.decimal n.decimal) := by
  have text : DecimalText
      (Digits.text n.whole ++ (fractionText n.fraction ++ exponentText n.exponent))
      n.whole n.fraction n.power :=
    ⟨.inl written.some_digit, _, _, fraction_grammar n.fraction, exponent_grammar written,
      (List.append_assoc _ _ _).symm⟩
  have sign : SignParts n.text n.negative
      (Digits.text n.whole ++ (fractionText n.fraction ++ exponentText n.exponent)) := by
    rw [n.text_eq]
    cases n.negative with
    | true => exact .minus _
    | false => exact .bare (not_sign_of_text written.some_digit _)
  have trimmed : Text.trim n.text = n.text :=
    Text.trim_padded ⟨[], [], by simp, by simp, by simp⟩ (sign.ne_nil text.ne_nil)
      (sign.plain text.plain)
  rw [RealLiteral.read_eq_decimal_iff, trimmed, RealLiteral.takeSign_eq_iff.mpr sign]
  exact ⟨sign.ne_nil text.ne_nil, RealLiteral.decimal?_eq_some_iff.mpr ⟨_, _, _, text, rfl⟩⟩

end Numeral

namespace Layout

/-- The decimal of digits that are laid out. Only a number that is written out without an
exponent, and has no digit behind its point, gets further zeros: those up to the point and one
behind it. -/
theorem decimal_numeral (layout : Layout) (negative : Bool) {digits : List Digit}
    (some_digit : digits ≠ []) (exponent : Int) : ∃ zeros : Nat,
      (layout.numeral negative digits exponent).decimal =
        ⟨negative, Digits.value digits * tenPow zeros, exponent - zeros⟩ ∧
      (zeros = 0 ∨ zeros = exponent + 1 ∧ exponent + digits.length ≤ layout.plainBelow) := by
  have length := List.length_pos_iff.mpr some_digit
  unfold numeral
  simp only
  split
  · rename_i plain
    split
    · -- zeros up to the point, and one behind it
      rename_i whole
      have zeros : (digits ++ List.replicate exponent.toNat 0) ++ [0] =
          digits ++ List.replicate (exponent.toNat + 1) 0 := by
        rw [List.append_assoc, List.replicate_succ']
      refine ⟨exponent.toNat + 1, ?_, .inr ⟨by omega, plain.2⟩⟩
      rw [Numeral.decimal_plain, zeros, Digits.value_append_zeros, List.length_singleton]
      congr 1
      omega
    · refine ⟨0, ?_, .inl rfl⟩
      rw [tenPow_zero, Nat.mul_one, Int.natCast_zero, Int.sub_zero]
      split
      · rw [Numeral.decimal_plain, List.take_append_drop, List.length_drop]
        congr 1
        omega
      · have value :
            Digits.value
                ([0] ++ (List.replicate (-(exponent + digits.length)).toNat 0 ++ digits)) =
              Digits.value digits := by
          rw [← List.append_assoc, List.singleton_append, ← List.replicate_succ,
            Digits.value_zeros_append]
        rw [Numeral.decimal_plain, value, List.length_append, List.length_replicate]
        congr 1
        omega
  · refine ⟨0, ?_, .inl rfl⟩
    rw [tenPow_zero, Nat.mul_one, Int.natCast_zero, Int.sub_zero, Numeral.decimal_scientific,
      List.take_append_drop, List.length_drop]
    congr 1
    omega

/-- The numeral of a number other than zero writes its shortest decimal. -/
theorem decimal_finite (layout : Layout) {f : Format} (negative : Bool) {rank : Fin f.bound}
    (some_units : rank.val ≠ 0) : ∃ zeros : Nat,
      (layout.finite negative rank).decimal =
        ⟨negative, (f.shortest rank).1 * tenPow zeros, (f.shortest rank).2 - zeros⟩ ∧
      (zeros = 0 ∨ zeros = (f.shortest rank).2 + 1 ∧
        (f.shortest rank).2 + (Digits.ofNat (f.shortest rank).1).length ≤
          layout.plainBelow) := by
  obtain ⟨zeros, decimal, extra⟩ := layout.decimal_numeral negative
    (Digits.ofNat_ne_nil (f.shortest rank).1) (f.shortest rank).2
  rw [Digits.value_ofNat] at decimal
  refine ⟨zeros, ?_, extra⟩
  rw [finite, if_neg some_units]
  exact decimal

/-- The sign of a number is written. -/
theorem negative_finite (layout : Layout) {f : Format} (negative : Bool)
    (rank : Fin f.bound) :
    (layout.finite negative rank).negative = negative := by
  unfold finite numeral
  simp only
  split
  · rfl
  split
  · split
    · rfl
    split
    · rfl
    · rfl
  · rfl

theorem decimal_zero (layout : Layout) {f : Format} (negative : Bool) {rank : Fin f.bound}
    (zero : rank.val = 0) : (layout.finite negative rank).decimal = ⟨negative, 0, -1⟩ := by
  rw [finite, if_pos zero]
  rfl

end Layout

end FixedInit
