/-
Binary floating point numbers of a given format, as signed ranks.

The finite magnitudes of a format are numbered in increasing order from zero: the *rank* of a
magnitude is the bit pattern of its exponent and fraction fields, read as one natural number.
Every magnitude is a whole number of *units*, a unit being the smallest one above zero.

* `units_lt_units` : a larger rank is a larger magnitude;
* `ofBits?_toBits` : a number other than NaN is determined by its bit pattern.

Design notes: all NaN patterns are one value, so equality of numbers here is equality of what
the numbers mean; comparison, in which NaN differs from itself and the two zeros agree, is
`same`.
-/
import FixedInit.Number

namespace FixedInit

/-- A binary interchange format: the widths of the fraction and exponent fields. -/
structure Format where
  fractionBits : Nat
  exponentBits : Nat
  deriving DecidableEq

namespace Format

/-- Single precision, in 32 bits. -/
def single : Format := ⟨23, 8⟩

/-- Double precision, in 64 bits. -/
def double : Format := ⟨52, 11⟩

/-- The width of a bit pattern. -/
def width (f : Format) : Nat := f.fractionBits + f.exponentBits + 1

/-- The number of fractions that share an exponent field. -/
def fractions (f : Format) : Nat := twoPow f.fractionBits

/-- The number of finite magnitudes. The rank of infinity would be the next one. -/
def bound (f : Format) : Nat := (twoPow f.exponentBits - 1) * f.fractions

/-- One is `2 ^ scale` units. -/
def scale (f : Format) : Nat := twoPow (f.exponentBits - 1) - 2 + f.fractionBits

/-- A power of two above every finite magnitude is `2 ^ ceiling`. -/
def ceiling (f : Format) : Nat := twoPow (f.exponentBits - 1)

/-- The magnitude of a rank, in units. Below `fractions` the rank itself counts the units. -/
def units (f : Format) (rank : Nat) : Nat :=
  if rank < f.fractions then rank
  else (f.fractions + rank % f.fractions) * twoPow (rank / f.fractions - 1)

theorem fractions_pos (f : Format) : 0 < f.fractions := twoPow_pos _

theorem units_lt_units_succ (f : Format) (rank : Nat) :
    f.units rank < f.units (rank + 1) := by
  have hpos := f.fractions_pos
  unfold units
  generalize f.fractions = p at hpos
  by_cases hr : rank < p
  · by_cases hs : rank + 1 < p
    · simp [hr, hs]
    · have : rank + 1 = p := by omega
      simp [hr, this, Nat.div_self hpos]
  · have hs : ¬ rank + 1 < p := by omega
    rw [if_neg hr, if_neg hs]
    by_cases hc : (rank + 1) % p = 0
    · -- the next exponent field
      obtain ⟨q, hq⟩ := Nat.dvd_of_mod_eq_zero hc
      have hq0 : 2 ≤ q := by
        rcases Nat.lt_or_ge q 2 with h | h
        · have few : q = 0 ∨ q = 1 := by omega
          rcases few with rfl | rfl
          · rw [Nat.mul_zero] at hq
            omega
          · rw [Nat.mul_one] at hq
            omega
        · exact h
      obtain ⟨k, rfl⟩ : ∃ k, q = k + 2 := ⟨q - 2, by omega⟩
      have hdiv : rank / p = k + 1 := by
        rw [Nat.div_eq_iff hpos]
        constructor
        · have : p * (k + 2) = (k + 1) * p + p := by grind
          omega
        · have : p * (k + 2) = (k + 1) * p + p := by grind
          omega
      have hdiv' : (rank + 1) / p = k + 2 := by
        rw [hq, Nat.mul_div_cancel_left _ hpos]
      rw [hc, hdiv, hdiv']
      have hm := Nat.mod_lt rank hpos
      have h2 : twoPow (k + 2 - 1) = 2 * twoPow (k + 1 - 1) := twoPow_succ k
      rw [h2]
      have hk : 0 < twoPow (k + 1 - 1) := twoPow_pos _
      calc (p + rank % p) * twoPow (k + 1 - 1) < (p + p) * twoPow (k + 1 - 1) :=
            Nat.mul_lt_mul_of_pos_right (by omega) hk
        _ = (p + 0) * (2 * twoPow (k + 1 - 1)) := by grind
    · -- the next fraction of the same exponent field
      have hmod : (rank + 1) % p = rank % p + 1 := by
        have := Nat.mod_lt rank hpos
        rw [Nat.add_mod]
        by_cases h1 : p = 1
        · subst h1; simp at hc; omega
        · rw [Nat.mod_eq_of_lt (show 1 < p by omega)]
          have hne : rank % p + 1 ≠ p := by
            intro h
            apply hc
            rw [Nat.add_mod, Nat.mod_eq_of_lt (show 1 < p by omega), h, Nat.mod_self]
          exact Nat.mod_eq_of_lt (by omega)
      have hdiv : (rank + 1) / p = rank / p := by
        have h1 := Nat.div_add_mod rank p
        have h2 := Nat.mod_lt rank hpos
        have h3 := Nat.mod_lt (rank + 1) hpos
        rw [Nat.div_eq_iff hpos]
        have h4 : p * (rank / p) = rank / p * p := Nat.mul_comm _ _
        constructor <;> omega
      rw [hmod, hdiv]
      exact Nat.mul_lt_mul_of_pos_right (by omega) (twoPow_pos _)

theorem units_lt_units (f : Format) {a b : Nat} (h : a < b) : f.units a < f.units b := by
  induction b with
  | zero => omega
  | succ b ih =>
    rcases Nat.lt_succ_iff_lt_or_eq.mp h with h | rfl
    · exact Nat.lt_trans (ih h) (f.units_lt_units_succ b)
    · exact f.units_lt_units_succ a

end Format

/-- A number of a binary format. -/
inductive Binary (f : Format)
  | nan
  | infinite (negative : Bool)
  | finite (negative : Bool) (rank : Fin f.bound)
  deriving DecidableEq

namespace Binary

variable {f : Format}

/-- The bit pattern: sign, exponent and fraction, the fraction in the lowest bits. NaN has the
pattern with a clear sign and only the top fraction bit set. -/
def toBits : Binary f → Nat
  | nan => f.bound + twoPow (f.fractionBits - 1)
  | infinite negative => (if negative then twoPow (f.width - 1) else 0) + f.bound
  | finite negative rank => (if negative then twoPow (f.width - 1) else 0) + rank.val

/-- The number of a bit pattern; `none` if the pattern is too wide. -/
def ofBits? (f : Format) (bits : Nat) : Option (Binary f) :=
  if bits < twoPow f.width then
    let negative := twoPow (f.width - 1) ≤ bits
    let rank := bits % twoPow (f.width - 1)
    if h : rank < f.bound then some (finite negative ⟨rank, h⟩)
    else if rank = f.bound then some (infinite negative)
    else some nan
  else none

/-- The comparison of numbers: NaN differs from every number, and the two zeros agree. -/
def same : Binary f → Binary f → Bool
  | infinite a, infinite b => a == b
  | finite a r, finite b s => r == s && (a == b || r.val == 0)
  | _, _ => false

theorem bound_lt_half (f : Format) : f.bound < twoPow (f.width - 1) := by
  have hw : f.width - 1 = f.exponentBits + f.fractionBits := by simp [Format.width]; omega
  rw [hw, Format.bound, twoPow_add, Format.fractions]
  have h₁ := twoPow_pos f.exponentBits
  have h₂ := twoPow_pos f.fractionBits
  exact Nat.mul_lt_mul_of_pos_right (by omega) h₂

theorem ofBits?_toBits (x : Binary f) (h : x ≠ nan) : ofBits? f x.toBits = some x := by
  have hb := bound_lt_half f
  have hw : twoPow f.width = twoPow (f.width - 1) + twoPow (f.width - 1) := by
    have : f.width = (f.width - 1) + 1 := by simp [Format.width]
    rw [this, twoPow_succ]
    simp only [Nat.add_sub_cancel]
    omega
  generalize hhalf : twoPow (f.width - 1) = half at hb hw
  cases x with
  | nan => exact absurd rfl h
  | infinite negative =>
    cases negative
    · simp [toBits, ofBits?, hhalf, hw, Nat.mod_eq_of_lt hb, hb]
      omega
    · simp [toBits, ofBits?, hhalf, hw, Nat.mod_eq_of_lt hb, hb]
  | finite negative rank =>
    have hr := rank.isLt
    have hlt : rank.val < half := by omega
    cases negative
    · simp [toBits, ofBits?, hhalf, hw, Nat.mod_eq_of_lt hlt, hr]
      omega
    · simp [toBits, ofBits?, hhalf, hw, Nat.mod_eq_of_lt hlt, hr]
      exact hlt

end Binary

end FixedInit
