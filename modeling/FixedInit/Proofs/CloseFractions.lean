/-
All fractions of small denominators in a window.

Between two fractions whose cross products differ by one every fraction has a denominator of
at least the sum of theirs, and the fraction with that denominator is their mediant. So the
fractions of a window are found by splitting the gap around it at mediants, until the
denominators are too large.

* `add_le_of_between` : the denominators between two neighbours;
* `exists_of_all` : a test that is passed throughout the search is passed by every fraction of
  the window in lowest terms.
-/
import Mathlib.Tactic.Linarith
import Mathlib.Tactic.Ring

namespace FixedInit

/-- Two fractions `a / b` and `c / d` are neighbours. -/
def Neighbours (a b c d : ℕ) : Prop :=
  b * c = a * d + 1

namespace Neighbours

variable {a b c d x y : ℕ}

theorem mediant_right (h : Neighbours a b c d) : Neighbours a b (a + c) (b + d) := by
  unfold Neighbours at *
  linarith

theorem mediant_left (h : Neighbours a b c d) : Neighbours (a + c) (b + d) c d := by
  unfold Neighbours at *
  linarith

/-- Between two neighbours the denominators are at least the sum of theirs. -/
theorem add_le_of_between (h : Neighbours a b c d) (left : a * y < x * b)
    (right : x * d < c * y) :
    b + d ≤ y := by
  have from_left : d * (a * y + 1) ≤ d * (x * b) := Nat.mul_le_mul_left d left
  have from_right : b * (x * d + 1) ≤ b * (c * y) := Nat.mul_le_mul_left b right
  have whole : b * (c * y) = a * d * y + y := by
    rw [← Nat.mul_assoc, h]
    ring
  linarith

/-- A fraction that is equal to the upper one of two neighbours is a multiple of it. -/
theorem exists_multiple (h : Neighbours a b c d) (left : a * y < x * b)
    (same : x * d = c * y) :
    ∃ k, y = k * d := by
  obtain ⟨k, step⟩ := Nat.exists_eq_add_of_lt left
  refine ⟨k + 1, ?_⟩
  have scaled : x * b * d = (a * y + k + 1) * d := by rw [step]
  have whole : x * b * d = a * d * y + y := by
    calc x * b * d = b * (x * d) := by ring
      _ = b * c * y := by rw [same, Nat.mul_assoc]
      _ = a * d * y + y := by rw [h]; ring
  linarith

end Neighbours

/-- A closed window between two quotients. -/
structure Window where
  lowNum : ℕ
  lowDen : ℕ
  highNum : ℕ
  highDen : ℕ

namespace Window

/-- A fraction lies in the window. -/
structure Contains (w : Window) (x y : ℕ) : Prop where
  low : w.lowNum * y ≤ x * w.lowDen
  high : x * w.highDen ≤ w.highNum * y

variable {w : Window} {p q x y : ℕ}

theorem Contains.lt_of_below (inside : w.Contains x y) (positive : 0 < y)
    (below : p * w.lowDen < w.lowNum * q) :
    p * y < x * q := by
  refine Nat.lt_of_mul_lt_mul_right (a := w.lowDen) ?_
  calc p * y * w.lowDen = p * w.lowDen * y := by ring
    _ < w.lowNum * q * y := Nat.mul_lt_mul_of_pos_right below positive
    _ = q * (w.lowNum * y) := by ring
    _ ≤ q * (x * w.lowDen) := Nat.mul_le_mul_left q inside.low
    _ = x * q * w.lowDen := by ring

theorem Contains.lt_of_above (inside : w.Contains x y) (positive : 0 < y)
    (above : w.highNum * q < p * w.highDen) :
    x * q < p * y := by
  refine Nat.lt_of_mul_lt_mul_right (a := w.highDen) ?_
  calc x * q * w.highDen = q * (x * w.highDen) := by ring
    _ ≤ q * (w.highNum * y) := Nat.mul_le_mul_left q inside.high
    _ = w.highNum * q * y := by ring
    _ < p * w.highDen * y := Nat.mul_lt_mul_of_pos_right above positive
    _ = p * y * w.highDen := by ring

/-- Whether all denominators below a bound pass a test, of the fractions of the window in
lowest terms that lie between two neighbours. -/
def all (w : Window) (bound : ℕ) (test : ℕ → Bool) : ℕ → ℕ → ℕ → ℕ → ℕ → Bool
  | 0, _, _, _, _ => false
  | fuel + 1, a, b, c, d =>
    if bound ≤ b + d then true
    else if (a + c) * w.lowDen < w.lowNum * (b + d) then
      w.all bound test fuel (a + c) (b + d) c d
    else if w.highNum * (b + d) < (a + c) * w.highDen then
      w.all bound test fuel a b (a + c) (b + d)
    else test (b + d) && w.all bound test fuel a b (a + c) (b + d) &&
      w.all bound test fuel (a + c) (b + d) c d

variable {bound fuel a b c d : ℕ} {test : ℕ → Bool}

/-- A fraction of the window is a multiple of one whose denominator has passed the test. -/
theorem exists_of_all (neighbours : Neighbours a b c d)
    (passed : w.all bound test fuel a b c d = true) (left : a * y < x * b)
    (right : x * d < c * y) (small : y < bound) (inside : w.Contains x y) :
    ∃ k q, y = k * q ∧ test q = true := by
  induction fuel generalizing a b c d with
  | zero => cases passed
  | succ fuel ih =>
    have positive : 0 < y := Nat.pos_of_mul_pos_left (Nat.zero_lt_of_lt right)
    have between := neighbours.add_le_of_between left right
    rw [all, if_neg (by omega)] at passed
    split at passed
    · -- the mediant lies below the window
      rename_i below
      exact ih neighbours.mediant_left passed (inside.lt_of_below positive below) right
    split at passed
    · rename_i above
      exact ih neighbours.mediant_right passed left (inside.lt_of_above positive above)
    rw [Bool.and_eq_true, Bool.and_eq_true] at passed
    obtain ⟨⟨here, lower⟩, upper⟩ := passed
    rcases Nat.lt_trichotomy (x * (b + d)) ((a + c) * y) with less | same | greater
    · exact ih neighbours.mediant_right lower left less
    · obtain ⟨k, multiple⟩ := neighbours.mediant_right.exists_multiple left same
      exact ⟨k, b + d, multiple, here⟩
    · exact ih neighbours.mediant_left upper greater right

end Window

end FixedInit
