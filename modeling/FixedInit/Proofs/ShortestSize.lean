/-
The size of a shortest decimal.

* `shortest_spec` : the grid of a shortest decimal has it nearest, and the next coarser grid
  has none that reads back;
* `shortest_le` : the significand of a shortest decimal is bounded by the width of the format.

Design notes: on a grid that is finer than the step in front of a rank one of the two
neighbours is closer to the rank than half that step, and reads back. So the step is no longer
than ten steps of the grid on which the search ends.
-/
import FixedInit.Proofs.RoundingError

namespace FixedInit

/-! ### The number of digits -/

namespace Digits

theorem lt_tenPow_length (n : ℕ) : n < tenPow (ofNat n).length := by
  fun_induction ofNat n with
  | case1 n small => exact small
  | case2 n large ih =>
    rw [List.length_append, List.length_singleton, tenPow_succ]
    omega

/-- Digits with zeros behind them. -/
theorem mul_tenPow_lt {n zeros places : ℕ} (few : (ofNat n).length + zeros ≤ places) :
    n * tenPow zeros < tenPow places :=
  calc n * tenPow zeros < tenPow (ofNat n).length * tenPow zeros :=
        Nat.mul_lt_mul_of_pos_right (lt_tenPow_length n) (Nat.pow_pos (by decide))
    _ = tenPow ((ofNat n).length + zeros) := (Nat.pow_add 10 _ _).symm
    _ ≤ tenPow places := Nat.pow_le_pow_right (by decide) few

theorem tenPow_length_le {n : ℕ} (h : n ≠ 0) : tenPow (ofNat n).length ≤ 10 * n := by
  fun_induction ofNat n with
  | case1 n small =>
    rw [List.length_singleton, tenPow_succ, tenPow_zero]
    omega
  | case2 n large ih =>
    have := ih (by omega)
    rw [List.length_append, List.length_singleton, tenPow_succ]
    omega

end Digits

theorem cast_tenPow (n : ℕ) : (tenPow n : ℚ) = 10 ^ n :=
  Nat.cast_pow 10 n

namespace Format

variable {f : Format} {rank : ℕ} {e : ℤ}

/-! ### The search -/

theorem shortestFrom_spec (f : Format) (rank steps : ℕ) (e : ℤ) :
    ((f.shortestFrom rank steps e).2 = e ∨
      f.nearestOn? rank ((f.shortestFrom rank steps e).2 + 1) = none) ∧
    ((f.shortestFrom rank steps e).2 = e - steps ∨
      f.nearestOn? rank (f.shortestFrom rank steps e).2 =
        some (f.shortestFrom rank steps e).1) ∧
    (f.shortestFrom rank steps e).1 ≤ (f.inGrid rank (f.shortestFrom rank steps e).2).1 /
      (f.inGrid rank (f.shortestFrom rank steps e).2).2 + 1 := by
  induction steps generalizing e with
  | zero => exact ⟨.inl rfl, .inl (Int.sub_zero e).symm, Nat.le_succ _⟩
  | succ steps ih =>
    rw [shortestFrom]
    split
    · rename_i found
      refine ⟨.inl rfl, .inr found, ?_⟩
      rcases (f.nearestOn?_eq_some found).2 with rfl | rfl
      · exact Nat.le_succ _
      · exact Nat.le_refl _
    · rename_i missed
      obtain ⟨coarser, here, small⟩ := ih (e - 1)
      refine ⟨.inr ?_, here.imp_left fun last => by omega, small⟩
      rcases coarser with first | coarser
      · rw [first, Int.sub_add_cancel, missed]
      · exact coarser

/-- The search for the shortest decimal starts on its grid or has found nothing on the next
coarser one, and it ends on the last grid or with the multiple that is nearest on its own. -/
theorem shortest_spec (f : Format) (rank : ℕ) :
    ((f.shortest rank).2 = f.firstExponent rank ∨
      f.nearestOn? rank ((f.shortest rank).2 + 1) = none) ∧
    ((f.shortest rank).2 ≤ -f.scale ∨
      f.nearestOn? rank (f.shortest rank).2 = some (f.shortest rank).1) ∧
    (f.shortest rank).1 ≤
      (f.inGrid rank (f.shortest rank).2).1 / (f.inGrid rank (f.shortest rank).2).2 + 1 := by
  obtain ⟨coarser, here, small⟩ :=
    f.shortestFrom_spec rank (f.firstExponent rank + f.scale).toNat (f.firstExponent rank)
  exact ⟨coarser, here.imp_left fun last => by rw [shortest]; omega, small⟩

/-! ### Grids that are fine enough -/

theorem inGrid_ratio (f : Format) (rank : ℕ) (e : ℤ) :
    ((f.inGrid rank e).1 : ℚ) * (10 ^ e * 2 ^ f.scale) =
      f.units rank * (f.inGrid rank e).2 := by
  have power : (10 : ℚ) ^ e * 10 ^ (-e).toNat = 10 ^ e.toNat := by
    rw [← zpow_natCast, ← zpow_natCast, ← zpow_add₀ (by norm_num)]
    congr 1
    omega
  rw [inGrid]
  push_cast [cast_twoPow, cast_tenPow]
  rw [← power]
  ring

/-- A rank lies between two multiples of the step of a grid. -/
theorem grid_bounds (f : Format) (rank : ℕ) (e : ℤ) :
    ((f.inGrid rank e).1 / (f.inGrid rank e).2 : ℕ) * (10 ^ e * 2 ^ f.scale) ≤
      (f.units rank : ℚ) ∧
      (f.units rank : ℚ) <
        ((f.inGrid rank e).1 / (f.inGrid rank e).2 + 1 : ℕ) * (10 ^ e * 2 ^ f.scale) := by
  have ratio := f.inGrid_ratio rank e
  have some_steps : 0 < (f.inGrid rank e).2 :=
    Nat.mul_pos (twoPow_pos _) (Nat.pow_pos (by decide))
  have low := Nat.div_mul_le_self (f.inGrid rank e).1 (f.inGrid rank e).2
  have high := Nat.lt_mul_div_succ (f.inGrid rank e).1 some_steps
  generalize (f.inGrid rank e).1 / (f.inGrid rank e).2 = below at *
  have low : (below * (f.inGrid rank e).2 : ℚ) ≤ (f.inGrid rank e).1 := by exact_mod_cast low
  have high : ((f.inGrid rank e).1 : ℚ) < (f.inGrid rank e).2 * (below + 1 : ℕ) := by
    exact_mod_cast high
  have positive : (0 : ℚ) < (f.inGrid rank e).2 := by exact_mod_cast some_steps
  have step : (0 : ℚ) < 10 ^ e * 2 ^ f.scale := by positivity
  constructor
  · refine le_of_mul_le_mul_right ?_ positive
    linarith [mul_le_mul_of_nonneg_right low step.le]
  · refine lt_of_mul_lt_mul_right ?_ positive.le
    linarith [mul_lt_mul_of_pos_right high step]

theorem neither_readsBack (missed : f.nearestOn? rank e = none) :
    f.readsBack rank ((f.inGrid rank e).1 / (f.inGrid rank e).2) e = false ∧
      f.readsBack rank ((f.inGrid rank e).1 / (f.inGrid rank e).2 + 1) e = false := by
  unfold nearestOn? at missed
  simp only at missed
  split at missed
  · rename_i below above
    exact ⟨below, above⟩
  · cases missed
  · cases missed
  · split at missed <;> cases missed

/-- A grid that is finer than the step in front of a rank has a multiple that reads back. -/
theorem nearestOn?_ne_none (standard : f.Standard) {lower : ℕ}
    (fine : 10 ^ e * 2 ^ f.scale < (f.units (lower + 1) : ℚ) - f.units lower) :
    f.nearestOn? (lower + 1) e ≠ none := by
  intro missed
  obtain ⟨below_missed, above_missed⟩ := neither_readsBack missed
  obtain ⟨low, high⟩ := f.grid_bounds (lower + 1) e
  have reads {count : ℕ} (missed : f.readsBack (lower + 1) count e = false) :
      10 ^ e * 2 ^ f.scale <
        2 * |count * (10 ^ e * 2 ^ f.scale) - (f.units (lower + 1) : ℚ)| := by
    by_contra near
    rw [not_lt, ← mul_assoc] at near
    rw [(readsBack_iff standard).mpr (f.nearest_of_near (lt_of_le_of_lt near fine))] at missed
    cases missed
  -- the two neighbours are one step of the grid apart
  have below_far := reads below_missed
  have above_far := reads above_missed
  generalize (f.inGrid (lower + 1) e).1 / (f.inGrid (lower + 1) e).2 = below at *
  rw [abs_of_nonpos (by linarith)] at below_far
  rw [abs_of_nonneg (by linarith)] at above_far
  push_cast at above_far
  linarith

/-! ### The significand -/

theorem units_le_firstExponent (f : Format) {rank : ℕ} (h : rank ≠ 0) :
    (f.units rank : ℚ) ≤ 10 ^ f.firstExponent rank * 2 ^ f.scale := by
  have one := twoPow_pos f.scale
  have some_units : 0 < f.units rank :=
    Nat.zero_lt_of_lt (f.units_lt_units (Nat.pos_of_ne_zero h))
  unfold firstExponent
  simp only
  split
  · have large := Nat.lt_mul_div_succ (f.units rank) one
    have digits := Digits.lt_tenPow_length (f.units rank / twoPow f.scale)
    have : f.units rank ≤
        tenPow (Digits.ofNat (f.units rank / twoPow f.scale)).length * twoPow f.scale := by
      rw [Nat.mul_comm]
      exact large.le.trans (Nat.mul_le_mul_left _ digits)
    rw [zpow_natCast, ← cast_tenPow, ← cast_twoPow]
    exact_mod_cast this
  · rename_i small
    have quotient : twoPow f.scale / f.units rank ≠ 0 :=
      (Nat.div_pos (by omega) some_units).ne'
    have digits := Digits.tenPow_length_le quotient
    have large := Nat.div_mul_le_self (twoPow f.scale) (f.units rank)
    have : f.units rank * tenPow (Digits.ofNat (twoPow f.scale / f.units rank)).length ≤
        10 * twoPow f.scale := by
      have := Nat.mul_le_mul_left (f.units rank) digits
      rw [Nat.mul_comm] at large
      rw [Nat.mul_left_comm] at this
      exact this.trans (Nat.mul_le_mul_left _ large)
    have : (f.units rank * 10 ^ (Digits.ofNat (twoPow f.scale / f.units rank)).length : ℚ) ≤
        10 * 2 ^ f.scale := by
      rw [← cast_tenPow, ← cast_twoPow]
      exact_mod_cast this
    rw [zpow_sub₀ (by norm_num), zpow_one, zpow_natCast, div_mul_eq_mul_div,
      le_div_iff₀ (by positivity)]
    exact this

/-- The step in front of a rank is no longer than that of the grid one coarser than the grid
of its shortest decimal. -/
theorem gap_le_coarser (standard : f.Standard) (lower : ℕ) :
    (f.units (lower + 1) : ℚ) - f.units lower ≤
      10 ^ ((f.shortest (lower + 1)).2 + 1) * 2 ^ f.scale := by
  have coarser := (f.shortest_spec (lower + 1)).1
  generalize (f.shortest (lower + 1)).2 = e at coarser ⊢
  rcases coarser with rfl | missed
  · have first := f.units_le_firstExponent (Nat.succ_ne_zero lower)
    have step : (0 : ℚ) < 10 ^ f.firstExponent (lower + 1) * 2 ^ f.scale := by positivity
    have some_units : (0 : ℚ) ≤ f.units lower := Nat.cast_nonneg _
    rw [zpow_add_one₀ (by norm_num)]
    linarith
  · exact le_of_not_gt (mt (nearestOn?_ne_none standard) (not_not.mpr missed))

/-- The significand of a shortest decimal. -/
theorem shortest_le (standard : f.Standard) {rank : ℕ} (h : rank ≠ 0) :
    (f.shortest rank).1 ≤ 20 * f.fractions + 1 := by
  obtain ⟨lower, rfl⟩ := Nat.exists_eq_succ_of_ne_zero h
  refine (f.shortest_spec (lower + 1)).2.2.trans (Nat.add_le_add_right ?_ 1)
  have coarse := gap_le_coarser standard lower
  generalize (f.shortest (lower + 1)).2 = e at coarse ⊢
  have step : (0 : ℚ) < 10 ^ e * 2 ^ f.scale := by positivity
  have bounded : (f.units (lower + 1) : ℚ) ≤ 20 * f.fractions * (10 ^ e * 2 ^ f.scale) := by
    rw [zpow_add_one₀ (by norm_num)] at coarse
    calc (f.units (lower + 1) : ℚ)
        ≤ 2 * f.fractions * (f.units (lower + 1) - f.units lower) := f.le_gap lower
      _ ≤ 2 * f.fractions * (10 ^ e * 10 * 2 ^ f.scale) :=
        mul_le_mul_of_nonneg_left coarse (by positivity)
      _ = 20 * f.fractions * (10 ^ e * 2 ^ f.scale) := by ring
  have low := (f.grid_bounds (lower + 1) e).1.trans bounded
  exact_mod_cast le_of_mul_le_mul_right low step

end Format

end FixedInit
