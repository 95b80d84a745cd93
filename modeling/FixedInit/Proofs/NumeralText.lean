/-
Integers and finite numbers are laid out as JSON numbers.

* `written_ofInt` : the numeral of an integer;
* `shortest_ne_zero` : the shortest decimal of a number other than zero is not zero;
* `written_finite` : the numeral of a finite number, in any layout.

Design notes: only a leading zero could go wrong, in a decimal of which zeros are appended to
the digits. The search for the shortest decimal cannot end on zero, since zero rounds to zero
and the last grid of the search has no step above the smallest magnitude.
-/
import FixedInit.Binary.Shortest
import FixedInit.Proofs.JsonText

namespace FixedInit

theorem Digits.ofNat_leading {n : Nat} (h : n ≠ 0) :
    ∃ d ds, Digits.ofNat n = d :: ds ∧ d.val ≠ 0 := by
  fun_induction Digits.ofNat n with
  | case1 n small => exact ⟨⟨n, small⟩, [], rfl, h⟩
  | case2 n large ih =>
    obtain ⟨d, ds, digits, leading⟩ := ih (by omega)
    rw [digits]
    exact ⟨d, _, rfl, leading⟩

theorem Digits.ofNat_ne_nil (n : Nat) : Digits.ofNat n ≠ [] := by
  by_cases h : n = 0
  · rw [h, Digits.ofNat]
    nofun
  · obtain ⟨d, ds, digits, -⟩ := Digits.ofNat_leading h
    rw [digits]
    nofun

theorem Numeral.written_ofInt (n : Int) : (Numeral.ofInt n).Written where
  leading := by
    show ((Digits.ofNat n.natAbs).length == 1 ||
        (Digits.ofNat n.natAbs).head?.any (·.val != 0)) = true
    by_cases h : n.natAbs = 0
    · rw [h, Digits.ofNat]
      rfl
    · obtain ⟨d, ds, digits, leading⟩ := Digits.ofNat_leading h
      simp [digits, leading]
  exponent := nofun

namespace Format

variable (f : Format) {rank : Nat}

theorem rankOf_zero (den : Nat) : f.rankOf 0 den = 0 := by
  simp [rankOf, nearestEven]

theorem readsBack_zero (h : rank ≠ 0) (e : Int) : f.readsBack rank 0 e = false := by
  simp [readsBack, rankOf_zero, h.symm]

/-- A multiple that is found reads back, and is one of the two next to the magnitude. -/
theorem nearestOn?_eq_some {e : Int} {count : Nat}
    (found : f.nearestOn? rank e = some count) :
    f.readsBack rank count e = true ∧ (count = (f.inGrid rank e).1 / (f.inGrid rank e).2 ∨
      count = (f.inGrid rank e).1 / (f.inGrid rank e).2 + 1) := by
  unfold nearestOn? at found
  simp only at found
  split at found
  · cases found
  · rename_i read _
    cases found
    exact ⟨read, .inl rfl⟩
  · rename_i read
    cases found
    exact ⟨read, .inr rfl⟩
  · rename_i read read_next
    split at found
    · cases found
      exact ⟨read, .inl rfl⟩
    · cases found
      exact ⟨read_next, .inr rfl⟩

theorem nearestOn?_ne_zero (h : rank ≠ 0) {e : Int} {count : Nat}
    (found : f.nearestOn? rank e = some count) :
    count ≠ 0 := by
  rintro rfl
  have read := (f.nearestOn?_eq_some found).1
  rw [f.readsBack_zero h] at read
  cases read

/-- On the last grid of the search there are at least as many steps as units. -/
theorem inGrid_ne_zero (h : rank ≠ 0) {e : Int} (far : (f.scale : Int) ≤ -e) :
    (f.inGrid rank e).1 / (f.inGrid rank e).2 ≠ 0 := by
  have some_units : 0 < f.units rank :=
    Nat.zero_lt_of_lt (f.units_lt_units (Nat.pos_of_ne_zero h))
  have small : twoPow f.scale ≤ tenPow (-e).toNat :=
    Nat.le_trans (twoPow_le_twoPow (by omega)) (Nat.pow_le_pow_left (by decide) _)
  have plain : e.toNat = 0 := by omega
  rw [inGrid, plain, tenPow_zero, Nat.mul_one]
  refine Nat.ne_of_gt (Nat.div_pos ?_ (twoPow_pos _))
  exact Nat.le_trans small (Nat.le_mul_of_pos_left _ some_units)

theorem shortestFrom_ne_zero (h : rank ≠ 0) {steps : Nat} {e : Int}
    (far : (f.scale : Int) ≤ steps - e) : (f.shortestFrom rank steps e).1 ≠ 0 := by
  induction steps generalizing e with
  | zero => exact f.inGrid_ne_zero h (by omega)
  | succ steps ih =>
    rw [shortestFrom]
    split
    · rename_i found
      exact f.nearestOn?_ne_zero h found
    · exact ih (by omega)

theorem shortest_ne_zero (h : rank ≠ 0) : (f.shortest rank).1 ≠ 0 := by
  refine f.shortestFrom_ne_zero h ?_
  omega

end Format

namespace Layout

theorem written_numeral (layout : Layout) (negative : Bool) {significand : Nat}
    (h : significand ≠ 0) (exponent : Int) :
    (layout.numeral negative (Digits.ofNat significand) exponent).Written := by
  obtain ⟨d, ds, digits, leading⟩ := Digits.ofNat_leading h
  have not_zero : (d.val != 0) = true := by simpa using leading
  rw [digits]
  unfold numeral
  simp only
  split
  · split
    · exact ⟨by simp [not_zero], nofun⟩
    · split
      · rename_i some_digit
        -- at least one digit stands in front of the point
        obtain ⟨before, count⟩ : ∃ before, (exponent + (d :: ds).length).toNat = before + 1 :=
          ⟨_, (Nat.succ_pred_eq_of_pos (by omega)).symm⟩
        refine ⟨?_, nofun⟩
        simp only [count, List.take_succ_cons, List.head?_cons, Option.any_some,
          not_zero, Bool.or_true]
      · exact ⟨rfl, nofun⟩
  · refine ⟨rfl, ?_⟩
    rintro _ _ eq
    cases eq
    exact Digits.ofNat_ne_nil _

/-- The numeral of a finite number is laid out as numbers are. -/
theorem written_finite (layout : Layout) {f : Format} (negative : Bool) (rank : Fin f.bound) :
    (layout.finite negative rank).Written := by
  unfold finite
  split
  · exact ⟨rfl, nofun⟩
  · rename_i some_units
    exact layout.written_numeral negative (f.shortest_ne_zero some_units) _

end Layout

end FixedInit
