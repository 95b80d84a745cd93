/-
Which texts are decimal literals of a real number, and the exact number that each of them
writes.

* `trim_padded`, `padded_trim` : what is left of a text without the blanks around it;
* `decimal?_eq_some_iff` : the decimals of texts without a sign, by the grammar of their
  parts;
* `read_decimal_iff` : a text is read as a decimal exactly if it writes one, and then as the
  number that it writes.

Design notes: the grammar is a relation for each part of a literal, and gives the number as a
rational. The reader takes as many digits as it can before it looks for a point or an
exponent; no part of the grammar starts with a digit after digits, so it cannot take too many.
-/
import FixedInit.Proofs.IntegerText
import FixedInit.Proofs.Rounding
import Mathlib.Data.List.TakeWhile

namespace FixedInit

/-! ### Blanks -/

namespace Text

/-- A text is another one with blanks around it. -/
def Padded (cs core : List Char) : Prop :=
  ∃ before after, (∀ c ∈ before, isBlank c = true) ∧ (∀ c ∈ after, isBlank c = true) ∧
    cs = before ++ core ++ after

theorem dropWhile_blank {before rest : List Char} (blank : ∀ c ∈ before, isBlank c = true)
    (stop : ∀ c ∈ rest.head?, isBlank c = false) :
    (before ++ rest).dropWhile isBlank = rest := by
  rw [List.dropWhile_append_of_pos blank]
  cases rest with
  | nil => rfl
  | cons c rest => exact List.dropWhile_cons_of_neg (by simp [stop c rfl])

theorem trim_padded {cs core : List Char} (padded : Padded cs core) (some_char : core ≠ [])
    (plain : ∀ c ∈ core, isBlank c = false) : trim cs = core := by
  obtain ⟨before, after, blank_before, blank_after, rfl⟩ := padded
  have first : ∀ c ∈ (core ++ after).head?, isBlank c = false := by
    intro c hc
    rw [List.head?_append_of_ne_nil _ some_char] at hc
    exact plain c (List.mem_of_mem_head? hc)
  have last : ∀ c ∈ core.reverse.head?, isBlank c = false := by
    intro c hc
    exact plain c (List.mem_reverse.mp (List.mem_of_mem_head? hc))
  rw [trim, List.append_assoc, dropWhile_blank blank_before first, List.reverse_append,
    dropWhile_blank (by simpa using blank_after) last, List.reverse_reverse]

theorem padded_trim (cs : List Char) : Padded cs (trim cs) := by
  have blank_taken (l : List Char) : ∀ c ∈ l.takeWhile isBlank, isBlank c = true :=
    fun c hc => List.mem_takeWhile_imp hc
  refine ⟨cs.takeWhile isBlank, ((cs.dropWhile isBlank).reverse.takeWhile isBlank).reverse,
    blank_taken _, by simpa using blank_taken _, ?_⟩
  rw [trim, List.append_assoc, ← List.reverse_append, List.takeWhile_append_dropWhile,
    List.reverse_reverse, List.takeWhile_append_dropWhile]

end Text

/-! ### The grammar of a decimal -/

/-- Digits behind a point, or nothing at all. -/
inductive FractionText : List Digit → List Char → Prop
  | none : FractionText [] []
  | point (digits : List Digit) : FractionText digits ('.' :: Digits.text digits)

/-- An exponent: a letter, an optional sign and one or more digits, or nothing at all for
zero. -/
inductive ExponentText : Int → List Char → Prop
  | none : ExponentText 0 []
  | power {letter : Char} {cs : List Char} {negative : Bool}
      {digits : List Digit} (is_letter : letter = 'e' ∨ letter = 'E')
      (parts : SignParts cs negative (Digits.text digits)) (some_digit : digits ≠ []) :
      ExponentText (Digits.signed negative digits) (letter :: cs)

/-- A decimal without a sign: digits with an optional point, at least one on either side of
it, and an optional exponent. -/
structure DecimalText (cs : List Char) (whole fraction : List Digit)
    (exponent : Int) : Prop where
  some_digit : whole ≠ [] ∨ fraction ≠ []
  text : ∃ point power, FractionText fraction point ∧ ExponentText exponent power ∧
    cs = Digits.text whole ++ point ++ power

/-- A text writes a decimal: a number with a sign, blanks around it aside. -/
def WritesDecimal (cs : List Char) (negative : Bool) (q : ℚ) : Prop :=
  ∃ core unsigned whole fraction exponent, Text.Padded cs core ∧
    SignParts core negative unsigned ∧
    DecimalText unsigned whole fraction exponent ∧
    q = (if negative then -1 else 1) *
      (Digits.value whole + Digits.value fraction / 10 ^ fraction.length) * 10 ^ exponent

/-- The number that a decimal stands for. -/
def Decimal.value (d : Decimal) : ℚ :=
  (if d.negative then -1 else 1) * d.significand * 10 ^ d.exponent

/-! ### Reading the parts -/

theorem takeDigits_eq {cs rest : List Char} {digits : List Digit}
    (h : takeDigits cs = (digits, rest)) :
    cs = Digits.text digits ++ rest ∧ ∀ c ∈ rest.head?, Digit.ofChar? c = none := by
  induction cs generalizing digits rest with
  | nil =>
    cases h
    exact ⟨rfl, by simp⟩
  | cons c cs ih =>
    rw [takeDigits] at h
    split at h
    · rename_i d digit
      cases h
      obtain ⟨text, stop⟩ := ih rfl
      refine ⟨?_, stop⟩
      rw [Digit.eq_toChar digit]
      exact congrArg (d.toChar :: ·) text
    · rename_i non_digit
      cases h
      exact ⟨rfl, by simpa using non_digit⟩

theorem ExponentText.head {exponent : Int} {cs : List Char} (h : ExponentText exponent cs) :
    ∀ c ∈ cs.head?, c = 'e' ∨ c = 'E' := by
  cases h with
  | none => simp
  | power is_letter _ _ => simpa using is_letter

/-- Neither a point nor the letter of an exponent is a digit. -/
theorem not_digit_of_parts {point power : List Char} {digits : List Digit} {exponent : Int}
    (fraction : FractionText digits point) (exp : ExponentText exponent power) :
    ∀ c ∈ (point ++ power).head?, Digit.ofChar? c = none := by
  intro c hc
  cases fraction with
  | none =>
    rcases exp.head c hc with rfl | rfl
    · decide
    · decide
  | point digits =>
    cases hc
    decide

namespace RealLiteral

theorem takeSign_eq_iff {cs after : List Char} {negative : Bool} :
    takeSign cs = (negative, after) ↔ SignParts cs negative after := by
  constructor
  · intro h
    unfold takeSign at h
    split at h
    · cases h
      exact .minus _
    · cases h
      exact .plus _
    · rename_i not_minus not_plus
      cases h
      refine .bare fun c hc => ?_
      obtain ⟨rest, rfl⟩ := List.head?_eq_some_iff.mp hc
      refine ⟨?_, ?_⟩
      · rintro rfl
        exact not_plus rest rfl
      · rintro rfl
        exact not_minus rest rfl
  · intro h
    cases h with
    | minus => rfl
    | plus => rfl
    | bare unsigned =>
      unfold takeSign
      split
      · exact absurd rfl (unsigned '-' rfl).2
      · exact absurd rfl (unsigned '+' rfl).1
      · rfl

theorem takeFraction_eq {cs rest : List Char} {digits : List Digit}
    (h : takeFraction cs = (digits, rest)) :
    ∃ point, FractionText digits point ∧ cs = point ++ rest := by
  unfold takeFraction at h
  split at h
  · obtain ⟨rfl, -⟩ := takeDigits_eq h
    exact ⟨_, .point digits, rfl⟩
  · cases h
    exact ⟨[], .none, rfl⟩

theorem takeFraction_append {point power : List Char} {digits : List Digit} {exponent : Int}
    (fraction : FractionText digits point) (exp : ExponentText exponent power) :
    takeFraction (point ++ power) = (digits, power) := by
  cases fraction with
  | none =>
    rw [List.nil_append]
    unfold takeFraction
    split
    · -- an exponent does not start with a point
      have := exp.head '.' rfl
      simp at this
    · rfl
  | point digits =>
    show takeDigits (Digits.text digits ++ power) = _
    exact takeDigits_text_append digits (not_digit_of_parts .none exp)

theorem exponent?_eq_some_iff {cs : List Char} {exponent : Int} :
    exponent? cs = some exponent ↔ ExponentText exponent cs := by
  constructor
  · intro h
    cases cs with
    | nil =>
      cases h
      exact .none
    | cons letter cs =>
      rw [exponent?] at h
      split at h
      · rename_i is_letter
        generalize signs : takeSign cs = parts at h
        obtain ⟨negative, after⟩ := parts
        simp only at h
        split at h
        · rename_i d ds digits
          obtain ⟨rfl, -⟩ := takeDigits_eq digits
          rw [List.append_nil] at signs
          cases h
          exact .power is_letter (takeSign_eq_iff.mp signs) (List.cons_ne_nil d ds)
        · cases h
      · cases h
  · intro h
    cases h with
    | none => rfl
    | @power letter cs negative digits is_letter parts some_digit =>
      obtain ⟨d, ds, rfl⟩ := List.exists_cons_of_ne_nil some_digit
      rw [exponent?, if_pos is_letter, takeSign_eq_iff.mpr parts]
      simp only [Digits.takeDigits_text]
      rfl

theorem decimal?_eq_some_iff {negative : Bool} {cs : List Char} {d : Decimal} :
    decimal? negative cs = some d ↔ ∃ whole fraction exponent,
      DecimalText cs whole fraction exponent ∧
      d = ⟨negative, Digits.value (whole ++ fraction), exponent - fraction.length⟩ := by
  constructor
  · intro h
    unfold decimal? at h
    generalize wholes : takeDigits cs = parts at h
    obtain ⟨whole, rest⟩ := parts
    simp only at h
    generalize fractions : takeFraction rest = parts at h
    obtain ⟨fraction, power⟩ := parts
    simp only at h
    split at h
    · cases h
    · rename_i some_digit
      obtain ⟨exponent, exp, rfl⟩ := Option.map_eq_some_iff.mp h
      obtain ⟨rfl, -⟩ := takeDigits_eq wholes
      obtain ⟨point, fraction_text, rfl⟩ := takeFraction_eq fractions
      refine ⟨whole, fraction, exponent, ⟨?_, point, power, fraction_text, ?_, ?_⟩, rfl⟩
      · simpa [imp_iff_not_or] using some_digit
      · exact exponent?_eq_some_iff.mp exp
      · rw [List.append_assoc]
  · rintro ⟨whole, fraction, exponent,
      ⟨some_digit, point, power, fraction_text, exp, rfl⟩, rfl⟩
    have wholes : takeDigits (Digits.text whole ++ point ++ power) =
        (whole, point ++ power) := by
      rw [List.append_assoc]
      exact takeDigits_text_append whole (not_digit_of_parts fraction_text exp)
    have some : ¬ (whole.isEmpty && fraction.isEmpty) = true := by
      simpa [imp_iff_not_or] using some_digit
    unfold decimal?
    simp only [wholes, takeFraction_append fraction_text exp, exponent?_eq_some_iff.mpr exp]
    rw [if_neg some]
    rfl

theorem special?_ne_decimal {negative : Bool} {cs : List Char} {d : Decimal} :
    special? negative cs ≠ some (decimal d) := by
  unfold special?
  simp only
  split
  · nofun
  · split
    · nofun
    · nofun

/-- A text is read as a decimal if a decimal follows its sign, blanks aside. -/
theorem read_eq_decimal_iff {cs : List Char} {d : Decimal} :
    read cs = .ok (decimal d) ↔
      Text.trim cs ≠ [] ∧
      decimal? (takeSign (Text.trim cs)).1 (takeSign (Text.trim cs)).2 = some d := by
  unfold read
  split
  · rename_i blank
    exact iff_of_false nofun fun h => h.1 blank
  · rename_i core some_char
    rw [and_iff_right some_char]
    simp only
    split
    · rename_i value found
      rw [found]
      simp
    · rename_i not_decimal
      rw [not_decimal]
      refine iff_of_false (fun run => ?_) nofun
      split at run
      · rename_i special
        cases run
        exact special?_ne_decimal special
      · cases run

end RealLiteral

/-! ### Whole literals -/

theorem Decimal.value_of_parts (negative : Bool) (whole fraction : List Digit)
    (exponent : Int) :
    Decimal.value ⟨negative, Digits.value (whole ++ fraction), exponent - fraction.length⟩ =
      (if negative then -1 else 1) *
        (Digits.value whole + Digits.value fraction / 10 ^ fraction.length) *
        10 ^ exponent := by
  have power : (tenPow fraction.length : ℚ) = 10 ^ fraction.length := Nat.cast_pow 10 _
  rw [value, Digits.value_append, zpow_sub₀ (by norm_num), zpow_natCast]
  push_cast [power]
  field_simp

theorem isBlank_toChar (d : Digit) : Text.isBlank d.toChar = false := by
  revert d
  decide

theorem isBlank_of_mem_text {digits : List Digit} {c : Char} (h : c ∈ Digits.text digits) :
    Text.isBlank c = false := by
  obtain ⟨d, -, rfl⟩ := List.mem_map.mp h
  exact isBlank_toChar d

theorem SignParts.plain {cs after : List Char} {negative : Bool}
    (parts : SignParts cs negative after) (plain : ∀ c ∈ after, Text.isBlank c = false) :
    ∀ c ∈ cs, Text.isBlank c = false := by
  cases parts with
  | minus => exact List.forall_mem_cons.mpr ⟨by decide, plain⟩
  | plus => exact List.forall_mem_cons.mpr ⟨by decide, plain⟩
  | bare => exact plain

theorem DecimalText.plain {cs : List Char} {whole fraction : List Digit} {exponent : Int}
    (h : DecimalText cs whole fraction exponent) : ∀ c ∈ cs, Text.isBlank c = false := by
  obtain ⟨point, power, fraction_text, exp, rfl⟩ := h.text
  intro c hc
  rw [List.mem_append, List.mem_append] at hc
  rcases hc with (hc | hc) | hc
  · exact isBlank_of_mem_text hc
  · cases fraction_text with
    | none => cases hc
    | point digits =>
      rcases List.mem_cons.mp hc with rfl | hc
      · decide
      · exact isBlank_of_mem_text hc
  · cases exp with
    | none => cases hc
    | power is_letter parts _ =>
      rcases List.mem_cons.mp hc with rfl | hc
      · rcases is_letter with rfl | rfl
        · decide
        · decide
      · exact parts.plain (fun c hc => isBlank_of_mem_text hc) c hc

theorem DecimalText.ne_nil {cs : List Char} {whole fraction : List Digit} {exponent : Int}
    (h : DecimalText cs whole fraction exponent) : cs ≠ [] := by
  obtain ⟨point, power, fraction_text, -, rfl⟩ := h.text
  intro nothing
  rw [List.append_eq_nil_iff, List.append_eq_nil_iff] at nothing
  obtain ⟨⟨no_whole, rfl⟩, -⟩ := nothing
  cases fraction_text with
  | none =>
    exact h.some_digit.elim (fun some => some (List.map_eq_nil_iff.mp no_whole))
      (fun some => some rfl)

/-- A text that starts with a digit has no sign. -/
theorem not_sign_of_text {digits : List Digit} (some_digit : digits ≠ []) (rest : List Char) :
    ∀ c ∈ (Digits.text digits ++ rest).head?, c ≠ '+' ∧ c ≠ '-' := by
  obtain ⟨d, ds, rfl⟩ := List.exists_cons_of_ne_nil some_digit
  have plain : ∀ d : Digit, d.toChar ≠ '+' ∧ d.toChar ≠ '-' := by decide
  rintro c ⟨⟩
  exact plain d

theorem SignParts.ne_nil {cs after : List Char} {negative : Bool}
    (parts : SignParts cs negative after) (some_char : after ≠ []) : cs ≠ [] := by
  cases parts with
  | minus => nofun
  | plus => nofun
  | bare => exact some_char

/-- **The texts that are read as decimals.** A text writes a decimal exactly if it is read as
one, which then has the sign and the number that the text writes. -/
theorem writesDecimal_iff {cs : List Char} {negative : Bool} {q : ℚ} :
    WritesDecimal cs negative q ↔
      ∃ d, RealLiteral.read cs = .ok (.decimal d) ∧ d.negative = negative ∧ d.value = q := by
  constructor
  · rintro ⟨core, unsigned, whole, fraction, exponent, padded, sign, text, rfl⟩
    have trimmed : Text.trim cs = core :=
      Text.trim_padded padded (sign.ne_nil text.ne_nil) (sign.plain text.plain)
    refine ⟨⟨negative, Digits.value (whole ++ fraction), exponent - fraction.length⟩, ?_, rfl,
      Decimal.value_of_parts ..⟩
    rw [RealLiteral.read_eq_decimal_iff, trimmed, RealLiteral.takeSign_eq_iff.mpr sign]
    exact ⟨sign.ne_nil text.ne_nil, RealLiteral.decimal?_eq_some_iff.mpr ⟨_, _, _, text, rfl⟩⟩
  · rintro ⟨d, run, rfl, rfl⟩
    obtain ⟨-, found⟩ := RealLiteral.read_eq_decimal_iff.mp run
    obtain ⟨whole, fraction, exponent, text, rfl⟩ := RealLiteral.decimal?_eq_some_iff.mp found
    refine ⟨Text.trim cs, _, whole, fraction, exponent, Text.padded_trim cs,
      RealLiteral.takeSign_eq_iff.mp rfl, text, Decimal.value_of_parts ..⟩

end FixedInit
