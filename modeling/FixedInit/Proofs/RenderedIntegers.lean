/-
The rendering of an integer literal is an integer literal of the same number, or is refused
for its size.

* `read_decimalText` : the decimal text of an integer is read in the widths that the integer
  fits;
* `read_decimalText_of_out_of_range` : in the other widths it is refused on the side on which
  it is out of range;
* `rendered_integers` : so it is for the fields of all integer types.

Design notes: the digits of a decimal text only take its value further from zero, so a reader
that stops at the first value out of range stops on the side on which the whole number lies.
-/
import FixedInit.Proofs.NumeralDecimal

namespace FixedInit

variable {bits : Nat} {n : Int}

/-- A decimal text is a minus sign or nothing, and the digits of the number without its
sign. -/
theorem signParts_decimalText (n : Int) :
    SignParts (decimalText n) (n < 0) (Digits.text (Digits.ofNat n.natAbs)) := by
  rw [decimalText]
  by_cases negative : n < 0
  · rw [if_pos negative, decide_eq_true negative]
    exact .minus _
  · rw [if_neg negative, decide_eq_false negative, List.nil_append]
    have plain := not_sign_of_text (Digits.ofNat_ne_nil n.natAbs) []
    rw [List.append_nil] at plain
    exact .bare plain

namespace IntegerLiteral

theorem writes_decimalText (n : Int) : Writes (decimalText n) n :=
  ⟨n < 0, Digits.ofNat n.natAbs, signParts_decimalText n, Digits.ofNat_ne_nil _,
    (Digits.signed_ofNat_natAbs n).symm⟩

/-- Digits of a number out of range are refused on the side on which the number lies. -/
theorem addDigits_of_out_of_range {negative : Bool} {digits : List Digit}
    (out : ¬ InRange bits (Digits.signed negative digits)) :
    addDigits negative (.zero : Signed bits) (Digits.text digits) =
      .error (if negative then .tooSmall else .tooLarge) := by
  obtain ⟨m, others, run, same, total⟩ | ⟨defect, others, c, rest, run, same, -, stops⟩ :=
    addDigits_spec (.zero : Signed bits) (Digits.signed_nil negative).symm
      (Digits.text digits)
  · rw [List.nil_append, ← Digits.text_inj same] at total
    exact absurd (total ▸ inRange_val m) out
  · rw [run]
    rcases stops with ⟨non_digit, -⟩ | ⟨d, -, -, rfl⟩
    · have written : c ∈ Digits.text digits := by simp [same]
      exact absurd non_digit (Digits.ofChar?_of_mem_text written)
    · rfl

/-- A number that is in range is read back from its decimal text. -/
theorem read_decimalText (n : Signed bits) : read bits (decimalText n.val) = .ok n :=
  read_eq_ok_iff.mpr (writes_decimalText n.val)

/-- A number that is out of range is refused as too small or too large. -/
theorem read_decimalText_of_out_of_range (out : ¬ InRange bits n) :
    read bits (decimalText n) = .error (if n < 0 then .tooSmall else .tooLarge) := by
  have some_char : Digits.text (Digits.ofNat n.natAbs) ≠ [] := by
    simpa [Digits.text] using Digits.ofNat_ne_nil n.natAbs
  rw [← Digits.signed_ofNat_natAbs n] at out
  rw [read_of_parts (signParts_decimalText n) some_char, addDigits_of_out_of_range out]
  simp only [decide_eq_true_eq]

/-- The reason for which a number out of range is refused. -/
theorem message_of_out_of_range (out : ¬ InRange bits n) :
    Defect.message (if n < 0 then .tooSmall else .tooLarge) =
      if 0 < n then "number too large to fit in target type"
        else "number too small to fit in target type" := by
  have nonzero : n ≠ 0 := by
    rintro rfl
    exact out (inRange_val .zero)
  by_cases positive : 0 < n
  · rw [if_neg (by omega), if_pos positive]
    rfl
  · rw [if_pos (by omega), if_neg positive]
    rfl

end IntegerLiteral

namespace Literal

open IntegerLiteral

/-- **Rendered integers are read back.** A field of 8, 16 or 32 bits that is given the
rendering of a 32-bit literal gets the literal back if its number is in the range of the
field, and otherwise refuses the text as a number too large if it is positive and too small if
it is negative. The rendering of a 64-bit literal is a text and `_i64`, and a field of 64 bits
that is given the text gets the literal back. -/
theorem rendered_integers (field : String) :
    (∀ width bits name, (width, bits, name) ∈ [(IntWidth.byte, 8, "Byte"),
        (IntWidth.short, 16, "Short"), (IntWidth.int, 32, "Integer")] →
      ∀ n : Signed 32,
        (InRange bits n.val → narrowInt field width (Expr.int n).render = .ok (.int n)) ∧
        (¬ InRange bits n.val → narrowInt field width (Expr.int n).render =
          .error (.invalidInteger field name (Expr.int n).render
            (if 0 < n.val then "number too large to fit in target type"
              else "number too small to fit in target type")))) ∧
    ∀ n : Signed 64, ∃ digits, (Expr.long n).render = digits ++ "_i64" ∧
      wideInt field digits = .ok (.long n) := by
  refine ⟨fun width bits name listed n => ?_,
    fun n => ⟨String.ofList (decimalText n.val), ?_, ?_⟩⟩
  · obtain ⟨rfl, rfl⟩ : bits = width.bits ∧ name = width.typeName := by
      cases width <;> simpa [IntWidth.bits, IntWidth.typeName] using listed
    rw [Expr.render, narrowInt_eq, ofWidth, String.toList_ofList]
    constructor
    · intro range
      obtain ⟨lower, upper⟩ := inRange_iff.mp range
      have read := read_decimalText (⟨n.val, lower, upper⟩ : Signed width.bits)
      rw [read]
      rfl
    · intro out
      rw [read_decimalText_of_out_of_range out, ← message_of_out_of_range out]
      rfl
  · rw [Expr.render]
  · rw [wideInt_eq, ofWidth, String.toList_ofList, read_decimalText]
    rfl

/-- The least 32-bit number is read back at its width, and is too small for 16 bits. -/
theorem least_is_read_back :
    let least : Signed 32 := ⟨-2147483648, by decide, by decide⟩
    narrowInt "count" .int (Expr.int least).render = .ok (.int least) ∧
      narrowInt "count" .short (Expr.int least).render =
        .error (.invalidInteger "count" "Short" (Expr.int least).render
          "number too small to fit in target type") := by
  intro least
  have fits : InRange 32 least.val := ⟨by decide, by decide⟩
  have exceeds : ¬ InRange 16 least.val := fun range => absurd range.1 (by decide)
  obtain ⟨narrow, -⟩ := rendered_integers "count"
  exact ⟨(narrow .int 32 "Integer" (by simp) least).1 fits,
    (narrow .short 16 "Short" (by simp) least).2 exceeds⟩

end Literal

end FixedInit
