/-
Which texts are literals of a real number at all, and what is reported of the others.

* `special?_eq_some_iff` : the words for the infinities and for NaN, in any case of their
  letters;
* `read_special_iff` : a text is read as a special value exactly if it writes one;
* `read_eq_empty_iff` : the texts that are reported as empty;
* `real_literals` : the literals of fields of either floating point type, and the failures.

Design notes: which texts are decimals, and which number each of them writes, was settled
before. No word starts with a digit or a point, so the reader, which looks for a decimal
first, does not take a word for one.
-/
import FixedInit.Proofs.RealLiterals

namespace FixedInit

/-! ### Words and literals -/

/-- A text is a word, with each letter as it is or as a capital. -/
def InAnyCase (word : String) (cs : List Char) : Prop :=
  List.Forall₂ (fun letter c => c = letter ∨ c = letter.toUpper) word.toList cs

/-- The words for a special value, behind a sign. -/
inductive SpecialText (negative : Bool) : RealLiteral → List Char → Prop
  | nan {cs : List Char} (word : InAnyCase "nan" cs) : SpecialText negative .nan cs
  | inf {cs : List Char} (word : InAnyCase "inf" cs) :
      SpecialText negative (.infinite negative) cs
  | infinity {cs : List Char} (word : InAnyCase "infinity" cs) :
      SpecialText negative (.infinite negative) cs

/-- A text writes a special value: a word with a sign or without one, blanks around it
aside. -/
def WritesSpecial (cs : List Char) (literal : RealLiteral) : Prop :=
  ∃ core negative unsigned, Text.Padded cs core ∧ SignParts core negative unsigned ∧
    SpecialText negative literal unsigned

/-- A text is a literal of a real number: it writes a special value or a decimal. -/
def IsRealText (cs : List Char) : Prop :=
  (∃ literal, WritesSpecial cs literal) ∨ ∃ negative q, WritesDecimal cs negative q

/-! ### The forms of a schema -/

/-- A number without sign and exponent as a schema may write it. -/
inductive SchemaNumeral : List Char → Prop
  | whole {digits : List Digit} (some_digit : digits ≠ []) :
      SchemaNumeral (Digits.text digits)
  | point {whole : List Digit} (some_digit : whole ≠ []) (fraction : List Digit) :
      SchemaNumeral (Digits.text whole ++ '.' :: Digits.text fraction)
  | fraction {digits : List Digit} (some_digit : digits ≠ []) :
      SchemaNumeral ('.' :: Digits.text digits)

/-- A sign as a schema may write it, or none. -/
def SchemaSign (sign : List Char) : Prop :=
  sign = [] ∨ sign = ['+'] ∨ sign = ['-']

/-- The lexical forms of the floating point types of a schema. -/
inductive SchemaReal : List Char → Prop
  | number {sign numeral : List Char} (signed : SchemaSign sign)
      (digits : SchemaNumeral numeral) :
      SchemaReal (sign ++ numeral)
  | scientific {sign numeral power : List Char} {letter : Char} {digits : List Digit}
      (signed : SchemaSign sign) (mantissa : SchemaNumeral numeral)
      (is_letter : letter = 'e' ∨ letter = 'E') (powered : SchemaSign power)
      (some_digit : digits ≠ []) :
      SchemaReal (sign ++ (numeral ++ letter :: (power ++ Digits.text digits)))
  | infinity {sign : List Char} (signed : SchemaSign sign) : SchemaReal (sign ++ "INF".toList)
  | nan : SchemaReal "NaN".toList

/-! ### Letters -/

theorem toNat_toLower (c : Char) :
    c.toLower.toNat = if 65 ≤ c.toNat ∧ c.toNat ≤ 90 then c.toNat + 32 else c.toNat := by
  rw [← Char.toNat_val, ← Char.toNat_val]
  delta Char.toLower
  simp only [ge_iff_le, UInt32.le_iff_toNat_le, UInt32.reduceToNat, Char.reduceVal]
  split
  · simp only [UInt32.toNat_add, UInt32.reduceToNat, UInt32.reduceSub]
    omega
  · rfl

theorem toNat_toUpper (c : Char) :
    c.toUpper.toNat = if 97 ≤ c.toNat ∧ c.toNat ≤ 122 then c.toNat - 32 else c.toNat := by
  rw [← Char.toNat_val, ← Char.toNat_val]
  delta Char.toUpper
  simp only [UInt32.le_iff_toNat_le, UInt32.reduceToNat, Char.reduceVal]
  split
  · simp only [UInt32.toNat_add, UInt32.reduceToNat, UInt32.reduceSub]
    omega
  · rfl

theorem toLower_eq_iff {letter c : Char} (lower : letter.isLower = true) :
    c.toLower = letter ↔ c = letter ∨ c = letter.toUpper := by
  have range : 97 ≤ letter.toNat ∧ letter.toNat ≤ 122 := by
    delta Char.isLower at lower
    simpa [UInt32.le_iff_toNat_le] using lower
  rw [← Char.toNat_inj, ← Char.toNat_inj, ← Char.toNat_inj, toNat_toLower,
    toNat_toUpper, if_pos range]
  split
  · omega
  · omega

theorem map_toLower_eq_iff {word : List Char} (lower : word.all Char.isLower = true)
    (cs : List Char) :
    cs.map Char.toLower = word ↔
      List.Forall₂ (fun letter c => c = letter ∨ c = letter.toUpper) word cs := by
  induction word generalizing cs with
  | nil => simp
  | cons letter word ih =>
    cases cs with
    | nil => simp
    | cons c cs =>
      rw [List.all_cons, Bool.and_eq_true] at lower
      rw [List.map_cons, List.cons.injEq, List.forall₂_cons, toLower_eq_iff lower.1,
        ih lower.2 cs]

namespace RealLiteral

variable {negative : Bool} {cs : List Char} {literal : RealLiteral}

theorem special?_eq_some_iff :
    special? negative cs = some literal ↔ SpecialText negative literal cs := by
  have nan := @map_toLower_eq_iff "nan".toList rfl cs
  have inf := @map_toLower_eq_iff "inf".toList rfl cs
  have infinity := @map_toLower_eq_iff "infinity".toList rfl cs
  have distinct : "nan".toList ≠ "inf".toList ∧ "nan".toList ≠ "infinity".toList := by decide
  show (if cs.map Char.toLower = "nan".toList then some RealLiteral.nan
    else if cs.map Char.toLower = "inf".toList ∨ cs.map Char.toLower = "infinity".toList then
      some (infinite negative) else none) = some literal ↔ _
  constructor
  · intro h
    split at h
    · rename_i word
      cases h
      exact .nan (nan.mp word)
    · split at h
      · rename_i words
        cases h
        rcases words with word | word
        · exact .inf (inf.mp word)
        · exact .infinity (infinity.mp word)
      · cases h
  · intro h
    cases h with
    | nan word => rw [if_pos (nan.mpr word)]
    | inf word =>
      have word := inf.mpr word
      rw [word, if_neg distinct.1.symm, if_pos (.inl rfl)]
    | infinity word =>
      have word := infinity.mpr word
      rw [word, if_neg distinct.2.symm, if_pos (.inr rfl)]

/-- Words are made of letters, which are neither digits nor points nor blanks. -/
theorem letters_of_special (h : SpecialText negative literal cs) :
    cs ≠ [] ∧ ∀ c ∈ cs, Digit.ofChar? c = none ∧ c ≠ '.' ∧ Text.isBlank c = false := by
  have letters (word : String) (some_letter : word.toList ≠ [])
      (plain : word.toList.all fun letter => [letter, letter.toUpper].all fun c =>
        Digit.ofChar? c = none ∧ c ≠ '.' ∧ Text.isBlank c = false)
      (same : InAnyCase word cs) :
      cs ≠ [] ∧ ∀ c ∈ cs, Digit.ofChar? c = none ∧ c ≠ '.' ∧ Text.isBlank c = false := by
    simp only [List.all_eq_true, decide_eq_true_eq] at plain
    refine ⟨?_, fun c hc => ?_⟩
    · rintro rfl
      exact some_letter (List.forall₂_nil_right_iff.mp same)
    · obtain ⟨i, hi, rfl⟩ := List.mem_iff_getElem.mp hc
      have length := same.length_eq
      have letter := same.get (i := i) (by omega) hi
      exact plain _ (List.getElem_mem _) _ (by simpa using letter)
  cases h with
  | nan word => exact letters "nan" (by decide) rfl word
  | inf word => exact letters "inf" (by decide) rfl word
  | infinity word => exact letters "infinity" (by decide) rfl word

/-- A word is not taken for a decimal. -/
theorem decimal?_of_special (h : SpecialText negative literal cs) :
    decimal? negative cs = none := by
  obtain ⟨some_char, letters⟩ := letters_of_special h
  obtain ⟨c, rest, rfl⟩ := List.exists_cons_of_ne_nil some_char
  obtain ⟨no_digit, no_point, -⟩ := letters c List.mem_cons_self
  have whole : takeDigits (c :: rest) = ([], c :: rest) := by simp [takeDigits, no_digit]
  have fraction : takeFraction (c :: rest) = ([], c :: rest) := by
    unfold takeFraction
    split
    · rename_i point
      exact absurd (List.cons.inj point).1 no_point
    · rfl
  unfold decimal?
  simp only [whole, fraction]
  rfl

/-! ### Reading -/

/-- What is read of a text that is not blank. -/
theorem read_of_trim {core : List Char} (trimmed : Text.trim cs = core)
    (some_char : core ≠ []) :
    read cs = match decimal? (takeSign core).1 (takeSign core).2 with
      | some value => .ok (decimal value)
      | none =>
        match special? (takeSign core).1 (takeSign core).2 with
        | some value => .ok value
        | none => .error .malformed := by
  obtain ⟨c, rest, rfl⟩ := List.exists_cons_of_ne_nil some_char
  unfold read
  generalize Text.trim cs = core at trimmed ⊢
  subst trimmed
  rfl

/-- A text is read as a special value exactly if it writes one. -/
theorem read_special_iff (special : literal = nan ∨ ∃ negative, literal = infinite negative) :
    read cs = .ok literal ↔ WritesSpecial cs literal := by
  constructor
  · intro run
    by_cases blank : Text.trim cs = []
    · rw [read, blank] at run
      cases run
    rw [read_of_trim rfl blank] at run
    split at run
    · cases run
      rcases special with h | ⟨_, h⟩
      · cases h
      · cases h
    · split at run
      · rename_i found
        cases run
        exact ⟨_, _, _, Text.padded_trim cs, takeSign_eq_iff.mp rfl,
          special?_eq_some_iff.mp found⟩
      · cases run
  · rintro ⟨core, negative, unsigned, padded, sign, text⟩
    obtain ⟨some_char, letters⟩ := letters_of_special text
    have trimmed : Text.trim cs = core :=
      Text.trim_padded padded (sign.ne_nil some_char)
        (sign.plain fun c hc => (letters c hc).2.2)
    rw [read_of_trim trimmed (sign.ne_nil some_char), takeSign_eq_iff.mpr sign]
    simp only [decimal?_of_special text, special?_eq_some_iff.mpr text]

theorem read_eq_ok_iff_isRealText : (∃ literal, read cs = .ok literal) ↔ IsRealText cs := by
  constructor
  · rintro ⟨literal, run⟩
    cases literal with
    | nan => exact .inl ⟨_, (read_special_iff (.inl rfl)).mp run⟩
    | infinite negative => exact .inl ⟨_, (read_special_iff (.inr ⟨_, rfl⟩)).mp run⟩
    | decimal d => exact .inr ⟨_, _, writesDecimal_iff.mpr ⟨d, run, rfl, rfl⟩⟩
  · rintro (⟨literal, special⟩ | ⟨negative, q, writes⟩)
    · have word : literal = nan ∨ ∃ negative, literal = infinite negative := by
        obtain ⟨_, negative, _, -, -, text⟩ := special
        cases text with
        | nan _ => exact .inl rfl
        | inf _ => exact .inr ⟨negative, rfl⟩
        | infinity _ => exact .inr ⟨negative, rfl⟩
      exact ⟨literal, (read_special_iff word).mpr special⟩
    · obtain ⟨d, run, -⟩ := writesDecimal_iff.mp writes
      exact ⟨_, run⟩

/-- The texts that are reported as empty are those of blanks only. -/
theorem read_eq_empty_iff : read cs = .error .empty ↔ ∀ c ∈ cs, Text.isBlank c = true := by
  refine ⟨fun run => ?_, read_blank⟩
  by_cases blank : Text.trim cs = []
  · obtain ⟨before, after, blank_before, blank_after, split⟩ := Text.padded_trim cs
    rw [blank, List.append_nil] at split
    rw [split, List.forall_mem_append]
    exact ⟨blank_before, blank_after⟩
  · rw [read_of_trim rfl blank] at run
    split at run
    · cases run
    · split at run
      · cases run
      · cases run

end RealLiteral

/-! ### Schema forms are literals -/

theorem signParts_of_schemaSign {sign unsigned : List Char} (signed : SchemaSign sign)
    (plain : ∀ c ∈ unsigned.head?, c ≠ '+' ∧ c ≠ '-') :
    ∃ negative, SignParts (sign ++ unsigned) negative unsigned := by
  rcases signed with rfl | rfl | rfl
  · exact ⟨false, .bare plain⟩
  · exact ⟨false, .plus unsigned⟩
  · exact ⟨true, .minus unsigned⟩

/-- A number of a schema, with any exponent behind it, is a decimal and starts with no
sign. -/
theorem decimalText_of_schemaNumeral {numeral power : List Char} {exponent : Int}
    (h : SchemaNumeral numeral) (exp : ExponentText exponent power) :
    (∃ whole fraction, DecimalText (numeral ++ power) whole fraction exponent) ∧
      ∀ c ∈ (numeral ++ power).head?, c ≠ '+' ∧ c ≠ '-' := by
  cases h with
  | @whole digits some_digit =>
    refine ⟨⟨digits, [], .inl some_digit, [], power, .none, exp, ?_⟩,
      not_sign_of_text some_digit _⟩
    rw [List.append_nil]
  | @point whole some_digit fraction =>
    refine ⟨⟨whole, fraction, .inl some_digit, _, power, .point fraction, exp, rfl⟩, ?_⟩
    rw [List.append_assoc]
    exact not_sign_of_text some_digit _
  | @fraction digits some_digit =>
    refine ⟨⟨[], digits, .inr some_digit, _, power, .point digits, exp, rfl⟩, ?_⟩
    rintro c ⟨⟩
    decide

theorem isRealText_of_decimal {cs form unsigned : List Char} {negative : Bool}
    {whole fraction : List Digit} {exponent : Int}
    (padded : Text.Padded cs form) (sign : SignParts form negative unsigned)
    (text : DecimalText unsigned whole fraction exponent) : IsRealText cs :=
  .inr ⟨negative, _, form, unsigned, whole, fraction, exponent, padded, sign, text, rfl⟩

/-- Every lexical form of a schema is a literal, with any blanks around it. -/
theorem isRealText_of_schema {cs form : List Char} (h : SchemaReal form)
    (padded : Text.Padded cs form) :
    IsRealText cs := by
  cases h with
  | @number sign numeral signed digits =>
    obtain ⟨⟨whole, fraction, text⟩, plain⟩ := decimalText_of_schemaNumeral digits .none
    rw [List.append_nil] at text plain
    obtain ⟨negative, parts⟩ := signParts_of_schemaSign signed plain
    exact isRealText_of_decimal padded parts text
  | @scientific sign numeral power letter digits signed mantissa is_letter
    powered some_digit =>
    obtain ⟨below, exponent⟩ := signParts_of_schemaSign powered
      (List.append_nil (Digits.text digits) ▸ not_sign_of_text some_digit [])
    obtain ⟨⟨whole, fraction, text⟩, plain⟩ :=
      decimalText_of_schemaNumeral mantissa (.power is_letter exponent some_digit)
    obtain ⟨negative, parts⟩ := signParts_of_schemaSign signed plain
    exact isRealText_of_decimal padded parts text
  | infinity signed =>
    obtain ⟨negative, parts⟩ :=
      @signParts_of_schemaSign _ "INF".toList signed (by rintro c ⟨⟩; decide)
    exact .inl ⟨_, _, negative, _, padded, parts, .inf (by unfold InAnyCase; decide)⟩
  | nan =>
    exact .inl ⟨_, _, false, _, padded, .bare (by rintro c ⟨⟩; decide),
      .nan (by unfold InAnyCase; decide)⟩

/-! ### Fields -/

namespace Literal

open RealLiteral

variable {make : RealLiteral → Expr} {field target value : String}

/-- What a floating point type makes of a text: a literal from what the text writes, or the
failure from its defect. -/
def ofReal (make : RealLiteral → Expr) (field target value : String) :
    Except LiteralError Expr :=
  ((read value.toList).map make).mapError (realError field target value)

theorem singleFloat_eq (field value : String) :
    singleFloat field value =
      ofReal (fun literal => .float (literal.toBinary .single)) field "Float" value := by
  rw [singleFloat, ofReal]
  cases read value.toList with
  | ok literal => rfl
  | error defect => rfl

theorem doubleFloat_eq (field value : String) :
    doubleFloat field value =
      ofReal (fun literal => .double (literal.toBinary .double)) field "Double" value := by
  rw [doubleFloat, ofReal]
  cases read value.toList with
  | ok literal => rfl
  | error defect => rfl

theorem ofReal_of_read {literal : RealLiteral} (run : read value.toList = .ok literal) :
    ofReal make field target value = .ok (make literal) := by
  rw [ofReal, run]
  rfl

theorem isRealText_of_ofReal {expr : Expr} (h : ofReal make field target value = .ok expr) :
    IsRealText value.toList := by
  rw [ofReal] at h
  cases run : read value.toList with
  | ok literal => exact read_eq_ok_iff_isRealText.mp ⟨literal, run⟩
  | error defect =>
    rw [run] at h
    cases h

/-- What is reported of a text that is no literal. -/
def reasonFor (cs : List Char) : String :=
  if cs.all Text.isBlank then "cannot parse float from empty string"
    else "invalid float literal"

theorem ofReal_of_not_isRealText (other : ¬ IsRealText value.toList) :
    ofReal make field target value =
      .error (.invalidFloat field target value (reasonFor value.toList)) := by
  have blank : read value.toList = .error .empty ↔ value.toList.all Text.isBlank = true := by
    rw [read_eq_empty_iff, List.all_eq_true]
  rw [ofReal, reasonFor]
  cases run : read value.toList with
  | ok literal => exact absurd (read_eq_ok_iff_isRealText.mp ⟨literal, run⟩) other
  | error defect =>
    rw [run] at blank
    cases defect with
    | empty =>
      rw [if_pos (blank.mp rfl)]
      rfl
    | malformed =>
      rw [if_neg fun all => nomatch blank.mpr all]
      rfl

/-- **The literals of a field of a floating point type.** A field of single precision and one
of double precision accept the same texts: the words for an infinity or for NaN in any case,
which give these values, and the decimals, with blanks around them; among them are all lexical
forms of a schema. Any other text is refused, with the field, the name of its type and the
text itself, as empty if there are only blanks in it and as malformed otherwise. -/
theorem real_literals (field value : String) :
    ((∃ x, singleFloat field value = .ok (.float x)) ↔ IsRealText value.toList) ∧
    ((∃ y, doubleFloat field value = .ok (.double y)) ↔ IsRealText value.toList) ∧
    (∀ negative, WritesSpecial value.toList (.infinite negative) →
      singleFloat field value = .ok (.float (.infinite negative)) ∧
        doubleFloat field value = .ok (.double (.infinite negative))) ∧
    (WritesSpecial value.toList .nan →
      singleFloat field value = .ok (.float .nan) ∧
      doubleFloat field value = .ok (.double .nan)) ∧
    (¬ IsRealText value.toList → ∃ reason,
      ((∀ c ∈ value.toList, Text.isBlank c = true) ∧
        reason = "cannot parse float from empty string" ∨
        (∃ c ∈ value.toList, Text.isBlank c = false) ∧ reason = "invalid float literal") ∧
      singleFloat field value = .error (.invalidFloat field "Float" value reason) ∧
        doubleFloat field value = .error (.invalidFloat field "Double" value reason)) ∧
    ∀ form, SchemaReal form → Text.Padded value.toList form → IsRealText value.toList := by
  rw [singleFloat_eq, doubleFloat_eq]
  refine ⟨⟨fun h => isRealText_of_ofReal h.choose_spec, fun h => ?_⟩,
    ⟨fun h => isRealText_of_ofReal h.choose_spec, fun h => ?_⟩,
    fun negative special => ?_, fun special => ?_, fun other => ⟨reasonFor value.toList, ?_,
      ofReal_of_not_isRealText other, ofReal_of_not_isRealText other⟩,
    fun form schema padded => isRealText_of_schema schema padded⟩
  · obtain ⟨literal, run⟩ := read_eq_ok_iff_isRealText.mpr h
    exact ⟨_, ofReal_of_read run⟩
  · obtain ⟨literal, run⟩ := read_eq_ok_iff_isRealText.mpr h
    exact ⟨_, ofReal_of_read run⟩
  · have run := (read_special_iff (.inr ⟨negative, rfl⟩)).mpr special
    exact ⟨ofReal_of_read run, ofReal_of_read run⟩
  · have run := (read_special_iff (.inl rfl)).mpr special
    exact ⟨ofReal_of_read run, ofReal_of_read run⟩
  · rw [reasonFor]
    split
    · rename_i blank
      exact .inl ⟨List.all_eq_true.mp blank, rfl⟩
    · rename_i some_char
      rw [Bool.not_eq_true, List.all_eq_false] at some_char
      obtain ⟨c, hc, not_blank⟩ := some_char
      exact .inr ⟨⟨c, hc, Bool.eq_false_iff.mpr not_blank⟩, rfl⟩

/-- Words may be in any case and have a sign, but a comma is no point. -/
theorem words_and_commas :
    (WritesSpecial " -INF ".toList (.infinite true) ∧
      singleFloat "limit" " -INF " = .ok (.float (.infinite true))) ∧
    ¬ IsRealText " 1,5 ".toList ∧
      doubleFloat "limit" " 1,5 " =
        .error (.invalidFloat "limit" "Double" " 1,5 " "invalid float literal") := by
  have special : WritesSpecial " -INF ".toList (.infinite true) :=
    ⟨"-INF".toList, true, "INF".toList,
     ⟨[' '], [' '], by simp [Text.isBlank], by simp [Text.isBlank], rfl⟩, .minus _,
     .inf (by unfold InAnyCase; decide)⟩
  have other : ¬ IsRealText " 1,5 ".toList := by
    rw [← read_eq_ok_iff_isRealText]
    rintro ⟨literal, ⟨⟩⟩
  refine ⟨⟨special, ((real_literals "limit" " -INF ").2.2.1 true special).1⟩, other, ?_⟩
  obtain ⟨reason, ⟨blank, -⟩ | ⟨-, rfl⟩, -, refused⟩ :=
    (real_literals "limit" " 1,5 ").2.2.2.2.1 other
  · exact absurd (blank '1' (by decide)) (by decide)
  · exact refused

end Literal

end FixedInit
