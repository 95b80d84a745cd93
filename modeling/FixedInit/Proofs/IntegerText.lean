/-
Which texts are integer literals of a width, and what is reported of the others.

* `addDigits_spec` : how far the digits of a text are added up, and what stops them;
* `read_eq_ok_iff`, `read_eq_error_iff` : the literals of a width with their values, and the
  other texts with the reason of each;
* `integer_literals` : the literals of every field of an integer type, and the failures.

Design notes: the running value is bounded and has a range that reaches one further below zero
than above it. As more digits only take a value further from zero, the running value leaves
the range with the shortest beginning of the text whose value is out of range, and a value in
range was in range all along.
-/
import FixedInit.Literal
import Mathlib.Algebra.Ring.Int.Defs

namespace FixedInit

/-! ### Digits and their values -/

theorem Digit.eq_toChar {c : Char} {d : Digit} (h : ofChar? c = some d) : c = d.toChar := by
  unfold ofChar? at h
  split at h
  · rename_i range
    cases h
    show c = Char.ofNat (48 + (c.toNat - 48))
    rw [show 48 + (c.toNat - 48) = c.toNat by omega, Char.ofNat_toNat]
  · cases h

namespace Digits

theorem text_append (a b : List Digit) : text (a ++ b) = text a ++ text b :=
  List.map_append

theorem ofChar?_of_mem_text {digits : List Digit} {c : Char} (h : c ∈ text digits) :
    Digit.ofChar? c ≠ none := by
  obtain ⟨d, -, rfl⟩ := List.mem_map.mp h
  simp

theorem takeDigits_text (digits : List Digit) : takeDigits (text digits) = (digits, []) := by
  have stop : ∀ c ∈ ([] : List Char).head?, Digit.ofChar? c = none := by simp
  have taken := takeDigits_text_append digits stop
  rwa [List.append_nil] at taken

theorem text_inj {a b : List Digit} (h : text a = text b) : a = b := by
  have same :=
    (takeDigits_text a).symm.trans ((congrArg takeDigits h).trans (takeDigits_text b))
  exact (Prod.mk.inj same).1

/-- What stands before the end of written digits are written digits. -/
theorem eq_text_of_prefix {start : List Char} {digits : List Digit}
    (h : start <+: text digits) :
    ∃ before after, digits = before ++ after ∧ start = text before := by
  refine ⟨digits.take start.length, digits.drop start.length,
    (List.take_append_drop _ _).symm, ?_⟩
  rw [text, List.map_take]
  exact List.prefix_iff_eq_take.mp h

/-- The number that digits write after a sign. -/
def signed (negative : Bool) (digits : List Digit) : Int :=
  if negative then -(value digits : Int) else value digits

theorem signed_nil (negative : Bool) : signed negative [] = 0 := by
  cases negative <;> rfl

theorem signed_snoc (negative : Bool) (digits : List Digit) (d : Digit) :
    signed negative (digits ++ [d]) =
      10 * signed negative digits + if negative then -(d.val : Int) else d.val := by
  have sum : value (digits ++ [d]) = 10 * value digits + d.val := by
    rw [value_append]
    simp [tenPow_succ, Nat.mul_comm]
  rw [signed, signed, sum]
  split
  · push_cast
    omega
  · push_cast
    rfl

theorem value_le_append (a b : List Digit) : value a ≤ value (a ++ b) := by
  rw [value_append]
  have : 0 < tenPow b.length := Nat.pow_pos (by decide)
  have := Nat.le_mul_of_pos_right (value a) this
  omega

end Digits

/-- A text is a sign, a minus or not, or no sign, and what comes after it. -/
inductive SignParts : List Char → Bool → List Char → Prop
  | minus (cs : List Char) : SignParts ('-' :: cs) true cs
  | plus (cs : List Char) : SignParts ('+' :: cs) false cs
  | bare {cs : List Char} (unsigned : ∀ c ∈ cs.head?, c ≠ '+' ∧ c ≠ '-') :
      SignParts cs false cs

namespace IntegerLiteral

/-! ### Literals and other texts -/

/-- A text is an optional sign with one or more digits, and writes a number. -/
def Writes (cs : List Char) (n : Int) : Prop :=
  ∃ negative digits, SignParts cs negative (Digits.text digits) ∧ digits ≠ [] ∧
    n = Digits.signed negative digits

/-- A number lies in the signed range of a width. -/
def InRange (bits : Nat) (n : Int) : Prop :=
  -2 ^ (bits - 1) ≤ n ∧ n < 2 ^ (bits - 1)

/-- A character is no digit. -/
def HasNonDigit (cs : List Char) : Prop :=
  ∃ c ∈ cs, Digit.ofChar? c = none

/-- Digits after a sign write a number out of range. -/
def Overflows (bits : Nat) (negative : Bool) (cs : List Char) : Prop :=
  ∃ digits, cs = Digits.text digits ∧ ¬ InRange bits (Digits.signed negative digits)

/-- The shortest beginning of what comes after a sign that has a non-digit or a value out of
range. -/
structure Decides (bits : Nat) (negative : Bool) (start after : List Char) : Prop where
  start_of : start <+: after
  wrong : HasNonDigit start ∨ Overflows bits negative start
  shortest : ∀ other, other <+: after → HasNonDigit other ∨ Overflows bits negative other →
    start.length ≤ other.length

/-- A text is no literal of a width, for a reason. -/
inductive Fails (bits : Nat) : List Char → String → Prop
  | empty : Fails bits [] "cannot parse integer from empty string"
  | loneSign {cs : List Char} {negative : Bool} (parts : SignParts cs negative [])
      (sign : cs ≠ []) :
      Fails bits cs "invalid digit found in string"
  | nonDigit {cs start after : List Char} {negative : Bool}
      (parts : SignParts cs negative after) (decides : Decides bits negative start after)
      (wrong : HasNonDigit start) :
      Fails bits cs "invalid digit found in string"
  | tooLarge {cs start after : List Char} (parts : SignParts cs false after)
      (decides : Decides bits false start after) (wrong : Overflows bits false start) :
      Fails bits cs "number too large to fit in target type"
  | tooSmall {cs start after : List Char} (parts : SignParts cs true after)
      (decides : Decides bits true start after) (wrong : Overflows bits true start) :
      Fails bits cs "number too small to fit in target type"

variable {bits : Nat} {negative : Bool}

/-! ### Adding up -/

theorem inRange_iff {n : Int} :
    InRange bits n ↔ -(twoPow (bits - 1) : Int) ≤ n ∧ n < twoPow (bits - 1) := by
  have power : (twoPow (bits - 1) : Int) = 2 ^ (bits - 1) := Int.natCast_pow 2 (bits - 1)
  rw [InRange, power]

theorem inRange_val (n : Signed bits) : InRange bits n.val :=
  inRange_iff.mpr ⟨n.lower, n.upper⟩

theorem ofInt?_eq_none {n : Int} : Signed.ofInt? bits n = none ↔ ¬ InRange bits n := by
  rw [inRange_iff, Signed.ofInt?, dite_eq_right_iff]
  exact ⟨fun none range => Option.some_ne_none _ (none range),
    fun out range => absurd range out⟩

/-- A value in range was in range all along. -/
theorem inRange_of_append {a b : List Digit}
    (h : InRange bits (Digits.signed negative (a ++ b))) :
    InRange bits (Digits.signed negative a) := by
  rw [inRange_iff] at h ⊢
  have grows := Digits.value_le_append a b
  have := twoPow_pos (bits - 1)
  unfold Digits.signed at h ⊢
  cases negative with
  | true =>
    simp only [if_true] at h ⊢
    omega
  | false =>
    simp only [Bool.false_eq_true, if_false] at h ⊢
    omega

/-- What stops the digits of a text from being added up: a character that is no digit, or one
that takes the value out of range. -/
def Stops (bits : Nat) (negative : Bool) (before : List Digit) (c : Char)
    (defect : Defect) : Prop :=
  Digit.ofChar? c = none ∧ defect = .invalidDigit ∨
    ∃ d, Digit.ofChar? c = some d ∧ ¬ InRange bits (Digits.signed negative (before ++ [d])) ∧
      defect = if negative then .tooSmall else .tooLarge

/-- The digits of a text are added up to its end or to the first character that stops them. -/
theorem addDigits_spec (sum : Signed bits) {before : List Digit}
    (so_far : sum.val = Digits.signed negative before) (cs : List Char) :
    (∃ n digits, addDigits negative sum cs = .ok n ∧ cs = Digits.text digits ∧
      n.val = Digits.signed negative (before ++ digits)) ∨
    ∃ defect digits c rest, addDigits negative sum cs = .error defect ∧
      cs = Digits.text digits ++ c :: rest ∧
      InRange bits (Digits.signed negative (before ++ digits)) ∧
      Stops bits negative (before ++ digits) c defect := by
  induction cs generalizing sum before with
  | nil => exact .inl ⟨sum, [], rfl, rfl, by rw [List.append_nil, so_far]⟩
  | cons c cs ih =>
    have here : InRange bits (Digits.signed negative (before ++ [])) := by
      rw [List.append_nil, ← so_far]
      exact inRange_val sum
    cases digit : Digit.ofChar? c with
    | none =>
      refine .inr ⟨.invalidDigit, [], c, cs, ?_, rfl, here, .inl ⟨digit, rfl⟩⟩
      simp only [addDigits, digit]
    | some d =>
      have value := Digits.signed_snoc negative before d
      rw [← so_far] at value
      cases next : Signed.ofInt? bits (Digits.signed negative (before ++ [d])) with
      | none =>
        refine .inr ⟨_, [], c, cs, ?_, rfl, here, .inr ⟨d, digit, ?_, rfl⟩⟩
        · simp only [addDigits, digit, ← value, next]
        · rw [List.append_nil]
          exact ofInt?_eq_none.mp next
      | some later =>
        have step : addDigits negative sum (c :: cs) = addDigits negative later cs := by
          simp only [addDigits, digit, ← value, next]
        have written : c = d.toChar := Digit.eq_toChar digit
        rw [step]
        obtain ⟨n, digits, run, rfl, total⟩ |
            ⟨defect, digits, stop, rest, run, rfl, range, stops⟩ :=
          ih later (Signed.ofInt?_eq_some.mp next).symm
        · rw [List.append_assoc] at total
          exact .inl ⟨n, d :: digits, run, by rw [written]; rfl, total⟩
        · rw [List.append_assoc] at range stops
          exact .inr
            ⟨defect, d :: digits, stop, rest, run, by rw [written]; rfl, range, stops⟩

/-! ### The beginning that decides -/

theorem not_wrong_text {digits : List Digit}
    (h : InRange bits (Digits.signed negative digits)) :
    ¬ (HasNonDigit (Digits.text digits) ∨ Overflows bits negative (Digits.text digits)) := by
  rintro (⟨c, hc, non_digit⟩ | ⟨others, same, out⟩)
  · exact Digits.ofChar?_of_mem_text hc non_digit
  · exact out (Digits.text_inj same ▸ h)

/-- Nothing is wrong with any beginning of digits whose value is in range. -/
theorem not_decides_text {digits : List Digit}
    (h : InRange bits (Digits.signed negative digits)) (start : List Char) :
    ¬ Decides bits negative start (Digits.text digits) := by
  intro decides
  obtain ⟨before, after, rfl, rfl⟩ := Digits.eq_text_of_prefix decides.start_of
  exact not_wrong_text (inRange_of_append h) decides.wrong

theorem Decides.eq {a b after : List Char} (ha : Decides bits negative a after)
    (hb : Decides bits negative b after) : a = b := by
  have same : a.length = b.length :=
    Nat.le_antisymm (ha.shortest b hb.start_of hb.wrong) (hb.shortest a ha.start_of ha.wrong)
  rw [List.prefix_iff_eq_take.mp ha.start_of, List.prefix_iff_eq_take.mp hb.start_of, same]

/-- What a beginning of a text that decides is reported as. -/
def Reported (bits : Nat) (negative : Bool) (start : List Char) (defect : Defect) : Prop :=
  HasNonDigit start ∧ defect = .invalidDigit ∨
    Overflows bits negative start ∧ defect = if negative then .tooSmall else .tooLarge

theorem Reported.eq {start : List Char} {a b : Defect} (ha : Reported bits negative start a)
    (hb : Reported bits negative start b) : a = b := by
  -- digits that write a number have no character that is no digit
  have exclusive : HasNonDigit start → ¬ Overflows bits negative start := by
    rintro ⟨c, hc, non_digit⟩ ⟨digits, rfl, -⟩
    exact Digits.ofChar?_of_mem_text hc non_digit
  rcases ha with ⟨wrong, rfl⟩ | ⟨wrong, rfl⟩
  · rcases hb with ⟨-, rfl⟩ | ⟨other, -⟩
    · rfl
    · exact absurd other (exclusive wrong)
  · rcases hb with ⟨other, -⟩ | ⟨-, rfl⟩
    · exact absurd wrong (exclusive other)
    · rfl

theorem decides_of_stops {digits : List Digit} {c : Char} {defect : Defect}
    (range : InRange bits (Digits.signed negative digits))
    (stops : Stops bits negative digits c defect) (rest : List Char) :
    Decides bits negative (Digits.text digits ++ [c]) (Digits.text digits ++ c :: rest) ∧
      Reported bits negative (Digits.text digits ++ [c]) defect := by
  have reported : Reported bits negative (Digits.text digits ++ [c]) defect := by
    rcases stops with ⟨non_digit, rfl⟩ | ⟨d, digit, out, rfl⟩
    · exact .inl ⟨⟨c, by simp, non_digit⟩, rfl⟩
    · refine .inr ⟨⟨digits ++ [d], ?_, out⟩, rfl⟩
      rw [Digits.text_append, Digit.eq_toChar digit]
      rfl
  refine ⟨⟨⟨rest, by simp⟩, reported.imp And.left And.left,
    fun other other_start wrong => ?_⟩, reported⟩
  -- a shorter beginning has digits only, and their value is in range
  refine Nat.le_of_not_lt fun shorter => ?_
  rw [List.length_append, List.length_singleton] at shorter
  have before : other <+: Digits.text digits :=
    List.prefix_of_prefix_length_le other_start (List.prefix_append _ _) (by omega)
  obtain ⟨some_digits, more, rfl, rfl⟩ := Digits.eq_text_of_prefix before
  exact not_wrong_text (inRange_of_append range) wrong

theorem addDigits_zero_eq_ok_iff {after : List Char} {n : Signed bits} :
    addDigits negative .zero after = .ok n ↔
      ∃ digits, after = Digits.text digits ∧ n.val = Digits.signed negative digits := by
  obtain ⟨m, digits, run, rfl, total⟩ | ⟨defect, digits, c, rest, run, rfl, range, stops⟩ :=
    addDigits_spec (.zero : Signed bits) (Digits.signed_nil negative).symm after
  · rw [run]
    constructor
    · rintro ⟨⟩
      exact ⟨digits, rfl, total⟩
    · rintro ⟨others, same, value⟩
      rw [← Digits.text_inj same] at value
      obtain ⟨m, _, _⟩ := m
      obtain ⟨n, _, _⟩ := n
      cases total.trans value.symm
      rfl
  · rw [run]
    refine iff_of_false nofun ?_
    rintro ⟨others, same, value⟩
    obtain ⟨decides, -⟩ := decides_of_stops range stops rest
    rw [List.nil_append, same] at decides
    exact not_decides_text (value ▸ inRange_val n) _ decides

theorem addDigits_zero_eq_error_iff {after : List Char} {defect : Defect} :
    addDigits negative (.zero : Signed bits) after = .error defect ↔
      ∃ start, Decides bits negative start after ∧ Reported bits negative start defect := by
  obtain ⟨m, digits, run, rfl, total⟩ | ⟨cause, digits, c, rest, run, rfl, range, stops⟩ :=
    addDigits_spec (.zero : Signed bits) (Digits.signed_nil negative).symm after
  · rw [run]
    refine iff_of_false nofun ?_
    rintro ⟨start, decides, -⟩
    rw [List.nil_append] at total
    exact not_decides_text (total ▸ inRange_val m) _ decides
  · rw [run]
    obtain ⟨decides, reported⟩ := decides_of_stops range stops rest
    rw [List.nil_append] at decides reported
    constructor
    · rintro ⟨⟩
      exact ⟨_, decides, reported⟩
    · rintro ⟨start, other_decides, other_reported⟩
      rw [decides.eq other_decides] at reported
      rw [reported.eq other_reported]

/-! ### Reading -/

theorem exists_signParts (cs : List Char) :
    ∃ negative after, SignParts cs negative after := by
  cases cs with
  | nil => exact ⟨false, [], .bare (by simp)⟩
  | cons c cs =>
    by_cases minus : c = '-'
    · exact ⟨true, cs, minus ▸ .minus cs⟩
    by_cases plus : c = '+'
    · exact ⟨false, cs, plus ▸ .plus cs⟩
    · exact ⟨false, c :: cs, .bare (by simp [minus, plus])⟩

theorem read_of_parts {cs after : List Char} (parts : SignParts cs negative after)
    (some_char : after ≠ []) :
    read bits cs = addDigits negative .zero after := by
  obtain ⟨c, rest, rfl⟩ := List.exists_cons_of_ne_nil some_char
  cases parts with
  | minus => rfl
  | plus => rfl
  | bare unsigned =>
    obtain ⟨plus, minus⟩ := unsigned c rfl
    rw [read]
    · nofun
    · rintro _ ⟨⟩
      exact minus rfl
    · rintro _ ⟨⟩
      exact plus rfl

theorem read_of_lone_sign {cs : List Char} (parts : SignParts cs negative [])
    (sign : cs ≠ []) :
    read bits cs = .error .invalidDigit := by
  cases parts with
  | minus => rfl
  | plus => rfl
  | bare _ => exact absurd rfl sign

theorem Decides.after_ne_nil {start after : List Char}
    (decides : Decides bits negative start after) :
    after ≠ [] := by
  rintro rfl
  have zero : InRange bits (Digits.signed negative []) := by
    rw [Digits.signed_nil]
    exact inRange_val .zero
  exact not_decides_text zero start decides

/-- The literals of a width are the texts that write a number in its range. -/
theorem read_eq_ok_iff {cs : List Char} {n : Signed bits} :
    read bits cs = .ok n ↔ Writes cs n.val := by
  constructor
  · intro run
    obtain ⟨negative, after, parts⟩ := exists_signParts cs
    by_cases empty : cs = []
    · rw [empty, read_nil] at run
      cases run
    by_cases lone : after = []
    · rw [read_of_lone_sign (lone ▸ parts) empty] at run
      cases run
    rw [read_of_parts parts lone] at run
    obtain ⟨digits, rfl, value⟩ := addDigits_zero_eq_ok_iff.mp run
    refine ⟨negative, digits, parts, ?_, value⟩
    rintro rfl
    exact lone rfl
  · rintro ⟨negative, digits, parts, some_digit, value⟩
    have some_char : Digits.text digits ≠ [] := by simpa [Digits.text] using some_digit
    rw [read_of_parts parts some_char]
    exact addDigits_zero_eq_ok_iff.mpr ⟨digits, rfl, value⟩

/-- Every other text is refused for the reason that it has. -/
theorem fails_iff {cs : List Char} {reason : String} :
    Fails bits cs reason ↔
      ∃ defect, read bits cs = .error defect ∧ defect.message = reason := by
  constructor
  · intro fails
    cases fails with
    | empty => exact ⟨.empty, rfl, rfl⟩
    | loneSign parts sign => exact ⟨.invalidDigit, read_of_lone_sign parts sign, rfl⟩
    | nonDigit parts decides wrong =>
      refine ⟨.invalidDigit, ?_, rfl⟩
      rw [read_of_parts parts decides.after_ne_nil]
      exact addDigits_zero_eq_error_iff.mpr ⟨_, decides, .inl ⟨wrong, rfl⟩⟩
    | tooLarge parts decides wrong =>
      refine ⟨.tooLarge, ?_, rfl⟩
      rw [read_of_parts parts decides.after_ne_nil]
      exact addDigits_zero_eq_error_iff.mpr ⟨_, decides, .inr ⟨wrong, rfl⟩⟩
    | tooSmall parts decides wrong =>
      refine ⟨.tooSmall, ?_, rfl⟩
      rw [read_of_parts parts decides.after_ne_nil]
      exact addDigits_zero_eq_error_iff.mpr ⟨_, decides, .inr ⟨wrong, rfl⟩⟩
  · rintro ⟨defect, run, rfl⟩
    obtain ⟨negative, after, parts⟩ := exists_signParts cs
    by_cases empty : cs = []
    · rw [empty, read_nil] at run
      cases run
      exact empty ▸ .empty
    by_cases lone : after = []
    · rw [lone] at parts
      rw [read_of_lone_sign parts empty] at run
      cases run
      exact .loneSign parts empty
    rw [read_of_parts parts lone] at run
    obtain ⟨start, decides, ⟨wrong, rfl⟩ | ⟨wrong, rfl⟩⟩ := addDigits_zero_eq_error_iff.mp run
    · exact .nonDigit parts decides wrong
    · cases negative with
      | true => exact .tooSmall parts decides wrong
      | false => exact .tooLarge parts decides wrong

end IntegerLiteral

/-! ### Fields -/

namespace Literal

open IntegerLiteral

variable {bits : Nat} {field value : String}

/-- What a width makes of a text: a literal from its number, or the failure from its
defect. -/
def ofWidth (bits : Nat) (make : Signed bits → Expr) (field target value : String) :
    Except LiteralError Expr :=
  ((read bits value.toList).map make).mapError (integerError field target value)

section

variable {make : Signed bits → Expr} {target : String}

theorem ofWidth_eq_ok_iff {expr : Expr} :
    ofWidth bits make field target value = .ok expr ↔
      ∃ n : Signed bits, expr = make n ∧ Writes value.toList n.val := by
  simp only [← read_eq_ok_iff]
  rw [ofWidth]
  cases read bits value.toList with
  | ok n =>
    constructor
    · rintro ⟨⟩
      exact ⟨n, rfl, rfl⟩
    · rintro ⟨_, rfl, ⟨⟩⟩
      rfl
  | error defect => exact iff_of_false nofun (by rintro ⟨_, _, ⟨⟩⟩)

theorem ofWidth_eq_error_iff {failure : LiteralError} :
    ofWidth bits make field target value = .error failure ↔
      ∃ reason, failure = .invalidInteger field target value reason ∧
        Fails bits value.toList reason := by
  simp only [fails_iff]
  rw [ofWidth]
  cases read bits value.toList with
  | ok n => exact iff_of_false nofun (by rintro ⟨_, _, _, ⟨⟩, _⟩)
  | error defect =>
    constructor
    · rintro ⟨⟩
      exact ⟨_, rfl, defect, rfl, rfl⟩
    · rintro ⟨_, rfl, _, ⟨⟩, rfl⟩
      rfl

end

theorem narrowInt_eq (width : IntWidth) (field value : String) :
    narrowInt field width value =
      ofWidth width.bits
        (fun n => .int (n.widen width.bits_le)) field width.typeName value := by
  rw [narrowInt, ofWidth]
  cases read width.bits value.toList with
  | ok n => rfl
  | error defect => rfl

theorem wideInt_eq (field value : String) :
    wideInt field value = ofWidth 64 .long field "Long" value := by
  rw [wideInt, ofWidth]
  cases read 64 value.toList with
  | ok n => rfl
  | error defect => rfl

/-- A narrow literal has 32 bits, and its value is in the range of its width. -/
theorem narrowInt_eq_ok_iff {width : IntWidth} {expr : Expr} :
    narrowInt field width value = .ok expr ↔
      ∃ n : Signed 32, expr = .int n ∧ Writes value.toList n.val ∧
        InRange width.bits n.val := by
  rw [narrowInt_eq, ofWidth_eq_ok_iff]
  constructor
  · rintro ⟨n, rfl, writes⟩
    exact ⟨n.widen width.bits_le, rfl, writes, inRange_val n⟩
  · rintro ⟨n, rfl, writes, range⟩
    obtain ⟨lower, upper⟩ := inRange_iff.mp range
    exact ⟨⟨n.val, lower, upper⟩, rfl, writes⟩

/-- **The integer literals of a field.** A field of 8, 16 or 32 bits, and likewise one of 64
bits, accepts exactly the texts with an optional sign and one or more digits that write a
number in its range, and gives that number. Any other text is refused, with the field, the
name of its type and the text itself, for the reason that the text has. -/
theorem integer_literals (field value : String) :
    (∀ width bits name, (width, bits, name) ∈ [(IntWidth.byte, 8, "Byte"),
        (IntWidth.short, 16, "Short"), (IntWidth.int, 32, "Integer")] →
      (∀ expr, narrowInt field width value = .ok expr ↔
        ∃ n : Signed 32, expr = .int n ∧ Writes value.toList n.val ∧ InRange bits n.val) ∧
      ∀ failure, narrowInt field width value = .error failure ↔
        ∃ reason, failure = .invalidInteger field name value reason ∧
          Fails bits value.toList reason) ∧
    (∀ expr, wideInt field value = .ok expr ↔
      ∃ n : Signed 64, expr = .long n ∧ Writes value.toList n.val ∧ InRange 64 n.val) ∧
    ∀ failure, wideInt field value = .error failure ↔
      ∃ reason, failure = .invalidInteger field "Long" value reason ∧
        Fails 64 value.toList reason := by
  refine ⟨fun width bits name listed => ?_, fun expr => ?_, fun failure => ?_⟩
  · obtain ⟨rfl, rfl⟩ : bits = width.bits ∧ name = width.typeName := by
      cases width <;> simpa [IntWidth.bits, IntWidth.typeName] using listed
    refine ⟨fun expr => narrowInt_eq_ok_iff, fun failure => ?_⟩
    rw [narrowInt_eq]
    exact ofWidth_eq_error_iff
  · rw [wideInt_eq, ofWidth_eq_ok_iff]
    refine exists_congr fun n => and_congr_right fun _ => ?_
    exact (and_iff_left (inRange_val n)).symm
  · rw [wideInt_eq]
    exact ofWidth_eq_error_iff

end Literal

end FixedInit
