/-
Written JSON is read back.

* `readUnits_escape`, `pairUnits_units` : a string is read back, whatever its characters;
* `readNumeral_text` : a numeral that is laid out as numbers are is read back;
* `readValue_text` : a value without broken strings is read back;
* `read?_write` : so is the whole text of such a value.

Design notes: the induction over values is about what follows the text too. Only a number
needs to know that: it would go on at a digit, a point or the letter of an exponent.
-/
import FixedInit.Json.Text
import Mathlib.Data.Option.Basic
import Mathlib.Tactic.SplitIfs

namespace FixedInit

/-! ### Strings -/

theorem Hex.value?_append (cs : List Char) (d : Fin 16) :
    Hex.value? (cs ++ [Hex.toChar d]) = (Hex.value? cs).map fun n => 16 * n + d.val := by
  rw [Hex.value?, List.foldl_append]
  show ((Hex.value? cs).bind fun n => (Hex.ofChar? (Hex.toChar d)).map fun d =>
      16 * n + d.val) = _
  rw [Hex.ofChar?_toChar]
  exact Option.map_eq_bind.symm

/-- A number written in a width that it fits is read back. -/
theorem Hex.value?_fixed {width n : Nat} (h : n < twoPow (4 * width)) :
    Hex.value? (Hex.fixed width n) = some n := by
  induction width generalizing n with
  | zero =>
    have zero : n = 0 := Nat.lt_one_iff.mp h
    rw [zero]
    rfl
  | succ width ih =>
    rw [Nat.mul_succ, Nat.add_comm, twoPow_add, show twoPow 4 = 16 from rfl] at h
    rw [Hex.fixed, Hex.value?_append, ih (Nat.div_lt_of_lt_mul h), Option.map_some,
      Nat.div_add_mod]

namespace Json

theorem readUnits_escaped {c letter : Char} (h : escaped? letter = some c.toNat)
    (rest : List Char) :
    readUnits ('\\' :: letter :: rest) =
      (readUnits rest).map fun (units, rest) => (c.toNat :: units, rest) := by
  rw [readUnits, h]
  · cases readUnits rest <;> rfl
  · rintro _ _ _ _ _ rfl _
    cases h

theorem readUnits_plain {c : Char} (visible : 0x20 ≤ c.toNat) (not_quote : c ≠ '"')
    (not_backslash : c ≠ '\\') (rest : List Char) :
    readUnits (c :: rest) = (readUnits rest).map fun (units, rest) =>
      (c.toNat :: units, rest) := by
  have passed : (guard (0x20 ≤ c.toNat) : Option Unit) = some () := if_pos visible
  rw [readUnits]
  · rw [passed]
    cases readUnits rest <;> rfl
  · exact not_quote
  · exact fun _ _ _ _ _ backslash _ => not_backslash backslash
  · exact fun _ _ backslash _ => not_backslash backslash

theorem readUnits_control {c : Char} (h : c.toNat < 0x20) (rest : List Char) :
    readUnits (['\\', 'u'] ++ Hex.fixed 4 c.toNat ++ rest) =
      (readUnits rest).map fun (units, rest) => (c.toNat :: units, rest) := by
  have read : Hex.value? (Hex.fixed 4 c.toNat) = some c.toNat :=
    Hex.value?_fixed (Nat.lt_trans h (by decide))
  -- four digits, so that the reader takes all of them
  obtain ⟨a, b, d, e, digits⟩ : ∃ a b d e, Hex.fixed 4 c.toNat = [a, b, d, e] :=
    ⟨_, _, _, _, rfl⟩
  rw [digits] at read ⊢
  show readUnits ('\\' :: 'u' :: a :: b :: d :: e :: rest) = _
  rw [readUnits, read]
  cases readUnits rest <;> rfl

theorem readUnits_escape (c : Char) (rest : List Char) :
    readUnits (escape c ++ rest) = (readUnits rest).map fun (units, rest) =>
      (c.toNat :: units, rest) := by
  unfold escape
  split_ifs with h₁ h₂ h₃ h₄ h₅ h₆ h₇ h₈
  · subst h₁; exact readUnits_escaped rfl rest
  · subst h₂; exact readUnits_escaped rfl rest
  · subst h₃; exact readUnits_escaped rfl rest
  · subst h₄; exact readUnits_escaped rfl rest
  · subst h₅; exact readUnits_escaped rfl rest
  · subst h₆; exact readUnits_escaped rfl rest
  · subst h₇; exact readUnits_escaped rfl rest
  · exact readUnits_control h₈ rest
  · exact readUnits_plain (Nat.le_of_not_lt h₈) h₁ h₂ rest

theorem not_surrogate (c : Char) : (isLeading c.toNat || isTrailing c.toNat) = false := by
  have valid : c.toNat < 0xD800 ∨ 0xDFFF < c.toNat ∧ c.toNat < 0x110000 := c.valid
  simp only [isLeading, isTrailing, Bool.or_eq_false_iff, Bool.and_eq_false_iff,
    decide_eq_false_iff_not]
  omega

theorem pairUnits_units (cs : List Char) : pairUnits (cs.map Char.toNat) = some cs := by
  induction cs with
  | nil => rfl
  | cons c cs ih =>
    have whole := not_surrogate c
    cases cs with
    | nil =>
      rw [List.map_cons, List.map_nil, pairUnits, whole, Char.ofNat_toNat]
      rfl
    | cons next cs =>
      obtain ⟨not_leading, not_trailing⟩ := Bool.or_eq_false_iff.mp whole
      rw [List.map_cons, List.map_cons, pairUnits, not_leading, not_trailing, ← List.map_cons,
        ih, Char.ofNat_toNat]
      rfl

/-- A string between its quotes is read back. -/
theorem readString_text (s : String) (rest : List Char) :
    readString (s.toList.flatMap escape ++ '"' :: rest) = some (some s, rest) := by
  have units : ∀ cs : List Char,
      readUnits (cs.flatMap escape ++ '"' :: rest) = some (cs.map Char.toNat, rest) := by
    intro cs
    induction cs with
    | nil => rfl
    | cons c cs ih =>
      rw [List.flatMap_cons, List.append_assoc, readUnits_escape, ih]
      rfl
  rw [readString, units]
  show some ((pairUnits (s.toList.map Char.toNat)).map String.ofList, rest) = _
  rw [pairUnits_units, Option.map_some, String.ofList_toList]

end Json

/-! ### Numbers -/

namespace Numeral

/-- A numeral as numbers are laid out: zero is the only one whose digits start with zero, and
an exponent has digits. -/
structure Written (n : Numeral) : Prop where
  leading : (n.whole.length == 1 || n.whole.head?.any (·.val != 0)) = true
  exponent : ∀ negative digits, n.exponent = some (negative, digits) → digits ≠ []

theorem Written.some_digit {n : Numeral} (written : n.Written) : n.whole ≠ [] := by
  intro none_left
  have leading := written.leading
  rw [none_left] at leading
  cases leading

/-- The text of a fraction. -/
def fractionText (fraction : List Digit) : List Char :=
  if fraction.isEmpty then [] else '.' :: Digits.text fraction

/-- The text of an exponent. -/
def exponentText : Option (Bool × List Digit) → List Char
  | none => []
  | some (negative, digits) => 'e' :: ((if negative then ['-'] else []) ++ Digits.text digits)

theorem text_eq (n : Numeral) :
    n.text = (if n.negative then ['-'] else []) ++ (Digits.text n.whole ++
      (fractionText n.fraction ++ exponentText n.exponent)) := by
  rw [text, List.append_assoc, List.append_assoc]
  rfl

end Numeral

/-- A text that starts with a digit starts with no sign. -/
theorem Digits.head_text_append {digits : List Digit} (h : digits ≠ []) (rest : List Char) :
    ∀ c ∈ (Digits.text digits ++ rest).head?, c ≠ '-' ∧ c ≠ '+' := by
  have digit : ∀ d : Digit, d.toChar ≠ '-' ∧ d.toChar ≠ '+' := by decide
  cases digits with
  | nil => exact absurd rfl h
  | cons d digits =>
    rintro c hc
    cases hc
    exact digit d

namespace Json

/-- A text at which a number ends. -/
def EndsNumber (rest : List Char) : Prop :=
  ∀ c ∈ rest.head?, Digit.ofChar? c = none ∧ c ≠ '.' ∧ c ≠ 'e' ∧ c ≠ 'E'

variable {rest : List Char}

/-- A number behind its sign. -/
def readMagnitude (negative : Bool) (cs : List Char) : Option (Numeral × List Char) := do
  let (whole, cs) := takeDigits cs
  guard (whole.length == 1 || whole.head?.any (·.val != 0))
  let (fraction, cs) ← readFraction? cs
  let (exponent, cs) ← readExponent? cs
  return (⟨negative, whole, fraction, exponent⟩, cs)

/-- The minus at the head of a text, if there is one, and the text after it. -/
def takeMinus : List Char → Bool × List Char
  | '-' :: cs => (true, cs)
  | cs => (false, cs)

theorem readNumeral_eq (cs : List Char) :
    readNumeral cs = readMagnitude (takeMinus cs).1 (takeMinus cs).2 := rfl

theorem takeMinus_of_ne {cs : List Char} (h : ∀ c ∈ cs.head?, c ≠ '-') :
    takeMinus cs = (false, cs) := by
  unfold takeMinus
  split
  · exact absurd rfl (h '-' rfl)
  · rfl

theorem readNumeral_sign (negative : Bool) {cs : List Char} (h : ∀ c ∈ cs.head?, c ≠ '-') :
    readNumeral ((if negative then ['-'] else []) ++ cs) = readMagnitude negative cs := by
  cases negative with
  | true => rfl
  | false =>
    show readNumeral cs = _
    rw [readNumeral_eq, takeMinus_of_ne h]

theorem readExponent_sign (negative : Bool) {cs : List Char}
    (h : ∀ c ∈ cs.head?, c ≠ '-' ∧ c ≠ '+') :
    readExponent ((if negative then ['-'] else []) ++ cs) =
      match takeDigits cs with
      | ([], _) => none
      | (digits, rest) => some ((negative, digits), rest) := by
  cases negative with
  | true => rfl
  | false =>
    show readExponent cs = _
    cases cs with
    | nil => rfl
    | cons c cs =>
      obtain ⟨not_minus, not_plus⟩ := h c rfl
      unfold readExponent
      split
      rename_i sign digits eq
      obtain ⟨rfl, rfl⟩ : false = sign ∧ c :: cs = digits := by
        simpa [not_minus, not_plus] using eq
      rfl

theorem readExponent_text (negative : Bool) {digits : List Digit} (some_digit : digits ≠ [])
    (ends : EndsNumber rest) :
    readExponent ((if negative then ['-'] else []) ++ Digits.text digits ++ rest) =
      some ((negative, digits), rest) := by
  rw [List.append_assoc, readExponent_sign negative (Digits.head_text_append some_digit rest),
    takeDigits_text_append digits fun c hc => (ends c hc).1]
  cases digits with
  | nil => exact absurd rfl some_digit
  | cons d digits => rfl

theorem readExponent?_text {exponent : Option (Bool × List Digit)}
    (some_digit : ∀ negative digits, exponent = some (negative, digits) → digits ≠ [])
    (ends : EndsNumber rest) :
    readExponent? (Numeral.exponentText exponent ++ rest) = some (exponent, rest) := by
  cases exponent with
  | none =>
    cases rest with
    | nil => rfl
    | cons c rest =>
      obtain ⟨-, -, not_e, not_E⟩ := ends c rfl
      show (if c = 'e' ∨ c = 'E' then _ else some (none, c :: rest)) = _
      rw [if_neg (not_or.mpr ⟨not_e, not_E⟩)]
  | some written =>
    obtain ⟨negative, digits⟩ := written
    show (readExponent ((if negative then ['-'] else []) ++ Digits.text digits ++ rest)).map
      _ = _
    rw [readExponent_text negative (some_digit negative digits rfl) ends]
    rfl

theorem readFraction?_text (fraction : List Digit) {tail : List Char}
    (ends : ∀ c ∈ tail.head?, Digit.ofChar? c = none ∧ c ≠ '.') :
    readFraction? (Numeral.fractionText fraction ++ tail) = some (fraction, tail) := by
  cases fraction with
  | nil =>
    show readFraction? tail = _
    unfold readFraction?
    split
    · exact absurd rfl (ends '.' rfl).2
    · rfl
  | cons d digits =>
    have taken := takeDigits_text_append (d :: digits) fun c hc => (ends c hc).1
    show (match takeDigits (Digits.text (d :: digits) ++ tail) with
      | ([], _) => none
      | (digits, rest) => some (digits, rest)) = _
    rw [taken]

/-- A point or the letter of an exponent is no digit. -/
theorem ends_of_fractionText (fraction : List Digit) {tail : List Char}
    (ends : ∀ c ∈ tail.head?, Digit.ofChar? c = none) :
    ∀ c ∈ (Numeral.fractionText fraction ++ tail).head?, Digit.ofChar? c = none := by
  cases fraction with
  | nil => exact ends
  | cons d digits =>
    rintro c hc
    cases hc
    rfl

theorem ends_of_exponentText (exponent : Option (Bool × List Digit))
    (ends : EndsNumber rest) :
    ∀ c ∈ (Numeral.exponentText exponent ++ rest).head?,
      Digit.ofChar? c = none ∧ c ≠ '.' := by
  cases exponent with
  | none => exact fun c hc => ⟨(ends c hc).1, (ends c hc).2.1⟩
  | some written =>
    rintro c hc
    cases hc
    exact ⟨rfl, by decide⟩

/-- A numeral is read back in front of a text that does not go on with it. -/
theorem readNumeral_text {n : Numeral} (written : n.Written) (ends : EndsNumber rest) :
    readNumeral (n.text ++ rest) = some (n, rest) := by
  have some_digit := written.some_digit
  have ends_exponent := ends_of_exponentText n.exponent ends
  have ends_whole := ends_of_fractionText n.fraction fun c hc => (ends_exponent c hc).1
  have passed : (guard (n.whole.length == 1 || n.whole.head?.any (·.val != 0)) :
        Option Unit) = some () :=
    if_pos written.leading
  rw [n.text_eq, List.append_assoc, List.append_assoc, List.append_assoc,
    readNumeral_sign n.negative fun c hc => (Digits.head_text_append some_digit _ c hc).1,
    readMagnitude, takeDigits_text_append n.whole ends_whole]
  dsimp only
  rw [passed, Option.bind_eq_bind, Option.bind_some,
    readFraction?_text n.fraction ends_exponent, Option.bind_eq_bind, Option.bind_some,
    readExponent?_text written.exponent ends]
  rfl

/-! ### Values -/

mutual

/-- Whether a value has strings with texts only and numbers that are laid out as numbers
are. -/
def Proper : Json → Prop
  | null => True
  | boolean _ => True
  | number value => value.Written
  | string _ => True
  | broken => False
  | array items => ProperItems items
  | object members => ProperMembers members

/-- Whether the items of an array are proper. -/
def ProperItems : List Json → Prop
  | [] => True
  | item :: items => Proper item ∧ ProperItems items

/-- Whether the members of an object are proper. -/
def ProperMembers : List (String × Json) → Prop
  | [] => True
  | (_, value) :: members => Proper value ∧ ProperMembers members

end

/-- The characters that open a number open nothing else. -/
theorem readValue_number (fuel : Nat) {n : Numeral} (some_digit : n.whole ≠ [])
    (rest : List Char) :
    readValue (fuel + 1) (n.text ++ rest) =
      (readNumeral (n.text ++ rest)).map fun (value, rest) => (number value, rest) := by
  have digit : ∀ (d : Digit) (cs : List Char), readValue (fuel + 1) (d.toChar :: cs) =
      (readNumeral (d.toChar :: cs)).map fun (value, rest) => (number value, rest) := by
    intro d cs
    match d with
    | 0 | 1 | 2 | 3 | 4 | 5 | 6 | 7 | 8 | 9 => rfl
  rw [n.text_eq]
  cases n.negative with
  | true => rfl
  | false =>
    cases whole : n.whole with
    | nil => exact absurd whole some_digit
    | cons d digits => exact digit d _

theorem endsNumber_of_delimiter {c : Char} (h : c = ',' ∨ c = ']' ∨ c = '\x7d')
    (rest : List Char) :
    EndsNumber (c :: rest) := by
  rintro _ hc
  cases hc
  rcases h with rfl | rfl | rfl <;> decide

/-- The text of a proper value starts with no blank and no closing bracket. -/
theorem text_eq_cons {value : Json} (proper : value.Proper) :
    ∃ c cs, value.text = c :: cs ∧ isBlank c = false ∧ c ≠ ']' := by
  have digit : ∀ d : Digit, isBlank d.toChar = false ∧ d.toChar ≠ ']' := by decide
  cases value with
  | null => exact ⟨_, _, rfl, rfl, by decide⟩
  | boolean value => cases value <;> exact ⟨_, _, rfl, rfl, by decide⟩
  | number n =>
    rw [text, n.text_eq]
    cases n.negative with
    | true => exact ⟨_, _, rfl, rfl, by decide⟩
    | false =>
      cases whole : n.whole with
      | nil => exact absurd whole (Numeral.Written.some_digit proper)
      | cons d digits => exact ⟨_, _, rfl, digit d⟩
  | string s => exact ⟨_, _, rfl, rfl, by decide⟩
  | broken => cases proper
  | array items => exact ⟨_, _, rfl, rfl, by decide⟩
  | object members => exact ⟨_, _, rfl, rfl, by decide⟩

theorem text_length_pos {value : Json} (proper : value.Proper) : 0 < value.text.length := by
  obtain ⟨c, cs, text, -, -⟩ := text_eq_cons proper
  rw [text]
  exact Nat.succ_pos _

theorem readName_text (name : String) (rest : List Char) :
    readName (stringText name ++ ':' :: rest) = some (some name, rest) := by
  have opened : stringText name ++ ':' :: rest =
      '"' :: (name.toList.flatMap escape ++ '"' :: ':' :: rest) := by simp [stringText]
  rw [opened]
  show (readString (name.toList.flatMap escape ++ '"' :: ':' :: rest)).bind _ = _
  rw [readString_text]
  rfl

theorem mapM_some (members : List (String × Json)) :
    (members.map fun (name, value) => (some name, value)).mapM
      (fun (name?, value) => name?.map fun name => (name, value)) = some members := by
  induction members with
  | nil => rfl
  | cons member members ih =>
    rw [List.map_cons, List.mapM_cons, ih]
    rfl

/-- Names with texts make up the members of an object. -/
theorem ofMembers_some (members : List (String × Json)) :
    ofMembers (members.map fun (name, value) => (some name, value)) = object members := by
  rw [ofMembers, mapM_some]

section

variable {fuel : Nat} {cs tail rest : List Char} {item value : Json} {name? : Option String}

theorem readValue_array {c : Char} (not_blank : isBlank c = false) (not_closing : c ≠ ']') :
    readValue (fuel + 1) ('[' :: c :: cs) =
      (readItems fuel (c :: cs)).map fun (items, rest) => (array items, rest) := by
  have opened : skipBlanks ('[' :: c :: cs) = '[' :: c :: cs := rfl
  have here : skipBlanks (c :: cs) = c :: cs :=
    List.dropWhile_cons_of_neg (by simp [not_blank])
  rw [readValue, opened]
  simp only [here]
  split
  · rename_i eq
    exact absurd (List.cons.inj eq).1 not_closing
  · rfl

theorem readItems_last (read : readValue fuel cs = some (item, ']' :: rest)) :
    readItems (fuel + 1) cs = some ([item], rest) := by
  rw [readItems, read]
  rfl

theorem readItems_more (read : readValue fuel cs = some (item, ',' :: rest)) :
    readItems (fuel + 1) cs = (readItems fuel rest).map fun (items, rest) =>
      (item :: items, rest) := by
  rw [readItems, read]
  exact Option.map_eq_bind.symm

theorem readMembers_last (named : readName cs = some (name?, tail))
    (read : readValue fuel tail = some (value, '\x7d' :: rest)) :
    readMembers (fuel + 1) cs = some ([(name?, value)], rest) := by
  simp only [readMembers, named, Option.bind_eq_bind, Option.bind_some, read]
  rfl

theorem readMembers_more (named : readName cs = some (name?, tail))
    (read : readValue fuel tail = some (value, ',' :: rest)) :
    readMembers (fuel + 1) cs =
      (readMembers fuel rest).map fun (members, rest) =>
        ((name?, value) :: members, rest) := by
  simp only [readMembers, named, Option.bind_eq_bind, Option.bind_some, read]
  exact Option.map_eq_bind.symm

end

mutual

/-- A proper value is read back in front of any text at which a number ends. -/
theorem readValue_text {fuel : Nat} {rest : List Char} (ends : EndsNumber rest) :
    ∀ {value : Json}, value.Proper → 2 * value.text.length ≤ fuel + 1 →
      readValue fuel (value.text ++ rest) = some (value, rest)
  | value, proper, room => by
    have some_text := text_length_pos proper
    obtain ⟨fuel, rfl⟩ : ∃ less, fuel = less + 1 := ⟨fuel - 1, by omega⟩
    cases value with
    | null => rfl
    | boolean value => cases value <;> rfl
    | number n =>
      rw [text, readValue_number fuel (Numeral.Written.some_digit proper),
        readNumeral_text proper ends]
      rfl
    | string s =>
      have opened : text (string s) ++ rest =
          '"' :: (s.toList.flatMap escape ++ '"' :: rest) := by
        simp [text, stringText]
      rw [opened]
      show (readString (s.toList.flatMap escape ++ '"' :: rest)).map _ = _
      rw [readString_text]
      rfl
    | broken => cases proper
    | array items =>
      cases items with
      | nil => rfl
      | cons item items =>
        obtain ⟨c, cs, opening, not_blank, not_closing⟩ := text_eq_cons proper.1
        have inner : readItems fuel (itemsText (item :: items) ++ ']' :: rest) =
            some (item :: items, rest) :=
          readItems_text nofun proper (by simp [text] at room; omega)
        have opened : text (array (item :: items)) ++ rest =
            '[' :: (itemsText (item :: items) ++ ']' :: rest) := by simp [text]
        rw [opened]
        rw [itemsText, opening, List.cons_append, List.cons_append] at inner ⊢
        rw [readValue_array not_blank not_closing, inner]
        rfl
    | object members =>
      cases members with
      | nil => rfl
      | cons member members =>
        obtain ⟨name, value⟩ := member
        have inner :
            readMembers fuel (membersText ((name, value) :: members) ++ '\x7d' :: rest) =
            some (((name, value) :: members).map
              fun (name, value) => (some name, value), rest) :=
          readMembers_text nofun proper (by simp [text] at room; omega)
        have opened : text (object ((name, value) :: members)) ++ rest =
            '\x7b' :: (membersText ((name, value) :: members) ++ '\x7d' :: rest) := by
          simp [text]
        rw [opened]
        show (readMembers fuel (membersText ((name, value) :: members) ++ '\x7d' :: rest)).map
          _ = _
        rw [inner, Option.map_some]
        simp only [ofMembers_some]

theorem readItems_text {fuel : Nat} {rest : List Char} :
    ∀ {items : List Json}, items ≠ [] → ProperItems items →
      2 * (itemsText items).length ≤ fuel →
      readItems fuel (itemsText items ++ ']' :: rest) = some (items, rest)
  | [], some_item, _, _ => absurd rfl some_item
  | item :: items, _, proper, room => by
    have some_text := text_length_pos proper.1
    rw [itemsText, List.length_append] at room
    obtain ⟨fuel, rfl⟩ : ∃ less, fuel = less + 1 := ⟨fuel - 1, by omega⟩
    cases items with
    | nil =>
      have read := readValue_text (endsNumber_of_delimiter (.inr (.inl rfl)) rest) proper.1
        (show 2 * item.text.length ≤ fuel + 1 by omega)
      rw [itemsText, List.isEmpty_nil, if_pos rfl, List.append_nil]
      exact readItems_last read
    | cons next items =>
      rw [List.isEmpty_cons, if_neg Bool.false_ne_true, List.length_cons] at room
      have read := readValue_text
        (endsNumber_of_delimiter (.inl rfl) (itemsText (next :: items) ++ ']' :: rest))
        proper.1 (show 2 * item.text.length ≤ fuel + 1 by omega)
      have inner : readItems fuel (itemsText (next :: items) ++ ']' :: rest) =
          some (next :: items, rest) := readItems_text nofun proper.2 (by omega)
      rw [itemsText, List.isEmpty_cons, if_neg Bool.false_ne_true, List.append_assoc,
        List.cons_append, readItems_more read, inner]
      rfl

theorem readMembers_text {fuel : Nat} {rest : List Char} :
    ∀ {members : List (String × Json)}, members ≠ [] → ProperMembers members →
      2 * (membersText members).length ≤ fuel →
      readMembers fuel (membersText members ++ '\x7d' :: rest) =
        some (members.map fun (name, value) => (some name, value), rest)
  | [], some_member, _, _ => absurd rfl some_member
  | (name, value) :: members, _, proper, room => by
    have some_text := text_length_pos proper.1
    rw [membersText, List.length_append, List.length_append, List.length_cons] at room
    obtain ⟨fuel, rfl⟩ : ∃ less, fuel = less + 1 := ⟨fuel - 1, by omega⟩
    cases members with
    | nil =>
      have read := readValue_text (endsNumber_of_delimiter (.inr (.inr rfl)) rest) proper.1
        (show 2 * value.text.length ≤ fuel + 1 by omega)
      rw [membersText, List.isEmpty_nil, if_pos rfl, List.append_nil, List.append_assoc,
        List.cons_append]
      exact readMembers_last (readName_text name _) read
    | cons next members =>
      rw [List.isEmpty_cons, if_neg Bool.false_ne_true, List.length_cons] at room
      have read := readValue_text
        (endsNumber_of_delimiter (.inl rfl) (membersText (next :: members) ++ '\x7d' :: rest))
        proper.1 (show 2 * value.text.length ≤ fuel + 1 by omega)
      have inner : readMembers fuel (membersText (next :: members) ++ '\x7d' :: rest) =
          some ((next :: members).map fun (name, value) => (some name, value), rest) :=
        readMembers_text nofun proper.2 (by omega)
      rw [membersText, List.isEmpty_cons, if_neg Bool.false_ne_true, List.append_assoc,
        List.append_assoc, List.cons_append, List.cons_append,
        readMembers_more (readName_text name _) read, inner]
      rfl

end

/-- **What is written is read back.** The compact text of a proper value is read as that
value. -/
theorem read?_write {value : Json} (proper : value.Proper) :
    read? value.write = some value := by
  have ends : EndsNumber [] := by
    intro c hc
    cases hc
  have read : readValue (2 * value.text.length + 1) (value.text ++ []) = some (value, []) :=
    readValue_text ends proper (by omega)
  rw [List.append_nil] at read
  rw [read?, write]
  simp only [String.toList_ofList, read]
  rfl

end Json

end FixedInit
