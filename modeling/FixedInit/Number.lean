/-
Numbers and the characters that write them: powers of two and of ten, decimal and hexadecimal
digits, integers of a given width, and numerals.

* `twoPow_add` and `tenPow_succ` : what adding to the exponent does;
* `value_append` : what appending does to the value of a digit list;
* `value_ofNat` : the digits of a number have that number as their value;
* `takeDigits_text_append` : reading stops exactly where the written digits end;
* `Signed.ofInt?_eq_some` : which integers fit a width;
* `text_ofInt` : the numeral of an integer is its decimal text.

Design notes: digit lists are written most significant first. Powers are functions of their
own, so that they mean the same with any library in scope.
-/
namespace FixedInit

/-! ### Powers -/

/-- Two to the power `n`. -/
def twoPow (n : Nat) : Nat := Nat.pow 2 n

/-- Ten to the power `n`. -/
def tenPow (n : Nat) : Nat := Nat.pow 10 n

@[simp] theorem twoPow_zero : twoPow 0 = 1 := rfl

theorem twoPow_succ (n : Nat) : twoPow (n + 1) = 2 * twoPow n :=
  Nat.pow_succ'

theorem twoPow_add (m n : Nat) : twoPow (m + n) = twoPow m * twoPow n :=
  Nat.pow_add 2 m n

theorem twoPow_pos (n : Nat) : 0 < twoPow n :=
  Nat.two_pow_pos n

theorem twoPow_le_twoPow {m n : Nat} (h : m ≤ n) : twoPow m ≤ twoPow n :=
  Nat.pow_le_pow_right (by decide) h

@[simp] theorem tenPow_zero : tenPow 0 = 1 := rfl

theorem tenPow_succ (n : Nat) : tenPow (n + 1) = 10 * tenPow n :=
  Nat.pow_succ'

theorem log2_lt_iff {n : Nat} (k : Nat) (h : n ≠ 0) : n.log2 < k ↔ n < twoPow k :=
  Nat.log2_lt h

theorem log2_eq_iff {n : Nat} (k : Nat) (h : n ≠ 0) :
    n.log2 = k ↔ twoPow k ≤ n ∧ n < twoPow (k + 1) :=
  Nat.log2_eq_iff h

/-! ### Decimal digits -/

/-- A decimal digit. -/
abbrev Digit := Fin 10

namespace Digit

/-- The digit that a character writes, for the characters from `0` to `9`. -/
def ofChar? (c : Char) : Option Digit :=
  if h : 48 ≤ c.toNat ∧ c.toNat < 58 then some ⟨c.toNat - 48, by omega⟩ else none

/-- The character that writes a digit. -/
def toChar (d : Digit) : Char :=
  Char.ofNat (48 + d.val)

@[simp] theorem ofChar?_toChar (d : Digit) : ofChar? d.toChar = some d := by
  revert d
  decide

end Digit

namespace Digits

/-- The number that a list of digits writes; no digit at all writes zero. -/
def value (digits : List Digit) : Nat :=
  digits.foldl (fun n d => 10 * n + d.val) 0

/-- The digits of a number, without a leading zero; zero has one digit. -/
def ofNat (n : Nat) : List Digit :=
  if h : n < 10 then [⟨n, h⟩] else ofNat (n / 10) ++ [⟨n % 10, by omega⟩]
termination_by n
decreasing_by omega

/-- The characters of a list of digits. -/
def text (digits : List Digit) : List Char :=
  digits.map Digit.toChar

theorem value_append (a b : List Digit) :
    value (a ++ b) = value a * tenPow b.length + value b := by
  have from_start : ∀ (b : List Digit) (n : Nat),
      b.foldl (fun n d => 10 * n + d.val) n
        = n * tenPow b.length + b.foldl (fun n d => 10 * n + d.val) 0 := by
    intro b
    induction b with
    | nil => intro n; simp
    | cons d b ih =>
      intro n
      simp only [List.foldl_cons, List.length_cons, tenPow_succ]
      rw [ih (10 * n + d.val), ih (10 * 0 + d.val)]
      grind
  rw [value, List.foldl_append, from_start]
  rfl

@[simp] theorem value_nil : value [] = 0 := rfl

@[simp] theorem value_singleton (d : Digit) : value [d] = d.val := by simp [value]

theorem value_ofNat (n : Nat) : value (ofNat n) = n := by
  fun_induction ofNat n with
  | case1 n h => simp
  | case2 n h ih =>
    rw [value_append, ih]
    simp [tenPow_succ]
    omega

end Digits

/-- The digits at the head of a text, and the text after them. -/
def takeDigits : List Char → List Digit × List Char
  | [] => ([], [])
  | c :: cs =>
    match Digit.ofChar? c with
    | some d => (d :: (takeDigits cs).1, (takeDigits cs).2)
    | none => ([], c :: cs)

theorem takeDigits_text_append (digits : List Digit) {rest : List Char}
    (h : ∀ c ∈ rest.head?, Digit.ofChar? c = none) :
    takeDigits (Digits.text digits ++ rest) = (digits, rest) := by
  induction digits with
  | nil =>
    cases rest with
    | nil => rfl
    | cons c cs => simp [Digits.text, takeDigits, h c (by simp)]
  | cons d ds ih =>
    have tail : takeDigits (ds.map Digit.toChar ++ rest) = (ds, rest) := ih
    simp [Digits.text, takeDigits, tail]

/-! ### Hexadecimal digits -/

namespace Hex

/-- The character that writes a hexadecimal digit. -/
def toChar (d : Fin 16) : Char :=
  if d.val < 10 then Char.ofNat (48 + d.val) else Char.ofNat (87 + d.val)

/-- The digit that a character writes, if it is one. -/
def ofChar? (c : Char) : Option (Fin 16) :=
  let code := c.toNat
  if h : 48 ≤ code ∧ code < 58 then some ⟨code - 48, by omega⟩
  else if h : 97 ≤ code ∧ code < 103 then some ⟨code - 87, by omega⟩
  else if h : 65 ≤ code ∧ code < 71 then some ⟨code - 55, by omega⟩
  else none

@[simp] theorem ofChar?_toChar (d : Fin 16) : ofChar? (toChar d) = some d := by
  revert d
  decide

/-- A number in hexadecimal without leading zeros; zero has one digit. -/
def ofNat (n : Nat) : List Char :=
  if h : n < 16 then [toChar ⟨n, h⟩] else ofNat (n / 16) ++ [toChar ⟨n % 16, by omega⟩]
termination_by n
decreasing_by omega

/-- The last `width` hexadecimal digits of a number, with leading zeros. -/
def fixed : Nat → Nat → List Char
  | 0, _ => []
  | width + 1, n => fixed width (n / 16) ++ [toChar ⟨n % 16, by omega⟩]

/-- The number that a text writes, if every character of it is a hexadecimal digit. -/
def value? (cs : List Char) : Option Nat :=
  cs.foldl (fun acc c => acc.bind fun n => (ofChar? c).map fun d => 16 * n + d.val) (some 0)

theorem length_fixed (width n : Nat) : (fixed width n).length = width := by
  induction width generalizing n with
  | zero => rfl
  | succ width ih => simp [fixed, ih]

end Hex

/-! ### Integers of a given width -/

/-- An integer that fits a two's complement word of `bits` bits. -/
structure Signed (bits : Nat) where
  val : Int
  lower : -(twoPow (bits - 1)) ≤ val
  upper : val < twoPow (bits - 1)
  deriving DecidableEq

namespace Signed

variable {bits : Nat}

/-- The integer as a word, if it fits. -/
def ofInt? (bits : Nat) (n : Int) : Option (Signed bits) :=
  if h : -(twoPow (bits - 1)) ≤ n ∧ n < twoPow (bits - 1) then some ⟨n, h.1, h.2⟩ else none

/-- Zero fits every width. -/
def zero : Signed bits :=
  have := twoPow_pos (bits - 1)
  ⟨0, by omega, by omega⟩

/-- A word in a width that is at least as large. -/
def widen {wide : Nat} (h : bits ≤ wide) (n : Signed bits) : Signed wide :=
  have grow : twoPow (bits - 1) ≤ twoPow (wide - 1) := twoPow_le_twoPow (by omega)
  ⟨n.val, by have := n.lower; omega, by have := n.upper; omega⟩

theorem ofInt?_eq_some {n : Int} {w : Signed bits} : ofInt? bits n = some w ↔ n = w.val := by
  constructor
  · intro h
    unfold ofInt? at h
    split at h
    · cases h; rfl
    · simp at h
  · rintro rfl
    simp [ofInt?, w.lower, w.upper]

end Signed

/-- An integer in decimal, with a minus sign if it is negative. -/
def decimalText (n : Int) : List Char :=
  (if n < 0 then ['-'] else []) ++ Digits.text (Digits.ofNat n.natAbs)

/-! ### Numerals -/

/-- A number as it is written: sign, digits before the point, digits after it, and the sign
and digits of an exponent. Without a digit after the point there is no point. -/
structure Numeral where
  negative : Bool
  whole : List Digit
  fraction : List Digit
  exponent : Option (Bool × List Digit)
  deriving DecidableEq

namespace Numeral

/-- The numeral of an integer. -/
def ofInt (n : Int) : Numeral :=
  ⟨n < 0, Digits.ofNat n.natAbs, [], none⟩

/-- The characters of a numeral. The exponent follows an `e` and has a sign only if
negative. -/
def text (n : Numeral) : List Char :=
  (if n.negative then ['-'] else []) ++ Digits.text n.whole ++
    (if n.fraction.isEmpty then [] else '.' :: Digits.text n.fraction) ++
    match n.exponent with
    | none => []
    | some (negative, digits) =>
      'e' :: ((if negative then ['-'] else []) ++ Digits.text digits)

theorem text_ofInt (n : Int) : (ofInt n).text = decimalText n := by
  simp [text, ofInt, decimalText]

end Numeral

end FixedInit
