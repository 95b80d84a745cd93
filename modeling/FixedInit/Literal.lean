/-
Literals of integers and of real numbers, and the literal expressions of a fixed value.

* `read_nil`, `read_lone_sign` : the texts without a digit that are not decided by a
  character;
* `read_blank` : a text of blanks only is reported as empty.
-/
import FixedInit.Failure
import FixedInit.Model.Expr
import FixedInit.Target

namespace FixedInit

/-! ### Integer literals

An optional sign and one or more ASCII digits, within a width. The digits are added up from
the left, and the first character at which something is wrong decides what is reported: a
character that is no digit, or a value out of range so far. -/

namespace IntegerLiteral

/-- What keeps a text from being an integer literal of a width. -/
inductive Defect
  | empty
  | invalidDigit
  | tooLarge
  | tooSmall
  deriving DecidableEq

/-- The wording of a defect. -/
def Defect.message : Defect → String
  | empty => "cannot parse integer from empty string"
  | invalidDigit => "invalid digit found in string"
  | tooLarge => "number too large to fit in target type"
  | tooSmall => "number too small to fit in target type"

/-- The value of the digits read so far followed by further ones, each counted with the
sign. -/
def addDigits {bits : Nat} (negative : Bool) (sum : Signed bits) :
    List Char → Except Defect (Signed bits)
  | [] => .ok sum
  | c :: cs =>
    match Digit.ofChar? c with
    | none => .error .invalidDigit
    | some d =>
      match Signed.ofInt? bits
          (10 * sum.val + if negative then -(d.val : Int) else d.val) with
      | some next => addDigits negative next cs
      | none => .error (if negative then .tooSmall else .tooLarge)

/-- The digits after a sign; a sign alone counts as a character that is no digit. -/
def afterSign (bits : Nat) (negative : Bool) : List Char → Except Defect (Signed bits)
  | [] => .error .invalidDigit
  | cs => addDigits negative .zero cs

/-- The integer that a text writes in the given width. -/
def read (bits : Nat) : List Char → Except Defect (Signed bits)
  | [] => .error .empty
  | '-' :: cs => afterSign bits true cs
  | '+' :: cs => afterSign bits false cs
  | cs => addDigits false .zero cs

theorem read_nil (bits : Nat) : read bits [] = .error .empty := rfl

theorem read_lone_sign (bits : Nat) :
    read bits ['-'] = .error .invalidDigit ∧ read bits ['+'] = .error .invalidDigit :=
  ⟨rfl, rfl⟩

end IntegerLiteral

/-! ### Literals of real numbers

What a text writes, before it is rounded to any format: an optional sign followed by `inf`,
`infinity` or `nan` in any case, or by digits with an optional point, at least one digit on
either side of it, and an optional exponent. White space around the literal is not part of
it. -/

/-- What a literal of a real number writes. -/
inductive RealLiteral
  | nan
  | infinite (negative : Bool)
  | decimal (value : Decimal)
  deriving DecidableEq

namespace RealLiteral

/-- What keeps a text from being a literal. -/
inductive Defect
  | empty
  | malformed
  deriving DecidableEq

/-- The wording of a defect. -/
def Defect.message : Defect → String
  | empty => "cannot parse float from empty string"
  | malformed => "invalid float literal"

/-- A sign at the head of a text: whether it is a minus, and the text after it. -/
def takeSign : List Char → Bool × List Char
  | '-' :: cs => (true, cs)
  | '+' :: cs => (false, cs)
  | cs => (false, cs)

/-- The digits after a point at the head of a text, if there is a point. -/
def takeFraction : List Char → List Digit × List Char
  | '.' :: cs => takeDigits cs
  | cs => ([], cs)

/-- The exponent that makes up a whole text. No text is the exponent zero. -/
def exponent? : List Char → Option Int
  | [] => some 0
  | c :: cs =>
    if c = 'e' ∨ c = 'E' then
      let (negative, cs) := takeSign cs
      match takeDigits cs with
      | (d :: ds, []) =>
        let value : Int := Digits.value (d :: ds)
        some (if negative then -value else value)
      | _ => none
    else none

/-- The decimal that a whole text without a sign writes. -/
def decimal? (negative : Bool) (cs : List Char) : Option Decimal :=
  let (whole, cs) := takeDigits cs
  let (fraction, cs) := takeFraction cs
  if whole.isEmpty && fraction.isEmpty then none
  else (exponent? cs).map fun e =>
    ⟨negative, Digits.value (whole ++ fraction), e - fraction.length⟩

/-- The special value that a whole text without a sign names. -/
def special? (negative : Bool) (cs : List Char) : Option RealLiteral :=
  let word := cs.map Char.toLower
  if word = ['n', 'a', 'n'] then some nan
  else if word = ['i', 'n', 'f'] ∨ word = ['i', 'n', 'f', 'i', 'n', 'i', 't', 'y'] then
    some (infinite negative)
  else none

/-- The literal that a text writes once the blanks around it are removed. -/
def read (cs : List Char) : Except Defect RealLiteral :=
  match Text.trim cs with
  | [] => .error .empty
  | cs =>
    let (negative, cs) := takeSign cs
    match decimal? negative cs with
    | some value => .ok (decimal value)
    | none =>
      match special? negative cs with
      | some value => .ok value
      | none => .error .malformed

/-- The number of a format that a literal stands for. -/
def toBinary (f : Format) : RealLiteral → Binary f
  | nan => .nan
  | infinite negative => .infinite negative
  | decimal value => .ofDecimal f value

theorem read_blank {cs : List Char} (h : ∀ c ∈ cs, Text.isBlank c = true) :
    read cs = .error .empty := by
  have dropped : cs.dropWhile Text.isBlank = [] := by
    induction cs with
    | nil => rfl
    | cons c cs ih =>
      rw [List.dropWhile_cons_of_pos (h c (by simp))]
      exact ih fun c hc => h c (by simp [hc])
  simp [read, Text.trim, dropped]

end RealLiteral

/-! ### Literal expressions -/

namespace Literal

/-- The boolean that a text stands for: true for the word in any case, false for all else. -/
def boolean (value : String) : Bool :=
  value.toList.map Char.toLower = ['t', 'r', 'u', 'e']

/-- The failure of an integer literal. -/
def integerError (field target value : String) (defect : IntegerLiteral.Defect) :
    LiteralError :=
  .invalidInteger field target value defect.message

/-- The failure of a floating point literal. -/
def realError (field target value : String) (defect : RealLiteral.Defect) : LiteralError :=
  .invalidFloat field target value defect.message

/-- The integer literal of a field of at most 32 bits. -/
def narrowInt (field : String) (width : IntWidth) (value : String) :
    Except LiteralError Expr :=
  match IntegerLiteral.read width.bits value.toList with
  | .ok n => .ok (.int (n.widen width.bits_le))
  | .error defect => .error (integerError field width.typeName value defect)

/-- The integer literal of a field of 64 bits. -/
def wideInt (field value : String) : Except LiteralError Expr :=
  match IntegerLiteral.read 64 value.toList with
  | .ok n => .ok (.long n)
  | .error defect => .error (integerError field "Long" value defect)

/-- The single precision literal of a field. -/
def singleFloat (field value : String) : Except LiteralError Expr :=
  match RealLiteral.read value.toList with
  | .ok literal => .ok (.float (literal.toBinary .single))
  | .error defect => .error (realError field "Float" value defect)

/-- The double precision literal of a field. -/
def doubleFloat (field value : String) : Except LiteralError Expr :=
  match RealLiteral.read value.toList with
  | .ok literal => .ok (.double (literal.toBinary .double))
  | .error defect => .error (realError field "Double" value defect)

end Literal

end FixedInit
