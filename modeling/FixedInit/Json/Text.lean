/-
JSON text: writing it compactly, with no blanks and only the escapes that JSON asks for, and
reading it.

The reader is strict: no comma before a closing bracket, no leading zero, no raw control
character in a string, nothing but blanks after the value. It takes any depth and any number,
and it lets half of a surrogate pair in a string pass as a broken value.

* `escape_of_graphic` : which characters are written as they are.

Design notes: nesting is by recursion on fuel. Each step of the reader looks at one more
character or goes one level deeper at a character, so twice the length of the text is enough.
-/
import FixedInit.Json.Value

namespace FixedInit.Json

/-! ### Writing -/

/-- How one character is written in a string. -/
def escape (c : Char) : List Char :=
  if c = '"' then ['\\', '"']
  else if c = '\\' then ['\\', '\\']
  else if c = '\x08' then ['\\', 'b']
  else if c = '\x0c' then ['\\', 'f']
  else if c = '\n' then ['\\', 'n']
  else if c = '\r' then ['\\', 'r']
  else if c = '\t' then ['\\', 't']
  else if c.toNat < 0x20 then ['\\', 'u'] ++ Hex.fixed 4 c.toNat
  else [c]

/-- A string between its quotes. -/
def stringText (s : String) : List Char :=
  '"' :: s.toList.flatMap escape ++ ['"']

mutual

/-- The compact text of a value. A broken one is written as a string of half of a pair. -/
def text : Json → List Char
  | null => ['n', 'u', 'l', 'l']
  | boolean true => ['t', 'r', 'u', 'e']
  | boolean false => ['f', 'a', 'l', 's', 'e']
  | number value => value.text
  | string value => stringText value
  | broken => ['"', '\\', 'u', 'd', '8', '0', '0', '"']
  | array items => '[' :: itemsText items ++ [']']
  | object members => '\x7b' :: membersText members ++ ['\x7d']

/-- The items of an array, with commas between them. -/
def itemsText : List Json → List Char
  | [] => []
  | item :: items => text item ++ (if items.isEmpty then [] else ',' :: itemsText items)

/-- The members of an object, with commas between them. -/
def membersText : List (String × Json) → List Char
  | [] => []
  | (name, value) :: members =>
    stringText name ++ ':' :: text value ++
      (if members.isEmpty then [] else ',' :: membersText members)

end

/-- The compact text of a value as a string. -/
def write (value : Json) : String :=
  String.ofList value.text

theorem escape_of_graphic {c : Char} (visible : 0x20 ≤ c.toNat) (not_quote : c ≠ '"')
    (not_backslash : c ≠ '\\') : escape c = [c] := by
  have h₁ : c ≠ '\x08' := by rintro rfl; exact absurd visible (by decide)
  have h₂ : c ≠ '\x0c' := by rintro rfl; exact absurd visible (by decide)
  have h₃ : c ≠ '\n' := by rintro rfl; exact absurd visible (by decide)
  have h₄ : c ≠ '\r' := by rintro rfl; exact absurd visible (by decide)
  have h₅ : c ≠ '\t' := by rintro rfl; exact absurd visible (by decide)
  have h₆ : ¬ c.toNat < 0x20 := by omega
  simp [escape, not_quote, not_backslash, h₁, h₂, h₃, h₄, h₅, h₆]

/-! ### Blanks -/

/-- Blank characters of JSON. -/
def isBlank (c : Char) : Bool :=
  c == ' ' || c == '\n' || c == '\t' || c == '\r'

/-- The text from the first character on that is not blank. -/
def skipBlanks (cs : List Char) : List Char :=
  cs.dropWhile isBlank

/-! ### Reading strings -/

/-- The code that a backslash and one character stand for. -/
def escaped? (c : Char) : Option Nat :=
  if c = '"' ∨ c = '\\' ∨ c = '/' then some c.toNat
  else if c = 'b' then some 0x08
  else if c = 'f' then some 0x0C
  else if c = 'n' then some 0x0A
  else if c = 'r' then some 0x0D
  else if c = 't' then some 0x09
  else none

/-- The codes of a string up to its closing quote, and the text after the quote. An escape by
number may give half of a surrogate pair. -/
def readUnits : List Char → Option (List Nat × List Char)
  | [] => none
  | '"' :: cs => some ([], cs)
  | '\\' :: 'u' :: a :: b :: c :: d :: cs => do
    let unit ← Hex.value? [a, b, c, d]
    let (units, rest) ← readUnits cs
    return (unit :: units, rest)
  | '\\' :: c :: cs => do
    let unit ← escaped? c
    let (units, rest) ← readUnits cs
    return (unit :: units, rest)
  | c :: cs => do
    guard (0x20 ≤ c.toNat)
    let (units, rest) ← readUnits cs
    return (c.toNat :: units, rest)

/-- Whether a code is the first half of a surrogate pair. -/
def isLeading (unit : Nat) : Bool := 0xD800 ≤ unit && unit < 0xDC00

/-- Whether a code is the second half of a surrogate pair. -/
def isTrailing (unit : Nat) : Bool := 0xDC00 ≤ unit && unit < 0xE000

/-- The characters of a list of codes, a surrogate pair being one character; `none` if half of
a pair stands alone. -/
def pairUnits : List Nat → Option (List Char)
  | [] => some []
  | [unit] => if isLeading unit || isTrailing unit then none else some [Char.ofNat unit]
  | unit :: next :: units =>
    if isLeading unit then
      if isTrailing next then
        (pairUnits units).map
          (Char.ofNat (0x10000 + (unit - 0xD800) * 0x400 + (next - 0xDC00)) :: ·)
      else none
    else if isTrailing unit then none
    else (pairUnits (next :: units)).map (Char.ofNat unit :: ·)

/-- A string from behind its opening quote; it may have no text. -/
def readString (cs : List Char) : Option (Option String × List Char) :=
  (readUnits cs).map fun (units, rest) => ((pairUnits units).map String.ofList, rest)

/-! ### Reading numbers -/

/-- A sign and digits after the letter of an exponent. -/
def readExponent (cs : List Char) : Option ((Bool × List Digit) × List Char) :=
  let (negative, cs) := match cs with
    | '-' :: cs => (true, cs)
    | '+' :: cs => (false, cs)
    | cs => (false, cs)
  match takeDigits cs with
  | ([], _) => none
  | (digits, rest) => some ((negative, digits), rest)

/-- The exponent at the head of a text, if there is one. -/
def readExponent? (cs : List Char) : Option (Option (Bool × List Digit) × List Char) :=
  match cs with
  | c :: rest =>
    if c = 'e' ∨ c = 'E' then
      (readExponent rest).map fun (exponent, rest) => (some exponent, rest)
    else some (none, cs)
  | [] => some (none, cs)

/-- The fraction at the head of a text, if there is one. -/
def readFraction? (cs : List Char) : Option (List Digit × List Char) :=
  match cs with
  | '.' :: rest =>
    match takeDigits rest with
    | ([], _) => none
    | (digits, rest) => some (digits, rest)
  | _ => some ([], cs)

/-- A number. Zero is the only one whose digits start with zero. -/
def readNumeral (cs : List Char) : Option (Numeral × List Char) := do
  let (negative, cs) := match cs with
    | '-' :: cs => (true, cs)
    | cs => (false, cs)
  let (whole, cs) := takeDigits cs
  guard (whole.length == 1 || whole.head?.any (·.val != 0))
  let (fraction, cs) ← readFraction? cs
  let (exponent, cs) ← readExponent? cs
  return (⟨negative, whole, fraction, exponent⟩, cs)

/-! ### Reading values -/

/-- The name of a member and the colon after it. -/
def readName (cs : List Char) : Option (Option String × List Char) :=
  match skipBlanks cs with
  | '"' :: rest => do
    let (name?, rest) ← readString rest
    match skipBlanks rest with
    | ':' :: rest => return (name?, rest)
    | _ => none
  | _ => none

mutual

/-- A value at the head of a text, after blanks. -/
def readValue : Nat → List Char → Option (Json × List Char)
  | 0, _ => none
  | fuel + 1, cs =>
    match skipBlanks cs with
    | 'n' :: 'u' :: 'l' :: 'l' :: rest => some (null, rest)
    | 't' :: 'r' :: 'u' :: 'e' :: rest => some (boolean true, rest)
    | 'f' :: 'a' :: 'l' :: 's' :: 'e' :: rest => some (boolean false, rest)
    | '"' :: rest => (readString rest).map fun (text?, rest) => (ofString text?, rest)
    | '[' :: rest =>
      match skipBlanks rest with
      | ']' :: rest => some (array [], rest)
      | rest => (readItems fuel rest).map fun (items, rest) => (array items, rest)
    | '\x7b' :: rest =>
      match skipBlanks rest with
      | '\x7d' :: rest => some (object [], rest)
      | rest => (readMembers fuel rest).map fun (members, rest) => (ofMembers members, rest)
    | rest => (readNumeral rest).map fun (value, rest) => (number value, rest)

/-- One or more items of an array up to its closing bracket. -/
def readItems : Nat → List Char → Option (List Json × List Char)
  | 0, _ => none
  | fuel + 1, cs => do
    let (item, rest) ← readValue fuel cs
    match skipBlanks rest with
    | ']' :: rest => return ([item], rest)
    | ',' :: rest =>
      let (items, rest) ← readItems fuel rest
      return (item :: items, rest)
    | _ => none

/-- One or more members of an object up to its closing brace. -/
def readMembers : Nat → List Char → Option (List (Option String × Json) × List Char)
  | 0, _ => none
  | fuel + 1, cs => do
    let (name?, rest) ← readName cs
    let (value, rest) ← readValue fuel rest
    match skipBlanks rest with
    | '\x7d' :: rest => return ([(name?, value)], rest)
    | ',' :: rest =>
      let (members, rest) ← readMembers fuel rest
      return ((name?, value) :: members, rest)
    | _ => none

end

/-- The value that a whole text writes. -/
def read? (text : String) : Option Json :=
  let cs := text.toList
  match readValue (2 * cs.length + 1) cs with
  | some (value, rest) => if (skipBlanks rest).isEmpty then some value else none
  | none => none

end FixedInit.Json
