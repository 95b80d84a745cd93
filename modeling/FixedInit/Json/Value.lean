/-
JSON values as they are written, and what their numbers stand for.

Members keep their order and may repeat a name, and numbers keep their digits, so that what is
ignored on reading need not make sense as a number.

* `integer?_ofInt` : a written integer of 64 bits stands for itself.
-/
import FixedInit.Binary.Nearest

namespace FixedInit

/-! ### Numbers

A numeral stands for an integer if it has neither fraction nor exponent and fits 64 bits, and
for a binary64 number in any case. The latter is found quickly and not always correctly
rounded: the leading digits that fit 64 bits are rounded to a binary64 number, which is then
multiplied or divided by a power of ten, itself rounded, with a rounding of its own. -/

namespace Numeral

/-- The integer that a numeral stands for: unsigned 64 bits without a sign, signed 64 bits
with one. A negative zero is no integer. -/
def integer? (n : Numeral) : Option Int :=
  if n.fraction.isEmpty && n.exponent.isNone then
    let value := Digits.value n.whole
    if n.negative then if 0 < value ∧ value ≤ twoPow 63 then some (-value) else none
    else if value < twoPow 64 then some value else none
  else none

/-- Appends digits to a number while it fits 64 bits, and returns the digits left over. -/
def absorb (n : Nat) : List Digit → Nat × List Digit
  | [] => (n, [])
  | d :: ds => if 10 * n + d.val < twoPow 64 then absorb (10 * n + d.val) ds else (n, d :: ds)

/-- The significand of 64 bits and the power of ten that scales it. Digits of the whole part
that do not fit raise the power; digits of the fraction that do not fit are dropped. -/
def significand (n : Numeral) : Nat × Int :=
  let (whole, extra) := absorb 0 n.whole
  let (kept, dropped) := absorb whole n.fraction
  let written : Int := match n.exponent with
    | none => 0
    | some (negative, digits) =>
      if negative then -(Digits.value digits) else Digits.value digits
  (kept, extra.length - (n.fraction.length - dropped.length : Nat) + written)

/-- The units of the binary64 number nearest to a power of ten. -/
def powerUnits (k : Nat) : Nat :=
  Format.double.units (Format.double.rankOf (tenPow k) 1)

/-- The rank of a magnitude multiplied by the rounded power `10 ^ k`. -/
def scaleUp (rank k : Nat) : Nat :=
  Format.double.rankOf (Format.double.units rank * powerUnits k)
    (twoPow (2 * Format.double.scale))

/-- The rank of a magnitude divided by the rounded power `10 ^ k`. -/
def scaleDown (rank k : Nat) : Nat :=
  Format.double.rankOf (Format.double.units rank) (powerUnits k)

/-- The rank of a significand of 64 bits scaled by a power of ten. The powers go up to 308, so
a smaller exponent than -308 takes two divisions, and below -616 nothing is left. A number
beyond the finite ones has no rank. -/
def rank? (significand : Nat) (exponent : Int) : Option (Fin Format.double.bound) :=
  let start := Format.double.rankOf significand 1
  let rank :=
    if significand = 0 ∨ exponent < -616 then 0
    else if exponent < -308 then scaleDown (scaleDown start 308) (-exponent - 308).toNat
    else if exponent < 0 then scaleDown start (-exponent).toNat
    else if exponent ≤ 308 then scaleUp start exponent.toNat
    else Format.double.bound
  if h : rank < Format.double.bound then some ⟨rank, h⟩ else none

/-- The binary64 number that a numeral stands for, unless it is too large. -/
def double? (n : Numeral) : Option (Binary .double) :=
  (rank? n.significand.1 n.significand.2).map fun rank => .finite n.negative rank

/-- The number of a format that a numeral stands for: an integer is rounded to the format, any
other numeral to binary64 first. -/
def binary? (f : Format) (n : Numeral) : Option (Binary f) :=
  match n.integer? with
  | some value => some (.ofInt f value)
  | none => n.double?.map (Binary.convert f)

theorem integer?_ofInt {n : Int} (lower : -(twoPow 63) ≤ n) (upper : n < twoPow 64) :
    (ofInt n).integer? = some n := by
  simp only [ofInt, integer?, List.isEmpty_nil, Option.isNone_none, Bool.and_self, if_true,
    Digits.value_ofNat, decide_eq_true_eq]
  by_cases h : n < 0
  · rw [if_pos h, if_pos (by omega)]
    congr 1
    omega
  · rw [if_neg h, if_pos (by omega)]
    congr 1
    omega

end Numeral

/-! ### Values -/

/-- A JSON value. A `broken` one is a well-formed string with an escape that names half of a
surrogate pair, or an object with such a string for a name; nothing but skipping it makes
sense. -/
inductive Json
  | null
  | boolean (value : Bool)
  | number (value : Numeral)
  | string (value : String)
  | broken
  | array (items : List Json)
  | object (members : List (String × Json))

namespace Json

mutual

/-- How deep arrays and objects are nested. Every other value has depth zero, a broken one
too, since nothing in it is ever read. -/
def depth : Json → Nat
  | null => 0
  | boolean _ => 0
  | number _ => 0
  | string _ => 0
  | broken => 0
  | array items => depthItems items + 1
  | object members => depthMembers members + 1

/-- The greatest depth of the items of an array. -/
def depthItems : List Json → Nat
  | [] => 0
  | item :: items => max (depth item) (depthItems items)

/-- The greatest depth of the members of an object. -/
def depthMembers : List (String × Json) → Nat
  | [] => 0
  | (_, value) :: members => max (depth value) (depthMembers members)

end

mutual

/-- Whether every string and every number of a value can be read. -/
def readable : Json → Bool
  | null => true
  | boolean _ => true
  | number value => value.integer?.isSome || value.double?.isSome
  | string _ => true
  | broken => false
  | array items => readableItems items
  | object members => readableMembers members

/-- Whether every item of an array can be read. -/
def readableItems : List Json → Bool
  | [] => true
  | item :: items => readable item && readableItems items

/-- Whether every member of an object can be read. -/
def readableMembers : List (String × Json) → Bool
  | [] => true
  | (_, value) :: members => readable value && readableMembers members

end

/-- The value of a string as it was read, a string without a text being `none`. -/
def ofString : Option String → Json
  | some text => string text
  | none => broken

/-- The object of members as they were read, a name without a text being `none`. -/
def ofMembers (members : List (Option String × Json)) : Json :=
  match members.mapM fun (name?, value) => name?.map fun name => (name, value) with
  | some members => object members
  | none => broken

/-- The JSON value of an integer. -/
def ofInt (n : Int) : Json := number (.ofInt n)

/-- The JSON value of an optional text: null if there is none. -/
def ofText? : Option String → Json
  | none => null
  | some text => string text

end Json

end FixedInit
