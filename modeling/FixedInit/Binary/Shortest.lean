/-
The shortest decimal of a binary floating point number, and the numeral that writes it.

`shortest` gives the decimal with the fewest digits among those that read back as the same
number, and of those the one nearest to it. The search goes down the grids of the multiples of
`10 ^ e`, from the first power of ten not below the magnitude to the grid on which the
magnitude itself lies; on each grid only the two neighbours of the magnitude can be nearest.

Design notes: on a grid where both neighbours read back and are equally near, the larger one
is taken. Which exponents are written out belongs to an output format, and is a field of
`Layout`.
-/
import FixedInit.Binary.Nearest

namespace FixedInit

/-- How a decimal is laid out as a numeral. -/
structure Layout where
  /-- The least exponent of the leading digit that is written without an exponent. -/
  plainFrom : Int
  /-- The least exponent of the leading digit that is again written with an exponent. -/
  plainBelow : Int
  deriving DecidableEq

namespace Format

/-- Whether a multiple of `10 ^ e` rounds to the rank. -/
def readsBack (f : Format) (rank : Nat) (count : Nat) (e : Int) : Bool :=
  f.rankOf (count * tenPow e.toNat) (tenPow (-e).toNat) == rank

/-- The magnitude of a rank is this fraction of `10 ^ e`. -/
def inGrid (f : Format) (rank : Nat) (e : Int) : Nat × Nat :=
  (f.units rank * tenPow (-e).toNat, twoPow f.scale * tenPow e.toNat)

/-- The multiple of `10 ^ e` nearest to the magnitude of a rank, if one of the two multiples
next to the magnitude rounds to the rank; of two equally near ones the larger. -/
def nearestOn? (f : Format) (rank : Nat) (e : Int) : Option Nat :=
  let (num, den) := f.inGrid rank e
  let below := num / den
  match f.readsBack rank below e, f.readsBack rank (below + 1) e with
  | false, false => none
  | true, false => some below
  | false, true => some (below + 1)
  | true, true => if 2 * (num % den) < den then some below else some (below + 1)

/-- The first grid from `10 ^ e` down with a multiple that rounds to the rank, for at most
`steps` grids; the last one is taken as the grid on which the magnitude lies. -/
def shortestFrom (f : Format) (rank : Nat) : Nat → Int → Nat × Int
  | 0, e => ((f.inGrid rank e).1 / (f.inGrid rank e).2, e)
  | steps + 1, e =>
    match f.nearestOn? rank e with
    | some count => (count, e)
    | none => shortestFrom f rank steps (e - 1)

/-- An exponent whose power of ten is not below the magnitude of a rank above zero, and at
most one more than the least such exponent. -/
def firstExponent (f : Format) (rank : Nat) : Int :=
  let units := f.units rank
  let one := twoPow f.scale
  if one ≤ units then (Digits.ofNat (units / one)).length
  else 1 - (Digits.ofNat (one / units)).length

/-- The significand and exponent of the shortest decimal of a rank above zero. On the grid of
`10 ^ -scale` every magnitude is a multiple, so the search need not go further. -/
def shortest (f : Format) (rank : Nat) : Nat × Int :=
  let e := f.firstExponent rank
  f.shortestFrom rank (e + f.scale).toNat e

end Format

namespace Layout

/-- The numeral of `digits` times `10 ^ exponent`. Without an exponent at least one digit
stands on either side of the point; with one, the point is left out after a single digit. -/
def numeral (layout : Layout) (negative : Bool) (digits : List Digit)
    (exponent : Int) : Numeral :=
  let point := exponent + digits.length
  let zeros (n : Int) : List Digit := List.replicate n.toNat 0
  if layout.plainFrom < point ∧ point ≤ layout.plainBelow then
    if 0 ≤ exponent then ⟨negative, digits ++ zeros exponent, [0], none⟩
    else if 0 < point then ⟨negative, digits.take point.toNat, digits.drop point.toNat, none⟩
    else ⟨negative, [0], zeros (-point) ++ digits, none⟩
  else
    let power := point - 1
    ⟨negative, digits.take 1, digits.drop 1, some (power < 0, Digits.ofNat power.natAbs)⟩

/-- The numeral of a finite number; the sign of zero is kept. -/
def finite (layout : Layout) {f : Format} (negative : Bool) (rank : Fin f.bound) : Numeral :=
  if rank.val = 0 then ⟨negative, [0], [0], none⟩
  else
    let (significand, exponent) := f.shortest rank.val
    layout.numeral negative (Digits.ofNat significand) exponent

end Layout

end FixedInit
