import SharedState.Number.Rounding
import SharedState.Text.Digits

/-!
# Decimal numbers

A decimal is a natural coefficient times a power of ten; a numeral is one way of writing it, as
digits around a point with or without an exponent. This module rounds decimals to a binary format
and reads them from text in the free form that settings and values use: an optional sign, then
digits with an optional point and an optional exponent, or a name for infinity or for no number.

The power of ten may be as large as a text can write. Before it is computed, decimals that certainly
lie beyond the format are sorted out by bounds on their size: ten is more than the cube of two.
-/

namespace SharedState

/-- A coefficient times a power of ten. -/
structure Decimal where
  coefficient : Nat
  exponent : Int
deriving DecidableEq

/-- Digits before the point, digits after it if there is a point, and an exponent if one is written.
-/
structure Numeral where
  whole : List Char
  fraction : List Char
  exponent : Option Int
deriving DecidableEq

namespace Numeral

def toDecimal (n : Numeral) : Decimal :=
  ⟨Text.ofDigits (Text.ofDigits 0 n.whole) n.fraction, n.exponent.getD 0 - n.fraction.length⟩

/-- The text of a numeral, with or without a plus sign before an exponent that is not negative. -/
def write (plusSign : Bool) (n : Numeral) : List Char :=
  n.whole ++ (if n.fraction.isEmpty then [] else '.' :: n.fraction) ++
    match n.exponent with
    | none => []
    | some e =>
      'e' :: (if e < 0 then ['-'] else if plusSign then ['+'] else []) ++ Text.toDigits e.natAbs

end Numeral

namespace Format

/-- The exponent of the power of two that the scale of magnitudes ends before. -/
def top (f : Format) : Int :=
  f.lowest + f.ranges - 1 + f.fractionBits

/-- The place of the magnitude nearest to a decimal. -/
def nearestDecimal (f : Format) (d : Decimal) : Nat :=
  if d.coefficient = 0 then 0
  else if 0 ≤ d.exponent ∧ f.top ≤ d.coefficient.log2 + 3 * d.exponent then f.infinity
  else if d.exponent < 0 ∧ d.coefficient.log2 + 1 + 3 * d.exponent < f.lowest then 0
  else f.nearest (d.coefficient * Nat.pow 10 d.exponent.toNat) (Nat.pow 10 (-d.exponent).toNat)

end Format

namespace Binary

variable {f : Format}

def ofDecimal (negative : Bool) (d : Decimal) : Binary f :=
  atPlace negative (f.nearestDecimal d)

def infinite (negative : Bool) : Binary f :=
  atPlace negative f.infinity

/-- An exponent part: nothing, or the letter `e` with an optional sign and at least one digit. -/
def readExponent? : List Char → Option (Option Int)
  | [] => some none
  | c :: rest =>
    if c = 'e' ∨ c = 'E' then
      let (negative, digits) := match rest with
        | '-' :: digits => (true, digits)
        | '+' :: digits => (false, digits)
        | digits => (false, digits)
      if digits ≠ [] ∧ digits.all Text.isDigit then
        some (some (if negative then -(Text.ofDigits 0 digits : Int) else Text.ofDigits 0 digits))
      else none
    else none

/-- An unsigned numeral: digits with an optional point, at least one digit, an optional exponent. -/
def readNumeral? (text : List Char) : Option Numeral :=
  let whole := text.takeWhile Text.isDigit
  let rest := text.dropWhile Text.isDigit
  let (fraction, rest) := match rest with
    | '.' :: rest => (rest.takeWhile Text.isDigit, rest.dropWhile Text.isDigit)
    | rest => ([], rest)
  if whole = [] ∧ fraction = [] then none
  else (readExponent? rest).map (Numeral.mk whole fraction)

/-- An unsigned number in text: a numeral, or a name in letters of any case. -/
def readMagnitude? (negative : Bool) (text : List Char) : Option (Binary f) :=
  let name := text.map Char.toLower
  if name = "inf".toList ∨ name = "infinity".toList then some (infinite negative)
  else if name = "nan".toList then some .nan
  else (readNumeral? text).map fun n => ofDecimal negative n.toDecimal

/-- A number in text: an optional sign, then a numeral or a name. -/
def read? : List Char → Option (Binary f)
  | '-' :: text => readMagnitude? true text
  | '+' :: text => readMagnitude? false text
  | text => readMagnitude? false text

end Binary

end SharedState
