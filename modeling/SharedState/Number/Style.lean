import SharedState.Number.Shortest

/-!
# Styles of writing floating point numbers

All outputs write the shortest digits that read back. They differ in where the point goes, in what a
whole number ends with and in how an exponent looks; a `NumberStyle` holds these decisions.
-/

namespace SharedState

/-- The decisions of one way to write a number. The exponents from `lowest` to `highest`, counted at
the leading digit, are written with the point in its place and without an exponent part. -/
structure NumberStyle where
  lowest : Option Int
  highest : Option Int
  pointZero : Bool
  plusSign : Bool
  tie : Tie

namespace NumberStyle

/-- Numbers of documents: `1.0`, `0.00001`, `1e+16`. -/
def document : NumberStyle := ⟨some (-5), some 15, true, true, .toEven⟩

/-- Single numbers in messages: `1`, `0.1`, and never an exponent. -/
def plain : NumberStyle := ⟨none, none, false, false, .upwards⟩

/-- Numbers of a list in messages: `1.0`, `0.0001`, `1e16`. -/
def listed : NumberStyle := ⟨some (-4), some 15, true, false, .upwards⟩

/-- The exponent at the leading digit is written without an exponent part. -/
def isPositional (style : NumberStyle) (leading : Int) : Bool :=
  style.lowest.all (· ≤ leading) && style.highest.all (leading ≤ ·)

/-- The numeral with the point in its place, the last digit standing for `10 ^ exponent`. -/
def positional (style : NumberStyle) (digits : List Char) (exponent : Int) : Numeral :=
  let places := (-exponent).toNat
  if 0 ≤ exponent then
    ⟨digits ++ List.replicate exponent.toNat '0', if style.pointZero then ['0'] else [], none⟩
  else if places < digits.length then
    ⟨digits.take (digits.length - places), digits.drop (digits.length - places), none⟩
  else ⟨['0'], List.replicate (places - digits.length) '0' ++ digits, none⟩

/-- The numeral of a decimal in this style: positional, or with the point after the first digit. -/
def numeral (style : NumberStyle) (d : Decimal) : Numeral :=
  let digits := Text.toDigits d.coefficient
  let leading := d.exponent + digits.length - 1
  if style.isPositional leading then style.positional digits d.exponent
  else ⟨digits.take 1, digits.drop 1, some leading⟩

def write {f : Format} (style : NumberStyle) : Binary f → List Char
  | .nan => "NaN".toList
  | .number negative place =>
    (if negative then ['-'] else []) ++
      if f.infinity ≤ place.val then "inf".toList
      else (style.numeral (f.shortest style.tie place.val)).write style.plusSign

end NumberStyle

end SharedState
