import SharedState.Number.Decimal

/-!
# The shortest decimal that reads back

Every finite magnitude is written with the fewest significant digits that round to it again, and of
the decimals with that many digits by the one nearest to it. On the grid of decimals with a given
unit only the two neighbours of a number matter, because if any point of the grid rounds to the
number, so does the nearest one. Exact ties between the two neighbours are decided by the style of
the output.

Seventeen digits suffice for 64 bits. The search ends with all digits of the exact value, so that
what is found reads back whatever the format is.
-/

namespace SharedState

/-- Which of two equally near decimals is taken. -/
inductive Tie
  | toEven
  | upwards
deriving DecidableEq

namespace Format

/-- The exact value of the finite magnitude at a place, as a numerator and a denominator. -/
def ratio (f : Format) (place : Nat) : Nat × Nat :=
  let (significand, exponent) := f.unfold place
  (significand <<< exponent.toNat, 1 <<< (-exponent).toNat)

/-- The exact value of the finite magnitude at a place, as a decimal. -/
def exactDecimal (f : Format) (place : Nat) : Decimal :=
  let (significand, exponent) := f.unfold place
  if 0 ≤ exponent then ⟨significand <<< exponent.toNat, 0⟩
  else ⟨significand * Nat.pow 5 (-exponent).toNat, exponent⟩

/-- The neighbour of a magnitude on the grid of multiples of `10 ^ unit` that reads back, if one
does. -/
def neighbour? (f : Format) (tie : Tie) (place : Nat) (unit : Int) : Option Decimal :=
  let (num, den) := f.ratio place
  let num := num * Nat.pow 10 (-unit).toNat
  let den := den * Nat.pow 10 unit.toNat
  let below := num / den
  let rest := num % den
  let belowReads := f.nearestDecimal ⟨below, unit⟩ = place
  let aboveReads := rest ≠ 0 ∧ f.nearestDecimal ⟨below + 1, unit⟩ = place
  let aboveNearer := den < 2 * rest ∨ (2 * rest = den ∧ (tie = .upwards ∨ below % 2 = 1))
  if aboveReads ∧ (aboveNearer ∨ ¬ belowReads) then some ⟨below + 1, unit⟩
  else if belowReads then some ⟨below, unit⟩
  else none

end Format

/-- The exponent of the largest power of ten that is at most `num / den`. -/
def floorLog10 (num den : Nat) : Int :=
  if den ≤ num then ((Text.toDigits (num / den)).length : Int) - 1
  else -((Text.toDigits ((den + num - 1) / num - 1)).length : Int)

/-- The same decimal without trailing zeros in its coefficient, as far as `fuel` of them. -/
def Decimal.reduceBy : Nat → Decimal → Decimal
  | 0, d => d
  | fuel + 1, d =>
    if d.coefficient ≠ 0 ∧ d.coefficient % 10 = 0 then
      reduceBy fuel ⟨d.coefficient / 10, d.exponent + 1⟩
    else d

/-- The same decimal without trailing zeros in its coefficient. -/
def Decimal.reduce (d : Decimal) : Decimal :=
  d.reduceBy (Text.toDigits d.coefficient).length

namespace Format

/-- The shortest decimal that reads back as the finite magnitude at a place. -/
def shortest (f : Format) (tie : Tie) (place : Nat) : Decimal :=
  if place = 0 then ⟨0, 0⟩
  else
    let (num, den) := f.ratio place
    let leading := floorLog10 num den
    let found := (List.range 17).findSome? fun more : Nat =>
      f.neighbour? tie place (leading - (more : Int))
    (found.getD (f.exactDecimal place)).reduce

end Format

end SharedState
