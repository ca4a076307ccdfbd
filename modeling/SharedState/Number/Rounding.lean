import SharedState.Number.Binary

/-!
# Rounding to a binary format

A nonnegative rational number is rounded to the nearest magnitude of a format, and of two that are
equally near to the one at the even place; beyond the largest finite magnitude that is infinity. The
exponent of the rounding unit is found first, then the number of units is rounded to a natural
number. Because places count units within each range, the place is the unit's range times the size
of a range plus that number of units, also when the rounding carries into the next range.
-/

namespace SharedState

/-- The natural number nearest to `num / den`, the even one of two. -/
def roundHalfEven (num den : Nat) : Nat :=
  let whole := num / den
  let rest := num % den
  if 2 * rest < den then whole
  else if den < 2 * rest then whole + 1
  else whole + whole % 2

/-- The exponent of the largest power of two that is at most `num / den`. -/
def floorLog2 (num den : Nat) : Int :=
  let guess : Int := (num.log2 : Int) - den.log2
  if den <<< guess.toNat ≤ num <<< (-guess).toNat then guess else guess - 1

namespace Format

/-- The place of the magnitude nearest to `num / den`. -/
def nearest (f : Format) (num den : Nat) : Nat :=
  if num = 0 then 0
  else
    let unit := max f.lowest (floorLog2 num den - f.fractionBits)
    let units := roundHalfEven (num <<< (-unit).toNat) (den <<< unit.toNat)
    min f.infinity ((unit - f.lowest).toNat <<< f.fractionBits + units)

/-- The place in `g` nearest to the magnitude at a place of `f`. -/
def convertPlace (f g : Format) (place : Nat) : Nat :=
  if f.infinity ≤ place then g.infinity
  else
    let (significand, exponent) := f.unfold place
    g.nearest (significand <<< exponent.toNat) (1 <<< (-exponent).toNat)

end Format

namespace Binary

variable {f : Format}

/-- The value of another format nearest to this one. -/
def convert (g : Format) : Binary f → Binary g
  | .nan => .nan
  | .number negative place => atPlace negative (f.convertPlace g place.val)

/-- The number of 64 bits equal to a number of 32 bits. -/
def widen (x : Single) : Double := x.convert .double

/-- The number of 32 bits nearest to a number of 64 bits. -/
def narrow (x : Double) : Single := x.convert .single

end Binary


end SharedState
