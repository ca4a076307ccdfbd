/-!
# Binary floating point numbers

A number of a binary format is a sign and a magnitude, or it is no number. The magnitudes of a
format form an ascending scale from zero to infinity, and a magnitude is kept as its place on that
scale: the first `2 ^ fractionBits` places are multiples of the smallest step, and each further `2 ^
fractionBits` places double the step. So the order of magnitudes is the order of their places, and
two values are the same datum exactly if they agree in sign and place, with all that is not a number
counting as one.

The program itself compares differently: zero equals its negative, and what is not a number
equals nothing. `Binary.sameNumber` and `Binary.le` are that comparison.
-/

namespace SharedState

/-- A binary format: the bits kept after the leading one, the exponent of the smallest step, and
the count of ranges below infinity. -/
structure Format where
  fractionBits : Nat
  lowest : Int
  ranges : Nat
deriving DecidableEq

namespace Format

def double : Format := ⟨52, -1074, 2047⟩

def single : Format := ⟨23, -149, 255⟩

/-- The place of infinity on the scale of magnitudes. -/
def infinity (f : Format) : Nat :=
  f.ranges <<< f.fractionBits

/-- The significand and the exponent of two that the magnitude at a place below infinity has. -/
def unfold (f : Format) (place : Nat) : Nat × Int :=
  if place < 1 <<< f.fractionBits then (place, f.lowest)
  else (1 <<< f.fractionBits + place % 1 <<< f.fractionBits,
    f.lowest + (place / 1 <<< f.fractionBits : Nat) - 1)

end Format

/-- A value of a binary format. -/
inductive Binary (f : Format)
  | nan
  | number (negative : Bool) (place : Fin (f.infinity + 1))
deriving DecidableEq

abbrev Double := Binary .double

abbrev Single := Binary .single

namespace Binary

variable {f : Format}

/-- The number with the given sign at a place, or infinity if the scale ends before. -/
def atPlace (negative : Bool) (place : Nat) : Binary f :=
  .number negative ⟨min f.infinity place, by omega⟩

def zero : Binary f := atPlace false 0

/-- The value is a number other than the two infinities. -/
def isFinite : Binary f → Bool
  | .nan => false
  | .number _ place => place.val < f.infinity

/-- The place with its sign: an integer that orders all numbers, with both zeros at zero. -/
def rank? : Binary f → Option Int
  | .nan => none
  | .number negative place => some (if negative then -place.val else place.val)

/-- Both are numbers and the first is at most the second. -/
def le (x y : Binary f) : Bool :=
  match x.rank?, y.rank? with
  | some a, some b => a ≤ b
  | _, _ => false

/-- Both are numbers and they are equal as numbers. -/
def sameNumber (x y : Binary f) : Bool :=
  match x.rank?, y.rank? with
  | some a, some b => a = b
  | _, _ => false

/-- Equality of numbers is being at most each other. -/
theorem sameNumber_iff (x y : Binary f) : x.sameNumber y = (x.le y && y.le x) := by
  unfold sameNumber le
  cases x.rank? <;> cases y.rank? <;> simp
  rw [Bool.eq_iff_iff]
  simp
  omega

end Binary

end SharedState
