/-!
# Whole numbers in text

Decimal digits, the number that a run of digits denotes, and the reading of bounded whole numbers
with an optional sign. A text that is refused has one of three faults; the digits are taken from
the left, so of a bad digit and an overflow the one met first is reported.
-/

namespace SharedState.Text

def digit? (c : Char) : Option Nat :=
  if '0' ≤ c ∧ c ≤ '9' then some (c.toNat - '0'.toNat) else none

/-- The character is one of `0` to `9`. -/
def isDigit (c : Char) : Bool :=
  '0' ≤ c && c ≤ '9'

/-- The number that a run of digits denotes, continuing from `start`. -/
def ofDigits (start : Nat) (digits : List Char) : Nat :=
  digits.foldl (fun n c => 10 * n + (c.toNat - '0'.toNat)) start

/-- The decimal digits of a number, without leading zeros. -/
def toDigits (n : Nat) : List Char :=
  Nat.toDigits 10 n

/-- Why a text denotes no whole number of the wanted range. -/
inductive IntegerFault
  | empty
  | badDigit
  | tooLarge
deriving DecidableEq

def IntegerFault.message : IntegerFault → String
  | .empty => "cannot parse integer from empty string"
  | .badDigit => "invalid digit found in string"
  | .tooLarge => "number too large to fit in target type"

/-- Digits read from the left on top of `start`, refused as soon as the number exceeds `limit`. -/
def boundedDigits (limit : Nat) (start : Nat) : List Char → Except IntegerFault Nat
  | [] => .ok start
  | c :: rest =>
    match digit? c with
    | none => .error .badDigit
    | some d =>
      if limit < 10 * start + d then .error .tooLarge else boundedDigits limit (10 * start + d) rest

/-- A natural number of at most `limit`: an optional plus sign and at least one digit. -/
def readNat (limit : Nat) : List Char → Except IntegerFault Nat
  | [] => .error .empty
  | ['+'] => .error .badDigit
  | '+' :: digits => boundedDigits limit 0 digits
  | digits => boundedDigits limit 0 digits

/-- An integer of `bits` bits in two's complement: an optional sign and at least one digit. -/
def readInt? (bits : Nat) : List Char → Option Int
  | ['-'] => none
  | '-' :: digits => (boundedDigits (1 <<< (bits - 1)) 0 digits).toOption.map fun n => -(n : Int)
  | text => (readNat (1 <<< (bits - 1) - 1) text).toOption.map fun n => (n : Int)

/-- The largest natural number of 64 bits. -/
def maxWord : Nat := 1 <<< 64 - 1

end SharedState.Text
