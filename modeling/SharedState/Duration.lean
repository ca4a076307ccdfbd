import SharedState.Text.Blank
import SharedState.Text.Digits

/-!
# Durations

Spans of time in nanoseconds, and their text: a whole number with one of the units `ms`, `s`, `m`
and `h`, or without a unit, which means seconds. Blanks around the text do not count.
-/

namespace SharedState

/-- A span of time. -/
structure Duration where
  nanoseconds : Nat
deriving DecidableEq

namespace Duration

def ofSeconds (n : Nat) : Duration := ⟨n * 1000000000⟩

def ofMilliseconds (n : Nat) : Duration := ⟨n * 1000000⟩

/-- The longest span of time: all seconds that a word can count, and the fraction of one more. -/
def longest : Duration := ⟨Text.maxWord * 1000000000 + 999999999⟩

def min (a b : Duration) : Duration := if a.nanoseconds ≤ b.nanoseconds then a else b

/-- The unit that a text of a duration ends with. -/
inductive Unit
  | milliseconds
  | seconds
  | minutes
  | hours
  | none
deriving DecidableEq

/-- What is said of a text whose number cannot be read. -/
def Unit.message : Unit → String
  | .milliseconds => "Invalid milliseconds"
  | .seconds => "Invalid seconds"
  | .minutes => "Invalid minutes"
  | .hours => "Invalid hours"
  | .none => "Invalid duration format"

def Unit.times (n : Nat) : Unit → Duration
  | .milliseconds => ofMilliseconds n
  | .seconds | .none => ofSeconds n
  | .minutes => ofSeconds (n * 60)
  | .hours => ofSeconds (n * 3600)

/-- A text taken apart at its end, into what is before the unit and the unit. -/
def splitUnit (text : List Char) : List Char × Unit :=
  match text.reverse with
  | 's' :: 'm' :: rest => (rest.reverse, .milliseconds)
  | 's' :: rest => (rest.reverse, .seconds)
  | 'm' :: rest => (rest.reverse, .minutes)
  | 'h' :: rest => (rest.reverse, .hours)
  | _ => (text, .none)

/-- The duration that a text denotes; a refusal names the unit whose number cannot be read. -/
def read (text : List Char) : Except Unit Duration :=
  let (digits, unit) := splitUnit (Text.trim text)
  match Text.readNat Text.maxWord digits with
  | .ok n => .ok (unit.times n)
  | .error _ => .error unit

end Duration

end SharedState
