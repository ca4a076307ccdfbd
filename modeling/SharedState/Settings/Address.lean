import SharedState.Text.Digits

/-!
# Socket addresses

An IP address of either family with a port number, and its text. An address of version four is four
numbers with points. One of version six is eight groups of hexadecimal digits with colons, in
brackets; one run of zero groups may be left out, the last two groups may be given as an address of
version four, and a zone may follow. It is written with the first of its longest runs of at least
two zero groups left out.
-/

namespace SharedState

/-- An IP address with a port number. -/
inductive SocketAddress
  | v4 (octets : Vector Nat 4) (portNumber : Nat)
  | v6 (groups : Vector Nat 8) (zone : Nat) (portNumber : Nat)
deriving DecidableEq

namespace SocketAddress

/-! ## Reading -/

/-- The value of a digit in a base of at most sixteen. -/
def digitIn? (base : Nat) (c : Char) : Option Nat :=
  let value :=
    if '0' ≤ c ∧ c ≤ '9' then some (c.toNat - '0'.toNat)
    else if 'a' ≤ c ∧ c ≤ 'f' then some (c.toNat - 'a'.toNat + 10)
    else if 'A' ≤ c ∧ c ≤ 'F' then some (c.toNat - 'A'.toNat + 10)
    else none
  value.filter (· < base)

/-- How a number in an address is written. -/
structure NumberRule where
  base : Nat
  maxDigits : Option Nat
  leadingZeros : Bool
  limit : Nat

/-- The number at the start of a text, taking all digits there are, and what follows it. -/
def number? (rule : NumberRule) (text : List Char) : Option (Nat × List Char) :=
  let digits := text.takeWhile fun c => (digitIn? rule.base c).isSome
  let value := digits.foldl (fun n c => rule.base * n + (digitIn? rule.base c).getD 0) 0
  if digits = [] ∨ rule.maxDigits.any (· < digits.length) ∨ rule.limit < value ∨
      (¬ rule.leadingZeros ∧ digits.head? = some '0' ∧ 1 < digits.length) then none
  else some (value, text.drop digits.length)

/-- What follows a character at the start of a text. -/
def expect? (c : Char) : List Char → Option (List Char)
  | d :: rest => if c = d then some rest else none
  | [] => none

def octets? (text : List Char) : Option (Vector Nat 4 × List Char) := do
  let rule : NumberRule := ⟨10, some 3, false, 255⟩
  let (a, text) ← number? rule text
  let (b, text) ← number? rule (← expect? '.' text)
  let (c, text) ← number? rule (← expect? '.' text)
  let (d, text) ← number? rule (← expect? '.' text)
  return (#v[a, b, c, d], text)

/-- At most `room` groups with colons between them, whether they end with an address of version
four, and what follows. -/
def groups (first : Bool) : Nat → List Char → List Nat × Bool × List Char
  | 0, text => ([], false, text)
  | room + 1, text =>
    match (if first then some text else expect? ':' text) with
    | none => ([], false, text)
    | some start =>
      match (if room = 0 then none else octets? start) with
      | some (o, rest) => ([o[0] * 256 + o[1], o[2] * 256 + o[3]], true, rest)
      | none =>
        match number? ⟨16, some 4, true, 65535⟩ start with
        | none => ([], false, text)
        | some (g, rest) =>
          let (more, embedded, rest) := groups false room rest
          (g :: more, embedded, rest)

/-- Eight groups, from those before and after a run of zeros. -/
def eightGroups (front back : List Nat) : Vector Nat 8 :=
  Vector.ofFn fun i =>
    if i.val < front.length then front.getD i.val 0
    else if 8 ≤ i.val + back.length then back.getD (i.val + back.length - 8) 0
    else 0

/-- An address of version six without its brackets. -/
def sixth? (text : List Char) : Option (Vector Nat 8 × List Char) :=
  match groups true 8 text with
  | (front, embedded, rest) =>
    if front.length = 8 then some (eightGroups front [], rest)
    else if embedded then none
    else do
      let rest ← expect? ':' (← expect? ':' rest)
      let (back, _, rest) := groups true (7 - front.length) rest
      return (eightGroups front back, rest)

def portNumber? (text : List Char) : Option (Nat × List Char) := do
  number? ⟨10, none, true, 65535⟩ (← expect? ':' text)

/-- The zone of an address, zero if none is given. -/
def zone (text : List Char) : Nat × List Char :=
  ((expect? '%' text).bind (number? ⟨10, none, true, 1 <<< 32 - 1⟩)).getD (0, text)

def read? (text : List Char) : Option SocketAddress :=
  let fourth : Option (SocketAddress × List Char) := do
    let (octets, rest) ← octets? text
    let (portNumber, rest) ← portNumber? rest
    return (.v4 octets portNumber, rest)
  let sixth : Option (SocketAddress × List Char) := do
    let (groups, rest) ← sixth? (← expect? '[' text)
    let (zone, rest) := zone rest
    let (portNumber, rest) ← portNumber? (← expect? ']' rest)
    return (.v6 groups zone portNumber, rest)
  match fourth.or sixth with
  | some (address, []) => some address
  | _ => none

/-! ## Writing -/

def joined (separator : String) (items : List String) : String :=
  separator.intercalate items

def hexText (n : Nat) : String := String.ofList (Nat.toDigits 16 n)

def groupsText (groups : List Nat) : String := joined ":" (groups.map hexText)

/-- The start and length of the first of the longest runs of zeros, where `index` is the place of
the first of the given numbers and `run` zeros stand right before it. -/
def longestZeros (index run : Nat) (best : Nat × Nat) : List Nat → Nat × Nat
  | [] => best
  | g :: rest =>
    if g = 0 then
      let best := if best.2 < run + 1 then (index - run, run + 1) else best
      longestZeros (index + 1) (run + 1) best rest
    else longestZeros (index + 1) 0 best rest

def fourthText (octets : List Nat) : String := joined "." (octets.map toString)

/-- An address of version six without its brackets. -/
def sixthText (groups : Vector Nat 8) : String :=
  let list := groups.toList
  if list.take 6 = [0, 0, 0, 0, 0, 65535] then
    "::ffff:" ++ fourthText ((list.drop 6).flatMap fun group => [group / 256, group % 256])
  else
    let (start, length) := longestZeros 0 0 (0, 0) list
    if 1 < length then
      groupsText (list.take start) ++ "::" ++ groupsText (list.drop (start + length))
    else groupsText list

def display : SocketAddress → String
  | .v4 octets portNumber => fourthText octets.toList ++ ":" ++ toString portNumber
  | .v6 groups zone portNumber =>
    let zoneText := if zone = 0 then "" else "%" ++ toString zone
    "[" ++ sixthText groups ++ zoneText ++ "]:" ++ toString portNumber

end SocketAddress

end SharedState
