/-!
# Base64

Bytes as text: the standard alphabet, four symbols for three bytes, the last group padded with `=`.
Reading is strict, so that every sequence of bytes has exactly one text: the padding must be there,
and the bits of the last symbol that belong to no byte must be zero. A text that is refused is
refused with the first fault in it, at its place among the bytes of the text.

Everything before the last group of four is read first; only the last group, which may be shorter,
can hold padding.
-/

namespace SharedState.Base64

/-- Why a text is no Base64. -/
inductive Fault
  | badSymbol (byte : UInt8) (place : Nat)
  | badLength (length : Nat)
  | badLastSymbol (byte : UInt8) (place : Nat)
  | badPadding
deriving DecidableEq

def Fault.message : Fault → String
  | .badSymbol byte place => s!"Invalid symbol {byte.toNat}, offset {place}."
  | .badLength length => s!"Invalid input length: {length}"
  | .badLastSymbol byte place => s!"Invalid last symbol {byte.toNat}, offset {place}."
  | .badPadding => "Invalid padding"

def pad : UInt8 := 61

def sextet? (b : UInt8) : Option Nat :=
  let n := b.toNat
  if 65 ≤ n ∧ n ≤ 90 then some (n - 65)
  else if 97 ≤ n ∧ n ≤ 122 then some (n - 71)
  else if 48 ≤ n ∧ n ≤ 57 then some (n + 4)
  else if n = 43 then some 62
  else if n = 47 then some 63
  else none

/-- The symbol that stands for a number below 64. -/
def symbol (n : Nat) : UInt8 :=
  if n < 26 then UInt8.ofNat (n + 65)
  else if n < 52 then UInt8.ofNat (n + 71)
  else if n < 62 then UInt8.ofNat (n - 4)
  else if n = 62 then 43
  else 47

/-! ## Writing -/

def encode : List UInt8 → List UInt8
  | [] => []
  | [a] => [symbol (a.toNat / 4), symbol (a.toNat % 4 * 16), pad, pad]
  | [a, b] =>
    [symbol (a.toNat / 4), symbol (a.toNat % 4 * 16 + b.toNat / 16), symbol (b.toNat % 16 * 4), pad]
  | a :: b :: c :: rest =>
    symbol (a.toNat / 4) :: symbol (a.toNat % 4 * 16 + b.toNat / 16) ::
      symbol (b.toNat % 16 * 4 + c.toNat / 64) :: symbol (c.toNat % 64) :: encode rest

/-! ## Reading -/

def sextetAt (place : Nat) (b : UInt8) : Except Fault Nat :=
  match sextet? b with
  | some n => .ok n
  | none => .error (.badSymbol b place)

def groupBytes (a b c d : Nat) : List UInt8 :=
  [UInt8.ofNat (a * 4 + b / 16), UInt8.ofNat (b % 16 * 16 + c / 4), UInt8.ofNat (c % 4 * 64 + d)]

/-- The numbers of the symbols of the last group, before its padding. -/
def lastSextets (place : Nat) : List UInt8 → Except Fault (List (UInt8 × Nat))
  | [] => .ok []
  | b :: rest => do
    let n ← sextetAt place b
    let more ← lastSextets (place + 1) rest
    .ok ((b, n) :: more)

/-- The last group, at a place: symbols, then padding. -/
def decodeLast (place : Nat) (group : List UInt8) : Except Fault (List UInt8) := do
  let symbols := group.takeWhile (· ≠ pad)
  let padding := group.dropWhile (· ≠ pad)
  let sextets ← lastSextets place symbols
  if padding ≠ [] ∧ (symbols.length < 2 ∨ padding.any (· ≠ pad)) then
    .error (.badSymbol pad (place + symbols.length))
  else
    match sextets with
    | [(_, a), (_, b), (_, c), (_, d)] => .ok (groupBytes a b c d)
    | [(_, a), (_, b), (last, c)] =>
      if padding.length ≠ 1 then .error .badPadding
      else if c % 4 ≠ 0 then .error (.badLastSymbol last (place + 2))
      else .ok ((groupBytes a b c 0).take 2)
    | [(_, a), (last, b)] =>
      if padding.length ≠ 2 then .error .badPadding
      else if b % 16 ≠ 0 then .error (.badLastSymbol last (place + 1))
      else .ok ((groupBytes a b 0 0).take 1)
    | few => .error (.badLength (place + few.length))

def decodeFrom (place : Nat) : List UInt8 → Except Fault (List UInt8)
  | [] => .ok []
  | a :: b :: c :: d :: next :: rest => do
    let a ← sextetAt place a
    let b ← sextetAt (place + 1) b
    let c ← sextetAt (place + 2) c
    let d ← sextetAt (place + 3) d
    let more ← decodeFrom (place + 4) (next :: rest)
    .ok (groupBytes a b c d ++ more)
  | group => decodeLast place group

/-- The bytes that a text stands for. One byte too many at the end is reported first, if it is
neither a symbol nor padding. -/
def decode (text : List UInt8) : Except Fault (List UInt8) :=
  match text.getLast? with
  | some last =>
    if text.length % 4 = 1 ∧ last ≠ pad ∧ sextet? last = none then
      .error (.badSymbol last (text.length - 1))
    else decodeFrom 0 text
  | none => .ok []

end SharedState.Base64
