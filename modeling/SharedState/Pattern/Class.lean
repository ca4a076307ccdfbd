import SharedState.Pattern.Basic

/-!
# Classes of characters

A class stands in brackets: characters, ranges of them, kinds, named classes of seven-bit characters
and further classes, one after the other or with the signs of set operations between them. A caret
at the start stands for all other characters.

A class of bytes must hold none beyond the seven-bit ones in the end. As those are only ever taken
in or left out together, it is enough to know whether they are in.
-/

namespace SharedState.Pattern

/-- What the check of a class needs to know of a set of characters: how deep the text of it is
nested, and whether the bytes beyond the seven-bit ones are in it. -/
structure Members where
  depth : Nat
  high : Bool
deriving DecidableEq

namespace Members

/-- The union of sets that are written one after the other. -/
def union : List Members → Members
  | [] => ⟨0, false⟩
  | [one] => one
  | sets => ⟨1 + (sets.map depth).foldl max 0, sets.any high⟩

/-- A class in brackets with the given members, or with all others. -/
def bracket? (mode : Mode) (negated : Bool) (members : Members) : Option Members :=
  let high := members.high != negated
  if high && !mode.unicode then none else some ⟨1 + members.depth, high⟩

end Members

/-- The operations on sets. -/
inductive SetOperation
  | intersection
  | difference
  | symmetricDifference
deriving DecidableEq

/-- What an operation makes of the sets on its two sides. -/
def SetOperation.apply (operation : SetOperation) (left right : Members) : Members where
  depth := 1 + max left.depth right.depth
  high := match operation with
    | intersection => left.high && right.high
    | difference => left.high && !right.high
    | symmetricDifference => left.high != right.high

/-- The set that a class stands for so far: that before the last operation and that after it. -/
def combine (before : Option (Members × SetOperation)) (sets : List Members) : Members :=
  match before with
  | some (left, operation) => operation.apply left (.union sets)
  | none => .union sets

def classNames : List String :=
  ["alnum", "alpha", "ascii", "blank", "cntrl", "digit", "graph", "lower", "print", "punct",
    "space", "upper", "word", "xdigit"]

/-- Reads a named class after its opening bracket, and tells whether all others are meant. -/
def readNamed? : List Char → Option (Bool × List Char)
  | ':' :: text =>
    let (negated, text) := match text with
      | '^' :: rest => (true, rest)
      | text => (false, text)
    match text.span (· ≠ ':') with
    | (name, ':' :: ']' :: rest) =>
      if String.ofList name ∈ classNames then some (negated, rest) else none
    | _ => none
  | _ => none

def Mode.allowsMember (mode : Mode) : Atom → Bool
  | .char c byte => mode.allows (.char c byte) && (mode.unicode || c.toNat < 0x80)
  | .kind negated => mode.allows (.kind negated)
  | _ => false

def readMemberAtom? (mode : Mode) : List Char → Option (Atom × List Char)
  | '\\' :: rest => readEscape? mode rest
  | c :: rest => some (.char c false, rest)
  | [] => none

/-- The character after a hyphen that decides whether the hyphen makes a range. Where blanks do not
count, one hash and the blanks around it are skipped, but not the comment that it starts. -/
def afterHyphen? (mode : Mode) (text : List Char) : Option Char :=
  if mode.spaced then
    match text.dropWhile Text.isBlank with
    | '#' :: rest => (rest.dropWhile Text.isBlank).head?
    | text => text.head?
  else text.head?

/-- Reads the second end of a range after its hyphen, where `first` is the other end. -/
def readRangeEnd? (mode : Mode) (first : Atom) (text : List Char) : Option (List Char) :=
  match first, readMemberAtom? mode (mode.skip text) with
  | .char c _, some (.char d byte, rest) =>
    if c ≤ d && mode.allowsMember (.char d byte) then some rest else none
  | _, _ => none

/-- Reads a character, a range or a kind in a class. -/
def readMember? (mode : Mode) (text : List Char) : Option (List Char) :=
  match readMemberAtom? mode text with
  | some (atom, rest) =>
    if mode.allowsMember atom then
      match mode.skip rest with
      | '-' :: rest =>
        if afterHyphen? mode rest = some ']' ∨ afterHyphen? mode rest = some '-' then
          some ('-' :: rest)
        else readRangeEnd? mode atom rest
      | rest => some rest
    else none
  | none => none

/-- Reads the hyphens at the start of a class, which stand for themselves. -/
def readHyphens (mode : Mode) (sets : List Members) : Nat → List Char → List Members × List Char
  | fuel + 1, '-' :: rest => readHyphens mode (⟨0, false⟩ :: sets) fuel (mode.skip rest)
  | _, text => (sets, text)

/-- Reads the start of a class after its opening bracket: a caret, then hyphens or a closing bracket
that stand for themselves. -/
def readClassStart (mode : Mode) (text : List Char) : Bool × List Members × List Char :=
  let (negated, text) := match mode.skip text with
    | '^' :: rest => (true, mode.skip rest)
    | text => (false, text)
  match readHyphens mode [] text.length text with
  | ([], ']' :: rest) => (negated, [⟨0, false⟩], rest)
  | (sets, rest) => (negated, sets, rest)

/-- The sets may stand in a class: in a mode that ignores the case of characters, none may. -/
def Mode.allowsMembers (mode : Mode) (sets : List Members) : Bool :=
  sets.isEmpty || mode.allowsMember (.char 'a' false)

/-- Reads a class up to its closing bracket, where `before` and `sets` are what it holds so far, the
last set first; `fuel` bounds the number of sets and operations. -/
def readMembersBy (mode : Mode) (before : Option (Members × SetOperation)) (sets : List Members) :
    Nat → List Char → Option (Members × List Char)
  | 0, _ => none
  | fuel + 1, text =>
    match mode.skip text with
    | [] => none
    | ']' :: rest => some (combine before sets, rest)
    | '&' :: '&' :: rest =>
      readMembersBy mode (some (combine before sets, .intersection)) [] fuel rest
    | '-' :: '-' :: rest =>
      readMembersBy mode (some (combine before sets, .difference)) [] fuel rest
    | '~' :: '~' :: rest =>
      readMembersBy mode (some (combine before sets, .symmetricDifference)) [] fuel rest
    | '[' :: rest =>
      match readNamed? rest with
      | some (negated, rest) =>
        if mode.allowsMembers [⟨0, negated⟩] then
          readMembersBy mode before (⟨0, negated⟩ :: sets) fuel rest
        else none
      | none => do
        let (negated, first, rest) := readClassStart mode rest
        if mode.allowsMembers first then
          let (members, rest) ← readMembersBy mode none first fuel rest
          let inner ← members.bracket? mode negated
          readMembersBy mode before (inner :: sets) fuel rest
        else none
    | text => do
      let rest ← readMember? mode text
      readMembersBy mode before (⟨0, false⟩ :: sets) fuel rest

/-- Reads a class after its opening bracket, and tells how deep it is nested. -/
def readClass? (mode : Mode) (text : List Char) : Option (Nat × List Char) := do
  let (negated, sets, rest) := readClassStart mode text
  if mode.allowsMembers sets then
    let (members, rest) ← readMembersBy mode none sets (rest.length + 1) rest
    let whole ← members.bracket? mode negated
    return (whole.depth, rest)
  else none

end SharedState.Pattern
