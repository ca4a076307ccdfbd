import SharedState.Pattern.Class
import SharedState.Text.Alphanumeric

/-!
# Patterns as a whole

A pattern is alternatives with bars between them, each a sequence of places, classes, groups in
parentheses and repetitions of these. A group may have a name, which no other group has, or flags
for all in it; flags may also stand alone in parentheses, for what follows in the same group. There
is nothing that looks ahead or behind, and nothing that refers back to a group.

A pattern is read from left to right. Groups that are open wait on a stack with what stands before
them, and every finished part is only known by how deep it is nested.
-/

namespace SharedState.Pattern

/-- A finished part of a sequence: flags, which cannot be repeated, or a part with a depth. -/
inductive Item
  | flags
  | part (depth : Nat)
deriving DecidableEq

def Item.depth : Item → Nat
  | flags => 0
  | part depth => depth

/-- A list of alternatives that is not finished: the items of the last one, newest first, and the
depths of those before it. -/
structure Alternatives where
  items : List Item := []
  depths : List Nat := []
deriving DecidableEq

namespace Alternatives

def push (a : Alternatives) (item : Item) : Alternatives :=
  { a with items := item :: a.items }

/-- How deep the last alternative is nested. A single item is no deeper as a sequence. -/
def lastDepth (a : Alternatives) : Nat :=
  match a.items with
  | [] => 0
  | [item] => item.depth
  | items => 1 + (items.map Item.depth).foldl max 0

def next (a : Alternatives) : Alternatives where
  depths := a.lastDepth :: a.depths

/-- How deep the alternatives are nested. A single one is no deeper than its sequence. -/
def depth (a : Alternatives) : Nat :=
  match a.depths with
  | [] => a.lastDepth
  | depths => 1 + depths.foldl max a.lastDepth

end Alternatives

/-- A pattern that is read up to some place: the mode and the alternatives there, those around each
open group with the mode before it, the innermost group first, and the names that are given. -/
structure Reading where
  mode : Mode := {}
  alternatives : Alternatives := {}
  outer : List (Mode × Alternatives) := []
  names : List (List Char) := []
deriving DecidableEq

namespace Reading

def push (r : Reading) (item : Item) : Reading :=
  { r with alternatives := r.alternatives.push item }

def enter (r : Reading) (mode : Mode) : Reading :=
  { r with mode, alternatives := {}, outer := (r.mode, r.alternatives) :: r.outer }

/-- The end of the innermost group, after which the mode before it holds again. -/
def leave? (r : Reading) : Option Reading :=
  match r.outer with
  | (mode, before) :: outer =>
    some { r with
      mode, outer, alternatives := before.push (.part (1 + r.alternatives.depth)) }
  | [] => none

def repeat? (r : Reading) : Option Reading :=
  match r.alternatives.items with
  | .part depth :: items =>
    some { r with alternatives := { r.alternatives with items := .part (1 + depth) :: items } }
  | _ => none

def isName : List Char → Bool
  | first :: rest =>
    (first = '_' || Text.isAlphabetic first) &&
      rest.all fun c => c = '_' || c = '.' || c = '[' || c = ']' || Text.isAlphanumeric c
  | [] => false

/-- Reads the name of a group up to the sign that ends it. -/
def readName? (r : Reading) (text : List Char) : Option (Reading × List Char) :=
  match text.span (· ≠ '>') with
  | (name, _ :: rest) =>
    if isName name ∧ name ∉ r.names then
      some ({ r.enter r.mode with names := name :: r.names }, rest)
    else none
  | _ => none

/-- Reads the start of a group after its parenthesis, or flags that stand alone. -/
def readGroup? (r : Reading) (text : List Char) : Option (Reading × List Char) :=
  match r.mode.skip text with
  | '?' :: 'P' :: '<' :: rest => r.readName? rest
  | '?' :: '<' :: rest => r.readName? rest
  | '?' :: rest =>
    match r.mode.readFlags? true [] rest with
    | some (mode, ':' :: rest) => some (r.enter mode, rest)
    | some (mode, rest) => some ({ r.push .flags with mode }, rest.drop 1)
    | none => none
  | rest => some (r.enter r.mode, rest)

/-- Reads one part of a pattern, given its first character and what follows. -/
def read? (r : Reading) (c : Char) (rest : List Char) : Option (Reading × List Char) :=
  match c with
  | '(' => r.readGroup? rest
  | ')' => r.leave?.map (·, rest)
  | '|' => some ({ r with alternatives := r.alternatives.next }, rest)
  | '[' => (readClass? r.mode rest).map fun (depth, rest) => (r.push (.part depth), rest)
  | '?' | '*' | '+' =>
    r.repeat?.map (·, if rest.head? = some '?' then rest.drop 1 else rest)
  | '{' => none
  | c =>
    match readAtom? r.mode (c :: rest) with
    | some (atom, rest) => if r.mode.allows atom then some (r.push (.part 0), rest) else none
    | none => none

/-- Reads all that follows; `fuel` bounds the number of parts. -/
def readAllBy : Nat → Reading → List Char → Option Reading
  | 0, _, _ => none
  | fuel + 1, r, text =>
    match r.mode.skip text with
    | [] => some r
    | c :: rest =>
      match r.read? c rest with
      | some (r, rest) => readAllBy fuel r rest
      | none => none

end Reading

def maxDepth : Nat := 250

def isPattern (text : List Char) : Bool :=
  match Reading.readAllBy (text.length + 1) {} text with
  | some r => r.outer.isEmpty && r.alternatives.depth ≤ maxDepth
  | none => false

end SharedState.Pattern
