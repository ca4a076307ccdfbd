import SharedState.Json.Value

/-!
# Reading records from syntax trees

A record is written as an object with one member per field, or as an array with its fields in order.
In an object members with other keys are skipped, whatever they hold, but every key must be
readable, and a field must not be given twice. In an array fields may be missing at the end, and
there must be no further items.

All readers take the number of arrays and objects that may still be entered.
-/

namespace SharedState.Json.Node

/-- The value given for a field by the members of an object: at most one. -/
def field? (members : List (Option String × Node)) (name : String) : Option (Option Node) :=
  match members.filter fun member => member.1 == some name with
  | [] => some none
  | [(_, value)] => some (some value)
  | _ => none

/-- The values given for the named fields of a record, in the order of the names. -/
def fields? (names : List String) : Node → Option (List (Option Node))
  | .object members =>
    if members.all fun member => member.1.isSome then names.mapM (field? members) else none
  | .array items =>
    if items.length ≤ names.length then
      some (items.map some ++ List.replicate (names.length - items.length) none)
    else none
  | _ => none

def string? : Node → Option String
  | .string content => content
  | _ => none

/-- A natural number of at most `limit`, written as an integer without a sign. -/
def natural? (limit : Nat) : Node → Option Nat
  | .number false ⟨whole, [], none⟩ =>
    let n := Text.ofDigits 0 whole
    if n ≤ limit then some n else none
  | _ => none

def items? : Node → Option (List Node)
  | .array items => some items
  | _ => none

/-- A value that may be absent: it is, if the field is not given or a null is given. -/
def optional? {α : Type} (read : Node → Option α) : Option Node → Option (Option α)
  | none | some .null => some none
  | some node => (read node).map some

end SharedState.Json.Node
