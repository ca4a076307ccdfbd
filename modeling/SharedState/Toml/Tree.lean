import SharedState.Json.Node

/-!
# Tables of settings files

The tree that a settings file builds up statement by statement. A table remembers how it came to be,
because that decides what may still be added to it: a table with its own header takes keys only
below that header, a table inside a value takes none at all, a table that dotted keys made can be
extended by dotted keys, and one that only stands on the way to a header may get a header of its own
later. Nothing is ever defined twice.
-/

namespace SharedState.Toml

open SharedState.Json

/-- How a table came to be. -/
inductive Origin
  | header
  | value
  | dotted
  | implied
deriving DecidableEq

/-- A value of a settings file. A leaf is kept as the JSON tree it is read as. -/
inductive Tree
  | leaf (node : Node)
  | array (items : List Tree)
  | table (origin : Origin) (entries : List (String × Tree))
  | tables (items : List (List (String × Tree)))

abbrev Entries := List (String × Tree)

/-- Entries with the value of a key replaced, or added at the end. -/
def setEntry (key : String) (value : Tree) : Entries → Entries
  | [] => [(key, value)]
  | (k, v) :: rest => if k = key then (key, value) :: rest else (k, v) :: setEntry key value rest

/-- Adds a key with its path below it to a table. A key with a path must end in a table that dotted
keys made, and a key without one in a table that they did not make. -/
def putKey (dottedKey inDotted : Bool) (entries : Entries) :
    List String → String → Tree → Option Entries
  | [], key, value =>
    if inDotted ≠ dottedKey ∨ (entries.lookup key).isSome then none
    else some (entries ++ [(key, value)])
  | part :: path, key, value =>
    match entries.lookup part with
    | none =>
      (putKey dottedKey true [] path key value).map fun inner =>
        setEntry part (.table .dotted inner) entries
    | some (.table .dotted inner) =>
      (putKey dottedKey true inner path key value).map fun inner =>
        setEntry part (.table .dotted inner) entries
    | some (.table .implied inner) =>
      (putKey dottedKey false inner path key value).map fun inner =>
        setEntry part (.table .implied inner) entries
    | some (.tables items) =>
      match items.getLast? with
      | some last =>
        (putKey dottedKey false last path key value).map fun inner =>
          setEntry part (.tables (items.dropLast ++ [inner])) entries
      | none => none
    | some _ => none

/-- Adds a key with the path before its last part to a table that has its own header. -/
def put (entries : Entries) (path : List String) (key : String) (value : Tree) : Option Entries :=
  putKey (path ≠ []) false entries path key value

/-- Changes the table at a path, making the tables on the way to it; of several tables at one place
the last one is meant. -/
def within (change : Entries → Option Entries) (entries : Entries) : List String → Option Entries
  | [] => change entries
  | part :: path =>
    match entries.lookup part with
    | none => (within change [] path).map fun inner => setEntry part (.table .implied inner) entries
    | some (.table .value _) | some (.leaf _) | some (.array _) => none
    | some (.table origin inner) =>
      (within change inner path).map fun inner => setEntry part (.table origin inner) entries
    | some (.tables items) =>
      match items.getLast? with
      | some last =>
        (within change last path).map fun inner =>
          setEntry part (.tables (items.dropLast ++ [inner])) entries
      | none => none

def openTable (key : String) (entries : Entries) : Option Entries :=
  match entries.lookup key with
  | none => some (setEntry key (.table .header []) entries)
  | some (.table .implied inner) => some (setEntry key (.table .header inner) entries)
  | some _ => none

/-- Opens one more table of a header that may repeat. -/
def appendTable (key : String) (entries : Entries) : Option Entries :=
  match entries.lookup key with
  | none => some (setEntry key (.tables [[]]) entries)
  | some (.tables items) => some (setEntry key (.tables (items ++ [[]])) entries)
  | some _ => none

mutual

def Tree.toNode : Tree → Node
  | .leaf node => node
  | .array items => .array (itemNodes items)
  | .table _ entries => .object (entryNodes entries)
  | .tables items => .array (tableNodes items)

def itemNodes : List Tree → List Node
  | [] => []
  | item :: rest => item.toNode :: itemNodes rest

def entryNodes : List (String × Tree) → List (Option String × Node)
  | [] => []
  | (key, value) :: rest => (some key, value.toNode) :: entryNodes rest

/-- Tables without the origins of the tables in them. -/
def tableNodes : List (List (String × Tree)) → List Node
  | [] => []
  | entries :: rest => .object (entryNodes entries) :: tableNodes rest

end

end SharedState.Toml
