import SharedState.Toml.Scalar
import SharedState.Toml.Tree

/-!
# Settings files

A settings file is a sequence of lines, each with a header, with a key and its value, or with
nothing. Values nest; every array and every table inside a value is one level, and levels are
limited.
-/

namespace SharedState.Toml

open SharedState.Json

def integerNode (i : Int) : Node := .number (i < 0) ⟨Text.toDigits i.natAbs, [], none⟩

/-- A leaf that holds a number that no setting can be. -/
def fractionNode : Node := .number false ⟨['0'], ['0'], none⟩

/-- A leaf that holds a date. No setting is one, and where a section is wanted it is one without any
setting. -/
def dateNode : Node := .record [("date", .null)]

def word (letters : List Char) : Reader Unit :=
  letters.forM expect

/-- The first of the readers that takes a prefix. -/
def either {α : Type} (first second : Reader α) : Reader α := fun text =>
  (first text).or (second text)

def leaf : Reader Node := fun text =>
  match text with
  | c :: _ =>
    if c = '"' ∨ c = '\'' then (string text).map fun (s, rest) => (.text s, rest)
    else if c = 't' then (word "true".toList text).map fun (_, rest) => (.bool true, rest)
    else if c = 'f' then (word "false".toList text).map fun (_, rest) => (.bool false, rest)
    else
      either (do dateTime; return dateNode)
        (either (do float; return fractionNode) (do return integerNode (← integer))) text
  | [] => none

/-- The items of an array up to its end; `fuel` bounds their number. -/
def items (value : Reader Tree) : Nat → Reader (List Tree)
  | 0 => failure
  | fuel + 1 => do
    space
    match (← get) with
    | ']' :: rest =>
      set rest
      return []
    | _ =>
      let item ← value
      space
      match (← get) with
      | ',' :: rest =>
        set rest
        return item :: (← items value fuel)
      | ']' :: rest =>
        set rest
        return [item]
      | _ => failure

def assignment (value : Reader Tree) : Reader (List String × Tree) := do
  let path ← key
  expect '='
  blanks
  let value ← value
  blanks
  return (path, value)

/-- The assignments of a table inside a value up to its end; `fuel` bounds their number. -/
def assignments (value : Reader Tree) (before : Entries) : Nat → Reader Entries
  | 0 => failure
  | fuel + 1 => do
    let (path, value') ← assignment value
    match put before path.dropLast (path.getLast?.getD "") value' with
    | none => failure
    | some entries =>
      match (← get) with
      | ',' :: rest =>
        set rest
        assignments value entries fuel
      | '}' :: rest =>
        set rest
        return entries
      | _ => failure

def value : Nat → Reader Tree
  | 0, text =>
    match text with
    | '[' :: _ | '{' :: _ => none
    | text => (leaf text).map fun (node, rest) => (.leaf node, rest)
  | depth + 1, text =>
    match text with
    | '[' :: rest =>
      (items (value depth) (rest.length + 1) rest).map fun (items, rest) => (.array items, rest)
    | '{' :: rest =>
      match rest.dropWhile isBlank with
      | '}' :: rest => some (.table .value [], rest)
      | rest =>
        (assignments (value depth) [] (rest.length + 1) rest).map fun (entries, rest) =>
          (.table .value entries, rest)
    | text => (leaf text).map fun (node, rest) => (.leaf node, rest)

/-- What a line says. -/
inductive Statement
  | nothing
  | header (path : List String)
  | repeatedHeader (path : List String)
  | entry (path : List String) (value : Tree)

def statement : Reader Statement := do
  blanks
  let s : Statement ← match (← get) with
    | [] | '#' :: _ | '\n' :: _ | '\r' :: _ => pure .nothing
    | '[' :: '[' :: rest => do
      set rest
      let path ← key
      expect ']'
      expect ']'
      pure (.repeatedHeader path)
    | '[' :: rest => do
      set rest
      let path ← key
      expect ']'
      pure (.header path)
    | _ => do
      let (path, value) ← assignment (value (nestingLimit - 1))
      pure (.entry path value)
  lineRest
  return s

/-- A file that has been read in part: its tree, and the path of the latest header. -/
structure Progress where
  entries : Entries := []
  path : List String := []

def Progress.add (p : Progress) : Statement → Option Progress
  | .nothing => some p
  | .header path =>
    (within (openTable (path.getLast?.getD "")) p.entries path.dropLast).map fun entries =>
      { entries, path }
  | .repeatedHeader path =>
    (within (appendTable (path.getLast?.getD "")) p.entries path.dropLast).map fun entries =>
      { entries, path }
  | .entry path value =>
    (within (fun entries => put entries path.dropLast (path.getLast?.getD "") value)
      p.entries p.path).map fun entries => { p with entries }

/-- The file after all lines of a text; `fuel` bounds their number. -/
def readBy (p : Progress) : Nat → List Char → Option Progress
  | 0, _ => none
  | fuel + 1, text =>
    match statement text with
    | none => none
    | some (s, rest) =>
      match p.add s with
      | none => none
      | some p => if rest.isEmpty then some p else readBy p fuel rest

/-- A text without the mark that it may start with. -/
def dropMark : List Char → List Char
  | '\uFEFF' :: rest => rest
  | text => text

/-- The tree that the text of a settings file denotes. -/
def read? (text : String) : Option Node :=
  let text := dropMark text.toList
  (readBy {} (text.length + 1) text).map fun p => .object (entryNodes p.entries)

end SharedState.Toml
