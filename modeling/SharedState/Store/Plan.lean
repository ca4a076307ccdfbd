import SharedState.Store.Basic

/-!
# Planning to apply a document

A document is applied in two phases. The first one, here, looks at all of it against the store as it
stands and either finds the first offence or makes a plan: the updates to commit one after the
other, in the order of the document, and the keys passed over. An offence is a declared shape that
differs from the store's own, or an entry whose key the policy does not let pass, whose value cannot
be read as the kind of the element, or whose value breaks the constraint. Nothing is committed while
planning.
-/

namespace SharedState

/-- The updates that a document asks for, and the keys that are passed over. -/
structure Plan where
  updates : List (String × Value) := []
  ignored : List String := []
deriving DecidableEq

/-- What applying a document did. -/
structure Report where
  applied : List String := []
  ignored : List String := []
  revision : Nat := 0
deriving DecidableEq

namespace Schema

/-- The first declared shape of a known key that differs from the known one is an offence. -/
def compare (known : Schema) : List SchemaEntry → Except Error Unit
  | [] => .ok ()
  | declared :: rest =>
    match known.find? declared.key with
    | none => known.compare rest
    | some entry =>
      if declared.shape = entry.shape then known.compare rest
      else .error (.schemaMismatch declared.key declared.shape.display entry.shape.display)

end Schema

namespace Store

/-- The value to store for an entry, or nothing if the entry is passed over. -/
def planEntry (s : Store) (entry : Entry) : Except Error (Option Value) :=
  match s.exposed? entry.key with
  | some e => do
    let value ← Value.ofWire entry.key e.kind entry.value
    s.checkUpdate entry.key value
    .ok (some value)
  | none =>
    match s.policy with
    | .ignore => .ok none
    | .reject => .error (.malformedUpdate entry.key "no such element")

/-- The plan for the entries of a document, in order. -/
def planEntries (s : Store) : List Entry → Except Error Plan
  | [] => .ok {}
  | entry :: rest => do
    let value ← s.planEntry entry
    let plan ← s.planEntries rest
    match value with
    | some value => .ok { plan with updates := (entry.key, value) :: plan.updates }
    | none => .ok { plan with ignored := entry.key :: plan.ignored }

def plan (s : Store) (doc : Document) : Except Error Plan := do
  match doc.schema with
  | some declared => s.schema.compare declared.elements
  | none => .ok ()
  s.planEntries doc.state

/-- The store after looking at a document: comparing shapes makes it keep its schema. -/
def afterPlanning (s : Store) (doc : Document) : Store :=
  if doc.schema.isSome then s.keepSchema else s

end Store

end SharedState
