import SharedState.Document.Basic
import SharedState.Event
import SharedState.KeyMap
import SharedState.Metrics

/-!
# The store

The elements by key, the number of changes committed so far, and the opaque layout. Every successful
change commits exactly one revision and stamps at most one element with it; a change that is refused
leaves no trace, because it has no store to go on with.

The schema of the exposed elements is kept until a change concerns it. It is only ever a copy: what
it is a copy of is `Schema.generate` of the elements.
-/

namespace SharedState

/-- What a store does with entries of a document for keys that it does not expose. -/
inductive Policy
  | ignore
  | reject
deriving DecidableEq

/-- The elements of a model and the count of its changes. -/
structure Store where
  policy : Policy := .ignore
  elements : KeyMap Element := .empty
  revision : Nat := 0
  layout : Json := .null
  cachedSchema : Option Schema := none
deriving DecidableEq

/-- A committed change: its sort, the revision it made, and the events to be told of it in order. -/
structure Commit where
  mutation : Mutation
  revision : Nat
  events : List Event
deriving DecidableEq

namespace Store

/-! ## Reading -/

def element (s : Store) (key : String) : Except Error Element :=
  match s.elements.find? key with
  | some e => .ok e
  | none => .error (.unknownKey key)

/-- The element with a key, if it is exposed. -/
def exposed? (s : Store) (key : String) : Option Element :=
  (s.elements.find? key).filter (·.exposed)

/-- The name that messages give to the payload of a kind. -/
def payloadName : Kind → String
  | .integer => "i64"
  | .float => "f64"
  | .boolean => "bool"
  | .string => "alloc::string::String"
  | .bytes => "alloc::vec::Vec<u8>"
  | .matrix => "exposed_model::core::types::Matrix"
  | .viewer => "exposed_model::core::types::Viewer"

/-- The value of an element that is wanted as a kind. -/
def valueAs (s : Store) (kind : Kind) (key : String) : Except Error Value := do
  let e ← s.element key
  if e.kind = kind then .ok e.value
  else .error (.typeMismatch key (payloadName kind) e.kind.name)

/-- Whether an update would be accepted. -/
def checkUpdate (s : Store) (key : String) (value : Value) : Except Error Unit := do
  let e ← s.element key
  e.checkUpdate value

/-- The schema of the exposed elements: the kept one, or a new one. -/
def schema (s : Store) : Schema :=
  s.cachedSchema.getD (.generate s.elements.values)

/-- The store that keeps its schema. -/
def keepSchema (s : Store) : Store :=
  { s with cachedSchema := some s.schema }

/-- The document with the schema, the layout, and the values of the exposed elements that are
wanted. -/
def documentOf (s : Store) (wanted : Element → Bool) : Document where
  revision := s.revision
  schema := some s.schema
  state := (s.elements.values.filter fun e => e.exposed && wanted e).map fun e =>
    ⟨e.key, e.value.toWire⟩
  layout := s.layout

/-- The document of all exposed elements. -/
def fullDocument (s : Store) : Document :=
  s.documentOf fun _ => true

/-- The document of the exposed elements touched after a revision. -/
def deltaDocument (s : Store) (since : Nat) : Document :=
  s.documentOf fun e => since < e.lastModified

/-! ## Changing -/

/-- The store after a change of the given element in place, and the change. -/
def touch (s : Store) (e : Element) (mutation : Mutation) (kinds : List EventKind) :
    Store × Commit :=
  let revision := s.revision + 1
  let events := kinds.map fun kind => { kind, revision, element := e : Event }
  ({ s with
      elements := s.elements.insert e.key e
      revision
      cachedSchema := if kinds.any (·.isSchema) then none else s.cachedSchema },
    ⟨mutation, revision, events⟩)

def add (s : Store) (spec : Spec) : Except Error (Store × Commit) :=
  if s.elements.contains spec.key then .error (.duplicateKey spec.key)
  else do
    let e ← spec.create (s.revision + 1)
    .ok (s.touch e .add [.schemaAdded, .elementChanged])

def update (s : Store) (key : String) (value : Value) : Except Error (Store × Commit) := do
  let e ← s.element key
  e.checkUpdate value
  .ok (s.touch { e with value, lastModified := s.revision + 1 } .update [.elementChanged])

def annotate (s : Store) (key : String) (label : String) :
    Except Error (Store × Commit) := do
  let e ← s.element key
  .ok (s.touch { e with label := some label, lastModified := s.revision + 1 }
    .annotate [.schemaModified])

def remove (s : Store) (key : String) : Except Error (Store × Commit) := do
  let e ← s.element key
  let revision := s.revision + 1
  .ok ({ s with elements := s.elements.erase key, revision, cachedSchema := none },
    ⟨.remove, revision, [⟨.schemaRemoved, revision, e⟩]⟩)

/-- Replaces the layout, which commits nothing. -/
def setLayout (s : Store) (layout : Json) : Store :=
  { s with layout }

end Store

end SharedState
