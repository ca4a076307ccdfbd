import SharedState.Schema.Basic

/-!
# Documents

The envelope that a store and its observers exchange: the revision it was made at, the schema, the
values that it carries, and an opaque layout. Every section may be missing from the text. A document
is written without the sections that say nothing: an absent schema and a null layout.
-/

namespace SharedState

open Json

/-- The value that a document carries for a key. -/
structure Entry where
  key : String
  value : Json
deriving DecidableEq

/-- A full or partial picture of a store. -/
structure Document where
  revision : Nat := 0
  schema : Option Schema := none
  state : List Entry := []
  layout : Json := .null
deriving DecidableEq

namespace Entry

def toNode (entry : Entry) : Node :=
  .record [("key", .text entry.key), ("value", entry.value.toNode)]

def ofNode? (depth : Nat) (node : Node) : Option Entry :=
  match depth, node.fields? ["key", "value"] with
  | depth + 1, some [some key, some value] =>
    match key.string?, Json.ofNode? depth value with
    | some key, some value => some ⟨key, value⟩
    | _, _ => none
  | _, _ => none

end Entry

namespace Document

/-- The document carries no values. -/
def isNoop (doc : Document) : Bool := doc.state.isEmpty

/-- The first value that a document carries for a key. -/
def value? (doc : Document) (key : String) : Option Json :=
  (doc.state.find? (·.key = key)).map (·.value)

/-- The keys that a document carries values for, in its order. -/
def keys (doc : Document) : List String := doc.state.map (·.key)

def toNode (doc : Document) : Node :=
  .record ([("revision", Shape.naturalNode doc.revision)] ++
    (doc.schema.toList.map fun s => ("schema", s.toNode)) ++
    [("state", .array (doc.state.map Entry.toNode))] ++
    (if doc.layout.isNull then [] else [("layout", doc.layout.toNode)]))

def withDefault? {α : Type} (default : α) (read : Node → Option α) : Option Node → Option α
  | none => some default
  | some node => read node

def entries? (depth : Nat) (node : Node) : Option (List Entry) :=
  node.items?.bind fun items => items.mapM (Entry.ofNode? depth)

def ofNode? (depth : Nat) (node : Node) : Option Document :=
  match depth, node.fields? ["revision", "schema", "state", "layout"] with
  | depth + 2, some [revision, schema, state, layout] =>
    match withDefault? 0 (Node.natural? Text.maxWord) revision,
      Node.optional? (Schema.ofNode? (depth + 1)) schema,
      withDefault? [] (entries? depth) state,
      withDefault? .null (Json.ofNode? (depth + 1)) layout with
    | some revision, some schema, some state, some layout =>
      some { revision, schema, state, layout }
    | _, _, _, _ => none
  | _, _ => none

/-- The document that the bytes of a JSON text denote. -/
def parse? (bytes : ByteArray) : Option Document :=
  (Node.parse? bytes).bind (ofNode? maxDepth)

def render (doc : Document) : String := String.ofList doc.toNode.write

def toBytes (doc : Document) : ByteArray := doc.render.toUTF8

end Document

end SharedState
