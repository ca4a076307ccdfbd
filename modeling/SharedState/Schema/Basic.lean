import SharedState.Element
import SharedState.Json.Equality
import SharedState.Schema.Shape
import SharedState.Value.Wire

/-!
# Schemas

A schema describes the exposed elements of a store, in the order of their keys: the shape of the
value, the restriction in the wire form of its bounds or members, and the annotation.
-/

namespace SharedState

open Json

/-- A published constraint. -/
inductive Restriction
  | range (min max : Json)
  | enumeration (values : List Json)
deriving DecidableEq

namespace Restriction

/-- The published form of a constraint, if there is anything to publish. -/
def ofConstraint? : Constraint → Option Restriction
  | .unconstrained => none
  | .range min max => some (.range min.toWire max.toWire)
  | .allowed values => some (.enumeration (values.map Value.toWire))

def toNode : Restriction → Node
  | range min max =>
    .record [("range", .record [("minInclusive", min.toNode), ("maxInclusive", max.toNode)])]
  | enumeration values => .record [("enumeration", .record [("values", .array (toNodes values))])]

/-- The restriction that a tree denotes: an object with one member, named for the sort. -/
def ofNode? (depth : Nat) : Node → Option Restriction
  | .object [(some "range", content)] =>
    match depth, content.fields? ["minInclusive", "maxInclusive"] with
    | depth + 2, some [some min, some max] =>
      match Json.ofNode? depth min, Json.ofNode? depth max with
      | some min, some max => some (.range min max)
      | _, _ => none
    | _, _ => none
  | .object [(some "enumeration", content)] =>
    match depth, content.fields? ["values"] with
    | depth + 3, some [some values] => (values.items?.bind (ofNodes? depth)).map .enumeration
    | _, _ => none
  | _ => none

end Restriction

/-- The description of one element. -/
structure SchemaEntry where
  key : String
  shape : Shape
  restriction : Option Restriction
  label : Option String
deriving DecidableEq

namespace SchemaEntry

def describe (e : Element) : SchemaEntry :=
  ⟨e.key, .ofKind e.kind, Restriction.ofConstraint? e.constraint, e.label⟩

/-- The tree that writes a description; what is absent is left out. -/
def toNode (entry : SchemaEntry) : Node :=
  .record ([("key", .text entry.key), ("shape", entry.shape.toNode)] ++
    (entry.restriction.toList.map fun r => ("restriction", r.toNode)) ++
    (entry.label.toList.map fun a => ("annotation", .text a)))

def ofNode? (depth : Nat) (node : Node) : Option SchemaEntry :=
  match depth, node.fields? ["key", "shape", "restriction", "annotation"] with
  | depth + 1, some [some key, some shape, restriction, label] =>
    match key.string?, Shape.ofNode? depth shape,
      Node.optional? (Restriction.ofNode? depth) restriction,
      Node.optional? Node.string? label with
    | some key, some shape, some restriction, some label =>
      some ⟨key, shape, restriction, label⟩
    | _, _, _, _ => none
  | _, _ => none

end SchemaEntry

/-- The descriptions of the exposed elements. -/
structure Schema where
  elements : List SchemaEntry
deriving DecidableEq

namespace Schema

/-- The schema of the exposed ones among the elements. -/
def generate (elements : List Element) : Schema :=
  ⟨(elements.filter (·.exposed)).map .describe⟩

def find? (schema : Schema) (key : String) : Option SchemaEntry :=
  schema.elements.find? (·.key = key)

def toNode (schema : Schema) : Node :=
  .record [("elements", .array (schema.elements.map SchemaEntry.toNode))]

def ofNode? (depth : Nat) (node : Node) : Option Schema :=
  match depth, node.fields? ["elements"] with
  | depth + 2, some [some elements] =>
    (elements.items?.bind fun items => items.mapM (SchemaEntry.ofNode? depth)).map .mk
  | _, _ => none

/-- The schema that the bytes of a JSON text denote. -/
def parse? (bytes : ByteArray) : Option Schema :=
  (Node.parse? bytes).bind (ofNode? maxDepth)

end Schema

/-- The shape that the bytes of a JSON text denote. -/
def Shape.parse? (bytes : ByteArray) : Option Shape :=
  (Node.parse? bytes).bind (Shape.ofNode? maxDepth)

end SharedState
