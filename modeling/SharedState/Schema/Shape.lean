import SharedState.Json.Fields
import SharedState.Value.Basic

/-!
# Shapes

The structural description of a value on the wire: one of five scalars, a list of fixed length, or a
record of named fields. A shape is written as an object whose member `type` says which one it is.

Reading a shape accepts more: the tag may stand anywhere among the members, the shape may be an
array with its tag first, and inside another shape the tag may be its number instead of its name.
Everything beside the tag must be a readable value, even where it is not used.
-/

namespace SharedState

/-- The structure of a value. -/
inductive Shape
  | integer
  | float
  | boolean
  | string
  | bytes
  | list (item : Shape) (length : Nat)
  | record (name : String) (fields : List (String × Shape))

namespace Shape

open Json

/-! ## Equality -/

mutual

def same : Shape → Shape → Bool
  | .integer, .integer | .float, .float | .boolean, .boolean | .string, .string | .bytes, .bytes =>
    true
  | .list a m, .list b n => same a b && m == n
  | .record a fs, .record b gs => a == b && sameFields fs gs
  | _, _ => false

def sameFields : List (String × Shape) → List (String × Shape) → Bool
  | [], [] => true
  | (k, a) :: as, (l, b) :: bs => k == l && same a b && sameFields as bs
  | _, _ => false

end

mutual

theorem same_iff (a b : Shape) : same a b = true ↔ a = b := by
  cases a <;> cases b <;> simp [same]
  · exact fun _ => same_iff _ _
  · exact fun _ => sameFields_iff _ _

theorem sameFields_iff (as bs : List (String × Shape)) : sameFields as bs = true ↔ as = bs := by
  match as, bs with
  | [], [] | [], _ :: _ | _ :: _, [] => simp [sameFields]
  | (k, a) :: as, (l, b) :: bs =>
    simp only [sameFields, Bool.and_eq_true, beq_iff_eq, List.cons.injEq, Prod.mk.injEq]
    rw [same_iff, sameFields_iff]

end

instance : DecidableEq Shape := fun a b => decidable_of_iff _ (same_iff a b)

/-! ## The shapes of values -/

def matrix : Shape := .list .float matrixSize

def ofKind : Kind → Shape
  | .integer => .integer
  | .float => .float
  | .boolean => .boolean
  | .string => .string
  | .bytes => .bytes
  | .matrix => matrix
  | .viewer => .record "viewer" [
      ("width", .integer),
      ("height", .integer),
      ("projection", matrix),
      ("modelview", matrix),
      ("timestamp", .float),
      ("sceneView", .string)]

def display : Shape → String
  | .integer => "integer"
  | .float => "float"
  | .boolean => "boolean"
  | .string => "string"
  | .bytes => "bytes"
  | .list item length => "list<" ++ item.display ++ "; " ++ toString length ++ ">"
  | .record name _ => "record " ++ name

/-! ## Writing -/

def naturalNode (n : Nat) : Node := .number false ⟨Text.toDigits n, [], none⟩

mutual

def toNode : Shape → Node
  | .integer => .record [("type", .text "integer")]
  | .float => .record [("type", .text "float")]
  | .boolean => .record [("type", .text "boolean")]
  | .string => .record [("type", .text "string")]
  | .bytes => .record [("type", .text "bytes")]
  | .list item length =>
    .record [("type", .text "list"), ("item", item.toNode), ("length", naturalNode length)]
  | .record name fields =>
    .record [("type", .text "record"), ("name", .text name), ("fields", .array (fieldNodes fields))]

def fieldNodes : List (String × Shape) → List Node
  | [] => []
  | (name, shape) :: rest =>
    .record [("name", .text name), ("shape", shape.toNode)] :: fieldNodes rest

end

/-! ## Reading -/

/-- What the tag of a shape says. -/
inductive Tag
  | scalar (shape : Shape)
  | list
  | record

/-- The tags by name, in the order of their numbers. -/
def tags : List (String × Tag) := [
  ("integer", .scalar .integer),
  ("float", .scalar .float),
  ("boolean", .scalar .boolean),
  ("string", .scalar .string),
  ("bytes", .scalar .bytes),
  ("list", .list),
  ("record", .record)]

/-- The tag that a tree denotes: its name, and inside another shape also its number. -/
def tag? (nested : Bool) (node : Node) : Option Tag :=
  match node with
  | .string (some name) => tags.lookup name
  | other => if nested then ((other.natural? 6).bind fun n => tags[n]?).map (·.2) else none

/-- The tag of a shape, and what remains without it. -/
def untag? : Node → Option (Node × Node)
  | .object members =>
    match members.partition fun member => member.1 == some "type" with
    | ([(_, tag)], rest) => some (tag, .object rest)
    | _ => none
  | .array (tag :: rest) => some (tag, .array rest)
  | _ => none

/-- What remains of a scalar without its tag: any members, but no items. -/
def isPlain : Node → Bool
  | .object _ | .array [] => true
  | _ => false

/-- A field of a record, whose shape is read by `read`. -/
def readField? (read : Node → Option Shape) (field : Node) : Option (String × Shape) :=
  match field.fields? ["name", "shape"] with
  | some [some name, some shape] =>
    match name.string?, read shape with
    | some name, some shape => some (name, shape)
    | _, _ => none
  | _ => none

/-- A shape with its tag taken off; the shapes inside it are read by `read`. -/
def readTagged? (read : Node → Option Shape) (tag : Tag) (rest : Node) : Option Shape :=
  match tag with
  | .scalar shape => if isPlain rest then some shape else none
  | .list =>
    match rest.fields? ["item", "length"] with
    | some [some item, some length] =>
      match read item, length.natural? Text.maxWord with
      | some item, some length => some (.list item length)
      | _, _ => none
    | _ => none
  | .record =>
    match rest.fields? ["name", "fields"] with
    | some [some name, some fields] =>
      match name.string?, fields.items?.bind fun items => items.mapM (readField? read) with
      | some name, some fields => some (.record name fields)
      | _, _ => none
    | _ => none

/-- The shape that a readable tree with at most `depth` levels denotes. -/
def ofContent? (depth : Nat) (nested : Bool) (node : Node) : Option Shape :=
  match depth with
  | 0 => none
  | depth + 1 =>
    match untag? node with
    | none => none
    | some (tag, rest) =>
      (tag? nested tag).bind fun tag => readTagged? (ofContent? depth true) tag rest

/-- The shape that a tree denotes, if the whole tree is readable down to `depth` levels. -/
def ofNode? (depth : Nat) (node : Node) : Option Shape :=
  if (Json.ofNode? depth node).isSome then ofContent? depth false node else none

end Shape

end SharedState
