import SharedState.Number.Style

/-!
# Typed values

The closed set of payloads that an element can carry. Every value has one of seven kinds; the kind
of an element never changes, so it is read off its value and stored nowhere.

Values are compared in two ways. Equality of Lean counts all that is not a number as one and
tells the two zeros apart; it is the sense in which a value is transmitted faithfully. The program
compares as numbers compare, and that is `Value.agrees`.
-/

namespace SharedState

/-- The kind of a value. -/
inductive Kind
  | integer
  | float
  | boolean
  | string
  | bytes
  | matrix
  | viewer
deriving DecidableEq

def Kind.name : Kind → String
  | .integer => "integer"
  | .float => "float"
  | .boolean => "boolean"
  | .string => "string"
  | .bytes => "bytes"
  | .matrix => "matrix"
  | .viewer => "viewer"

/-- The kinds in the order in which they are listed. -/
def Kind.all : List Kind := [.integer, .float, .boolean, .string, .bytes, .matrix, .viewer]

def Kind.ofName? (name : String) : Option Kind := Kind.all.find? (·.name = name)

def Kind.isNumeric : Kind → Bool
  | .integer | .float => true
  | _ => false

def matrixSize : Nat := 16

/-- A four by four matrix, column by column. -/
abbrev Matrix := Vector Single matrixSize

namespace Matrix

def one : Single := .ofDecimal false ⟨1, 0⟩

def identity : Matrix :=
  Vector.ofFn fun i => if i.val % 5 = 0 then one else .zero

/-- The matrix with the given components, if there are as many as a matrix has. -/
def ofList? (components : List Single) : Option Matrix :=
  if h : components.length = matrixSize then some ⟨components.toArray, by simpa using h⟩ else none

/-- Component by component equal as numbers. -/
def agrees (a b : Matrix) : Bool :=
  (a.toList.zip b.toList).all fun (x, y) => x.sameNumber y

end Matrix

/-- The camera of a remote viewer. -/
structure Viewer where
  width : Int64
  height : Int64
  projection : Matrix
  modelview : Matrix
  timestamp : Double
  sceneView : String
deriving DecidableEq

namespace Viewer

/-- The viewer that a new element starts with. -/
def standard : Viewer := ⟨512, 512, .identity, .identity, .zero, ""⟩

/-- Field by field equal, numbers as numbers. -/
def agrees (a b : Viewer) : Bool :=
  a.width == b.width && a.height == b.height && a.projection.agrees b.projection &&
    a.modelview.agrees b.modelview && a.timestamp.sameNumber b.timestamp &&
    a.sceneView == b.sceneView

end Viewer

/-- The payload of an element. -/
inductive Value
  | integer (value : Int64)
  | float (value : Double)
  | boolean (value : Bool)
  | string (value : String)
  | bytes (value : List UInt8)
  | matrix (value : Matrix)
  | viewer (value : Viewer)
deriving DecidableEq

namespace Value

/-- The value that a kind starts with, for the kinds that have one. -/
def standard? : Kind → Option Value
  | .matrix => some (.matrix .identity)
  | .viewer => some (.viewer .standard)
  | _ => none

def kind : Value → Kind
  | integer _ => .integer
  | float _ => .float
  | boolean _ => .boolean
  | string _ => .string
  | bytes _ => .bytes
  | matrix _ => .matrix
  | viewer _ => .viewer

/-- The values are of one kind and equal, numbers as numbers. -/
def agrees : Value → Value → Bool
  | integer a, integer b => a == b
  | float a, float b => a.sameNumber b
  | boolean a, boolean b => a == b
  | string a, string b => a == b
  | bytes a, bytes b => a == b
  | matrix a, matrix b => a.agrees b
  | viewer a, viewer b => a.agrees b
  | _, _ => false

/-- The values are of one numeric kind and the first is at most the second. -/
def atMost : Value → Value → Bool
  | integer a, integer b => a ≤ b
  | float a, float b => a.le b
  | _, _ => false

def integerText (i : Int64) : String :=
  toString i.toInt

def display : Value → String
  | integer i => integerText i
  | float x => String.ofList (NumberStyle.plain.write x)
  | boolean b => if b then "true" else "false"
  | string s => "\"" ++ s ++ "\""
  | bytes b => s!"<{b.length} bytes>"
  | matrix m =>
    let components := m.toList.map fun x => String.ofList (NumberStyle.listed.write x)
    "[" ++ ", ".intercalate components ++ "]"
  | viewer v => s!"viewer {integerText v.width}x{integerText v.height}"

/-- Agreement of values is agreement of their kinds, too. -/
theorem kind_eq_of_agrees {a b : Value} (h : a.agrees b = true) : a.kind = b.kind := by
  cases a <;> cases b <;> first | rfl | exact absurd h (by simp [agrees])

end Value

end SharedState
