import SharedState.Base64
import SharedState.Error
import SharedState.Json.Value
import SharedState.Text.Blank
import SharedState.Value.Basic

/-!
# The wire form of values

How values are written as JSON inside a document, and how they are read back as a wanted kind. Blobs
are Base64 text, matrices are lists of numbers, and a viewer is an object of its fields. JSON has no
infinities, so a number that is not finite is written as the text `NaN`, `inf` or `-inf`.

Reading accepts more than writing produces: numbers and truth values may come as text, a matrix as
the text of its components. A value that cannot be read is blamed on the key it was meant for.
-/

namespace SharedState

/-- The matrix with the given components; a refusal blames `key`. -/
def Matrix.ofComponents (key : String) (components : List Single) : Except Error Matrix :=
  match Matrix.ofList? components with
  | some m => .ok m
  | none => .error (.typeMismatch key s!"matrix of {matrixSize} floats"
      s!"{components.length} floats")

namespace Value

/-! ## Writing -/

/-- A floating point number: a number if it is finite, its text otherwise. -/
def floatWire (x : Double) : Json :=
  match Json.Number.ofDouble? x with
  | some n => .number n
  | none => .string (String.ofList (NumberStyle.plain.write x))

/-- A matrix: the list of its components, widened. -/
def matrixWire (m : Matrix) : Json :=
  .array (m.toList.map fun x => floatWire x.widen)

/-- A truth value or number or text or list or object that stands for a value in a document. -/
def toWire : Value → Json
  | integer i => .number (.ofInt64 i)
  | float x => floatWire x
  | boolean b => .bool b
  | string s => .string s
  | bytes b => .string (String.ofList ((Base64.encode b).map fun c => Char.ofNat c.toNat))
  | matrix m => matrixWire m
  | viewer v => .ofMembers [
      ("width", .number (.ofInt64 v.width)),
      ("height", .number (.ofInt64 v.height)),
      ("projection", matrixWire v.projection),
      ("modelview", matrixWire v.modelview),
      ("timestamp", floatWire v.timestamp),
      ("sceneView", .string v.sceneView)]

/-! ## Reading -/

/-- The refusal of a wire value where something else was expected. -/
def unexpected (key expected : String) (found : Json) : Error :=
  .malformedUpdate key s!"expected {expected}, found {found.render}"

/-- An integer: a number or text without the blanks around it. -/
def readInteger (key : String) (json : Json) : Except Error Int64 :=
  let found := match json with
    | .number n => n.toInt64?
    | .string s => (Text.readInt? 64 (Text.trim s.toList)).map Int64.ofInt
    | _ => none
  match found with
  | some i => .ok i
  | none => .error (unexpected key "an integer" json)

/-- A floating point number: a number or text without the blanks around it. -/
def readFloat (key : String) (json : Json) : Except Error Double :=
  let found := match json with
    | .number n => some n.toDouble
    | .string s => Binary.read? (Text.trim s.toList)
    | _ => none
  match found with
  | some x => .ok x
  | none => .error (unexpected key "a number" json)

def truth? (text : List Char) : Option Bool :=
  if text = "true".toList ∨ text = "1".toList then some true
  else if text = "false".toList ∨ text = "0".toList then some false
  else none

/-- A truth value: one of JSON, or text without the blanks around it. -/
def readBoolean (key : String) (json : Json) : Except Error Bool :=
  let found := match json with
    | .bool b => some b
    | .string s => truth? (Text.trim s.toList)
    | _ => none
  match found with
  | some b => .ok b
  | none => .error (unexpected key "a boolean" json)

def readComponent (key : String) (word : List Char) : Except Error Single :=
  match Binary.read? word with
  | some x => .ok x
  | none => .error (.malformedUpdate key s!"invalid matrix component '{String.ofList word}'")

/-- A matrix: a list of numbers, each rounded, or text of its components between blanks. -/
def readMatrix (key : String) (json : Json) : Except Error Matrix := do
  let components ← match json with
    | .array items => items.mapM fun item => (readFloat key item).map Binary.narrow
    | .string s => (Text.words s.toList).mapM (readComponent key)
    | _ => .error (unexpected key "a matrix" json)
  if components.length = matrixSize then Matrix.ofComponents key components
  else .error (.malformedUpdate key
    s!"matrix needs {matrixSize} components, found {components.length}")

def viewerField (key : String) (members : List (String × Json)) (name : String) :
    Except Error Json :=
  match Json.member? name members with
  | some value => .ok value
  | none => .error (.malformedUpdate key s!"viewer is missing '{name}'")

/-- A viewer: an object with all of its fields, and others that are skipped. -/
def readViewer (key : String) : Json → Except Error Viewer
  | .object members => do
    let width ← readInteger key (← viewerField key members "width")
    let height ← readInteger key (← viewerField key members "height")
    let projection ← readMatrix key (← viewerField key members "projection")
    let modelview ← readMatrix key (← viewerField key members "modelview")
    let timestamp ← readFloat key (← viewerField key members "timestamp")
    match ← viewerField key members "sceneView" with
    | .string sceneView => .ok { width, height, projection, modelview, timestamp, sceneView }
    | other => .error (unexpected key "a string sceneView" other)
  | other => .error (unexpected key "a viewer object" other)

def readBytes (key : String) : Json → Except Error (List UInt8)
  | .string s =>
    match Base64.decode s.toUTF8.toList with
    | .ok b => .ok b
    | .error fault => .error (.malformedUpdate key s!"invalid base64: {fault.message}")
  | other => .error (unexpected key "base64 text" other)

def readString (key : String) : Json → Except Error String
  | .string s => .ok s
  | other => .error (unexpected key "a string" other)

/-- The value of a kind that a wire value stands for; a refusal blames `key`. -/
def ofWire (key : String) (kind : Kind) (json : Json) : Except Error Value :=
  match kind with
  | .integer => (readInteger key json).map .integer
  | .float => (readFloat key json).map .float
  | .boolean => (readBoolean key json).map .boolean
  | .string => (readString key json).map .string
  | .bytes => (readBytes key json).map .bytes
  | .matrix => (readMatrix key json).map .matrix
  | .viewer => (readViewer key json).map .viewer

/-- What is read as a kind has that kind. -/
theorem kind_of_ofWire {key : String} {kind : Kind} {json : Json} {value : Value}
    (h : ofWire key kind json = .ok value) : value.kind = kind := by
  cases kind <;> simp only [ofWire, Except.map] at h <;> split at h <;> cases h <;> rfl

end Value

end SharedState
