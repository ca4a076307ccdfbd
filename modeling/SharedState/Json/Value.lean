import SharedState.Json.Node
import SharedState.KeyMap
import SharedState.Number.Style

/-!
# JSON values

A JSON value is what a syntax tree denotes. Integers of 64 bits, with or without a sign, stay
integers; every other number is the nearest number of 64 bits, and one that would be infinite
denotes nothing. Of members with the same key the last one counts, and the members of an object are
kept in the order of their keys, which is also the order they are written in.

Reading gives up below a fixed number of nested arrays and objects, `Json.maxDepth`.
-/

namespace SharedState

namespace Json

/-- A JSON number: an integer that fits 64 bits with or without a sign, or a finite number. -/
inductive Number
  | integer (value : Int) (fits : -(1 <<< 63 : Nat) ≤ value ∧ value < (1 <<< 64 : Nat))
  | float (value : Double) (finite : value.isFinite = true)
deriving DecidableEq

namespace Number

def ofInt64 (i : Int64) : Number :=
  .integer i.toInt ⟨i.le_toInt, Int.lt_trans i.toInt_lt (by decide)⟩

/-- The JSON number of a finite floating point number. -/
def ofDouble? (x : Double) : Option Number :=
  if h : x.isFinite = true then some (.float x h) else none

def ofNumeral? (negative : Bool) (numeral : Numeral) : Option Number :=
  let n := Text.ofDigits 0 numeral.whole
  let value : Int := if negative then -n else n
  let isInteger := numeral.fraction = [] ∧ numeral.exponent = none ∧ ¬ (negative ∧ n = 0)
  if h : isInteger ∧ -(1 <<< 63 : Nat) ≤ value ∧ value < (1 <<< 64 : Nat) then
    some (.integer value h.2)
  else ofDouble? (.ofDecimal negative numeral.toDecimal)

def numeral : Number → Bool × Numeral
  | .integer value _ => (value < 0, ⟨Text.toDigits value.natAbs, [], none⟩)
  | .float .nan _ => (false, ⟨['0'], [], none⟩)
  | .float (.number negative place) _ =>
    (negative, NumberStyle.document.numeral (Format.double.shortest .toEven place.val))

/-- The integer of 64 bits that a number is, if it is one. -/
def toInt64? : Number → Option Int64
  | .integer value _ =>
    if -(1 <<< 63 : Nat) ≤ value ∧ value < (1 <<< 63 : Nat) then some (.ofInt value) else none
  | .float .. => none

def toDouble : Number → Double
  | .integer value _ => .ofDecimal (value < 0) ⟨value.natAbs, 0⟩
  | .float value _ => value

end Number

end Json

/-- A JSON value. Reading gives objects that hold each key once, in ascending order. -/
inductive Json
  | null
  | bool (value : Bool)
  | number (value : Json.Number)
  | string (value : String)
  | array (items : List Json)
  | object (members : List (String × Json))

namespace Json

/-- An object with the given members, of which later ones replace earlier ones. -/
def ofMembers (members : List (String × Json)) : Json :=
  .object (members.foldl (fun object (key, value) => KeyMap.insertEntry key value object) [])

def member? (key : String) (members : List (String × Json)) : Option Json :=
  members.lookup key

/-- The number of nested arrays and objects that reading goes down. -/
def maxDepth : Nat := 127

mutual

/-- The value that a tree denotes, if it nests at most `depth` arrays and objects. -/
def ofNode? (depth : Nat) : Node → Option Json
  | .null => some .null
  | .bool b => some (.bool b)
  | .number negative numeral => (Number.ofNumeral? negative numeral).map .number
  | .string content => content.map .string
  | .array items =>
    match depth with
    | 0 => none
    | depth + 1 => (ofNodes? depth items).map .array
  | .object members =>
    match depth with
    | 0 => none
    | depth + 1 => (ofMembers? depth members).map ofMembers

def ofNodes? (depth : Nat) : List Node → Option (List Json)
  | [] => some []
  | node :: rest =>
    match ofNode? depth node, ofNodes? depth rest with
    | some value, some values => some (value :: values)
    | _, _ => none

/-- The keys and values of the members of an object, as they are written. -/
def ofMembers? (depth : Nat) : List (Option String × Node) → Option (List (String × Json))
  | [] => some []
  | (key, node) :: rest =>
    match key, ofNode? depth node, ofMembers? depth rest with
    | some key, some value, some members => some ((key, value) :: members)
    | _, _, _ => none

end

mutual

def toNode : Json → Node
  | .null => .null
  | .bool b => .bool b
  | .number n => .number n.numeral.1 n.numeral.2
  | .string s => .text s
  | .array items => .array (toNodes items)
  | .object members => .object (toMembers members)

def toNodes : List Json → List Node
  | [] => []
  | value :: rest => value.toNode :: toNodes rest

def toMembers : List (String × Json) → List (Option String × Node)
  | [] => []
  | (key, value) :: rest => (some key, value.toNode) :: toMembers rest

end

/-- The value that the bytes of a JSON text denote. -/
def parse? (bytes : ByteArray) : Option Json :=
  (Node.parse? bytes).bind (ofNode? maxDepth)

def write (value : Json) : List Char :=
  value.toNode.write

def render (value : Json) : String :=
  String.ofList value.write

def isNull : Json → Bool
  | .null => true
  | _ => false

end Json

end SharedState
