import SharedState.Json.Token

/-!
# JSON syntax trees

A syntax tree is what JSON text says before anything is made of it: members stay in the order in
which they are written, repeated ones included, and strings and numbers that no value could hold are
still part of it. Reading a record from a tree can so skip what it has no use for.

`Node.ofTokens?` reads a tree from tokens with an explicit stack of unfinished arrays and objects,
so the depth of a text is bounded by nothing here. `Node.tokens` is the way back.
-/

namespace SharedState.Json

/-- A JSON syntax tree. -/
inductive Node
  | null
  | bool (value : Bool)
  | number (negative : Bool) (numeral : Numeral)
  | string (content : Option String)
  | array (items : List Node)
  | object (members : List (Option String × Node))

namespace Node

/-- An array or object whose end has not been read: what it holds so far, last first. An object
waits for the value of `key`. -/
inductive Frame
  | array (before : List Node)
  | object (before : List (Option String × Node)) (key : Option String)

/-- What has been read of a tree, which determines what may come next. The unfinished arrays and
objects around it are on the stack, innermost first. -/
inductive Progress
  | value (stack : List Frame)
  | arrayStart (stack : List Frame)
  | objectStart (stack : List Frame)
  | member (before : List (Option String × Node)) (stack : List Frame)
  | colon (before : List (Option String × Node)) (key : Option String) (stack : List Frame)
  | read (node : Node) (stack : List Frame)

def startValue (stack : List Frame) : Token → Option Progress
  | .null => some (.read .null stack)
  | .bool b => some (.read (.bool b) stack)
  | .number negative numeral => some (.read (.number negative numeral) stack)
  | .string content => some (.read (.string content) stack)
  | .openBracket => some (.arrayStart stack)
  | .openBrace => some (.objectStart stack)
  | _ => none

def advance : Progress → Token → Option Progress
  | .value stack, token => startValue stack token
  | .arrayStart stack, .closeBracket => some (.read (.array []) stack)
  | .arrayStart stack, token => startValue (.array [] :: stack) token
  | .objectStart stack, .closeBrace => some (.read (.object []) stack)
  | .objectStart stack, .string key => some (.colon [] key stack)
  | .member before stack, .string key => some (.colon before key stack)
  | .colon before key stack, .colon => some (.value (.object before key :: stack))
  | .read node (.array before :: stack), .comma => some (.value (.array (node :: before) :: stack))
  | .read node (.array before :: stack), .closeBracket =>
    some (.read (.array (node :: before).reverse) stack)
  | .read node (.object before key :: stack), .comma => some (.member ((key, node) :: before) stack)
  | .read node (.object before key :: stack), .closeBrace =>
    some (.read (.object ((key, node) :: before).reverse) stack)
  | _, _ => none

def ofTokens? (tokens : List Token) : Option Node :=
  match tokens.foldlM advance (.value []) with
  | some (.read node []) => some node
  | _ => none

def parse? (bytes : ByteArray) : Option Node :=
  (Token.scan? (Text.glyphs bytes)).bind ofTokens?

mutual

def tokens : Node → List Token
  | .null => [.null]
  | .bool b => [.bool b]
  | .number negative numeral => [.number negative numeral]
  | .string content => [.string content]
  | .array items => .openBracket :: itemTokens items ++ [.closeBracket]
  | .object members => .openBrace :: memberTokens members ++ [.closeBrace]

def itemTokens : List Node → List Token
  | [] => []
  | [item] => item.tokens
  | item :: next :: rest => item.tokens ++ .comma :: itemTokens (next :: rest)

def memberTokens : List (Option String × Node) → List Token
  | [] => []
  | [(key, value)] => .string key :: .colon :: value.tokens
  | (key, value) :: next :: rest =>
    .string key :: .colon :: value.tokens ++ .comma :: memberTokens (next :: rest)

end

def write (node : Node) : List Char :=
  node.tokens.flatMap Token.write

def text (content : String) : Node := .string (some content)

def record (members : List (String × Node)) : Node :=
  .object (members.map fun (key, value) => (some key, value))

end Node

end SharedState.Json
