import SharedState.Error
import SharedState.Json.Value

/-!
# Requests and answers

What a client asks for, and what it is answered.
-/

namespace SharedState.Http

open Json

/-- A request. The target is a path, a query after a question mark, and a fragment after a hash,
which servers do not look at. Before the path there may be a scheme and the host that is asked. -/
structure Request where
  method : String
  target : List Char
  body : ByteArray := .empty

namespace Request

/-- A target without its scheme and host. A path starts with a slash, a scheme ends with a colon and
two of them. -/
def localPart : List Char → List Char
  | '/' :: rest => '/' :: rest
  | target =>
    match target.dropWhile (· ≠ ':') with
    | ':' :: '/' :: '/' :: rest => rest.dropWhile fun c => c ≠ '/' && c ≠ '?'
    | _ => target

/-- The target without its scheme, host and fragment. -/
def resource (request : Request) : List Char :=
  localPart (request.target.takeWhile (· ≠ '#'))

def path (request : Request) : String :=
  String.ofList (request.resource.takeWhile (· ≠ '?'))

/-- The query, empty if there is none. -/
def query (request : Request) : List Char :=
  (request.resource.dropWhile (· ≠ '?')).drop 1

end Request

/-- An answer: its status, and its content with the type of it. -/
structure Response where
  status : Nat
  contentType : Option String := none
  body : String := ""
deriving DecidableEq

namespace Response

def jsonType : String := "application/json"

def bare (status : Nat) : Response := { status }

def json (status : Nat) (body : String) : Response :=
  { status, contentType := some jsonType, body }

/-- The answer to a request that is refused with an error. -/
def refusal (error : Error) : Response :=
  json error.status <| Json.render <| .ofMembers
    [("success", .bool false), ("error", .string error.message),
      ("key", (error.key?.map Json.string).getD .null)]

/-- The answer without its content, which keeps the type of it. -/
def headOnly (response : Response) : Response := { response with body := "" }

end Response

end SharedState.Http
