/-!
# Errors

What can go wrong, as causes with the key they were raised for. The message of an error, the key it
blames and the class of the fault are read off the cause.
-/

namespace SharedState

/-- Why an operation was refused. -/
inductive Error
  | duplicateKey (key : String)
  | unknownKey (key : String)
  | typeMismatch (key expected actual : String)
  | constraintViolation (key reason : String)
  | valueNotInRestriction (key value : String)
  | malformedDocument
  | malformedUpdate (key reason : String)
  | schemaMismatch (key declared known : String)
  | reentrantAccess
  | settings (reason : String)
  | io (reason : String)
  | metrics (reason : String)
deriving DecidableEq

/-- Whose fault an error is: a conflict is a well-formed request that the stored state forbids. -/
inductive ErrorClass
  | conflict
  | client
  | server
deriving DecidableEq

namespace Error

def message : Error → String
  | duplicateKey key => s!"Element already exists: {key}"
  | unknownKey key => s!"Unknown element: {key}"
  | typeMismatch key expected actual =>
    s!"Type mismatch for '{key}': expected {expected}, got {actual}"
  | constraintViolation key reason => s!"Constraint violation for '{key}': {reason}"
  | valueNotInRestriction key value => s!"Value {value} for '{key}' is not in the allowed set"
  | malformedDocument => "Malformed document"
  | malformedUpdate key reason => s!"Malformed update for '{key}': {reason}"
  | schemaMismatch key declared known =>
    s!"Schema mismatch for '{key}': document declares {declared}, store holds {known}"
  | reentrantAccess => "Re-entrant model access from a listener callback"
  | settings reason => s!"Configuration error: {reason}"
  | io reason => s!"I/O error: {reason}"
  | metrics reason => s!"Metrics error: {reason}"

def key? : Error → Option String
  | duplicateKey key | unknownKey key | typeMismatch key _ _ | constraintViolation key _
  | valueNotInRestriction key _ | malformedUpdate key _ | schemaMismatch key _ _ => some key
  | malformedDocument | reentrantAccess | settings _ | io _ | metrics _ => none

def errorClass : Error → ErrorClass
  | duplicateKey _ | typeMismatch .. | constraintViolation .. | valueNotInRestriction ..
  | schemaMismatch .. => .conflict
  | unknownKey _ | malformedDocument | malformedUpdate .. => .client
  | reentrantAccess | settings _ | io _ | metrics _ => .server

/-- The HTTP status that answers a request refused with an error. -/
def status (error : Error) : Nat :=
  match error, error.errorClass with
  | unknownKey _, _ => 404
  | _, .conflict => 409
  | _, .client => 400
  | _, .server => 500

end Error

end SharedState
