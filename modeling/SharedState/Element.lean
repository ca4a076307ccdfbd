import SharedState.Constraint

/-!
# Elements

One named value of a store, with the constraint, the annotation and the visibility that it was
given, and the revision that last touched it. A `Spec` is what a caller says of an element to be
created.
-/

namespace SharedState

/-- A named, typed and versioned value. -/
structure Element where
  key : String
  value : Value
  constraint : Constraint
  label : Option String
  lastModified : Nat
  exposed : Bool
deriving DecidableEq

/-- The kind of an element, which never changes. -/
def Element.kind (e : Element) : Kind := e.value.kind

/-- The description of an element to be created. -/
structure Spec where
  key : String
  value : Value
  constraint : Constraint := .unconstrained
  label : Option String := none
  exposed : Bool := true
deriving DecidableEq

/-- The element that a description asks for, stamped with a revision. -/
def Spec.create (spec : Spec) (revision : Nat) : Except Error Element := do
  spec.constraint.validateFor spec.key spec.value.kind
  spec.constraint.checkInitial spec.key spec.value
  .ok {
    key := spec.key
    value := spec.value
    constraint := spec.constraint
    label := spec.label
    lastModified := revision
    exposed := spec.exposed }

/-- Whether the value may replace that of the element. -/
def Element.checkUpdate (e : Element) (value : Value) : Except Error Unit :=
  if e.kind = value.kind then e.constraint.check e.key value
  else .error (.typeMismatch e.key e.kind.name value.kind.name)

end SharedState
