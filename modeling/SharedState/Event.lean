import SharedState.Element

/-!
# Events

What a commit tells its listeners: the kind of the change, the revision of the commit, and a
snapshot of the element right after it, or right before it in the case of a removal.
-/

namespace SharedState

/-- The kind of a change. -/
inductive EventKind
  | elementChanged
  | schemaAdded
  | schemaRemoved
  | schemaModified
deriving DecidableEq

/-- The change concerns the schema and not only a value. -/
def EventKind.isSchema : EventKind → Bool
  | .elementChanged => false
  | _ => true

/-- A change of one element. -/
structure Event where
  kind : EventKind
  revision : Nat
  element : Element
deriving DecidableEq

/-- The kinds of changes that a listener wants to hear of. -/
structure Interest where
  state : Bool
  schema : Bool
deriving DecidableEq

namespace Interest

def all : Interest := ⟨true, true⟩

def stateOnly : Interest := ⟨true, false⟩

def schemaOnly : Interest := ⟨false, true⟩

def nothing : Interest := ⟨false, false⟩

/-- A listener with this interest hears of changes of a kind. -/
def wants (interest : Interest) (kind : EventKind) : Bool :=
  if kind.isSchema then interest.schema else interest.state

end Interest

end SharedState
