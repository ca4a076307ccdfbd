import SharedState.Error
import SharedState.Value.Basic

/-!
# Constraints

The rule that an element's values obey, fixed when the element is created. A range holds its two
bounds as values of the element's own kind, and an allowed set the values themselves. Being in a
range is being between its bounds in the order of numbers, so what is not a number is in no range;
being in an allowed set is agreeing with one of its members, so what is not a number is in no set
either.
-/

namespace SharedState

/-- The rule that the values of an element obey. -/
inductive Constraint
  | unconstrained
  | range (min max : Value)
  | allowed (values : List Value)
deriving DecidableEq

namespace Constraint

def admits : Constraint → Value → Bool
  | unconstrained, _ => true
  | range min max, value => min.atMost value && value.atMost max
  | allowed values, value => values.any (·.agrees value)

/-- A refusal of the first of the values that is not of the wanted kind. -/
def requireKind (key : String) (kind : Kind) (values : List Value) : Except Error Unit :=
  match values.find? (·.kind ≠ kind) with
  | some value => .error (.typeMismatch key kind.name value.kind.name)
  | none => .ok ()

/-- The constraint makes sense for elements of a kind: bounds and members are of that kind, and a
range is of numbers and not empty. -/
def validateFor (key : String) (kind : Kind) : Constraint → Except Error Unit
  | unconstrained => .ok ()
  | range min max =>
    if kind.isNumeric then do
      requireKind key kind [min, max]
      if min.atMost max then .ok ()
      else .error (.constraintViolation key s!"empty range [{min.display}, {max.display}]")
    else .error (.typeMismatch key "integer or float for a range constraint" kind.name)
  | allowed values => requireKind key kind values

/-- What is said of a value that breaks the constraint. -/
def breach (value : Value) : Constraint → String
  | unconstrained => ""
  | range min max => s!"{value.display} is outside [{min.display}, {max.display}]"
  | allowed _ => s!"{value.display} is not one of the allowed values"

/-- A refusal of a value that breaks the constraint. -/
def check (key : String) (value : Value) (constraint : Constraint) : Except Error Unit :=
  if constraint.admits value then .ok ()
  else .error (.constraintViolation key (constraint.breach value))

/-- A refusal of the first value of an element that breaks the constraint; one that is missing from
an allowed set is refused in words of its own. -/
def checkInitial (key : String) (value : Value) (constraint : Constraint) : Except Error Unit :=
  match constraint with
  | allowed _ =>
    if constraint.admits value then .ok () else .error (.valueNotInRestriction key value.display)
  | _ => constraint.check key value

theorem check_eq_ok_iff {key : String} {value : Value} {constraint : Constraint} :
    constraint.check key value = .ok () ↔ constraint.admits value = true := by
  unfold check
  split <;> simp_all

theorem checkInitial_eq_ok_iff {key : String} {value : Value} {constraint : Constraint} :
    constraint.checkInitial key value = .ok () ↔ constraint.admits value = true := by
  unfold checkInitial
  split
  · split <;> simp_all
  · exact check_eq_ok_iff

theorem requireKind_eq_ok_iff {key : String} {kind : Kind} {values : List Value} :
    requireKind key kind values = .ok () ↔ ∀ value ∈ values, value.kind = kind := by
  unfold requireKind
  cases h : values.find? (·.kind ≠ kind) with
  | none => simpa using h
  | some value =>
    have hk := List.find?_some h
    have hm := List.mem_of_find?_eq_some h
    simp only [reduceCtorEq, false_iff, Classical.not_forall]
    exact ⟨value, hm, by simpa using hk⟩

end Constraint

end SharedState
