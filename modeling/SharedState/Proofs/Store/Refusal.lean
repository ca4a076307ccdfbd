import SharedState.Proofs.Value.Unreadable
import SharedState.Store.Plan

/-!
# What a store refuses for

A store refuses a change because of one of its elements, or because of one that
it does not have, and a document because of one entry or declaration. In each
case the error names the key. So an error without a key says something about
the call and not about the store: that the bytes were no document, or that the
model was marked.
-/

namespace SharedState

/-- All errors that the computation can end with name a key. -/
def NamesKey {α : Type} (x : Except Error α) : Prop :=
  FailsOnly (fun error => error.key?.isSome) x

theorem Blames.namesKey {α : Type} {key : String} {x : Except Error α} (h : Blames key x) :
    NamesKey x := by
  refine FailsOnly.mono h ?_
  rintro _ ⟨reason, rfl⟩
  rfl

namespace Constraint

variable (key : String) (value : Value) (constraint : Constraint)

theorem requireKind_namesKey (kind : Kind) (values : List Value) :
    NamesKey (requireKind key kind values) := by
  unfold requireKind
  split
  · exact .error rfl
  · exact .ok ()

theorem validateFor_namesKey (kind : Kind) : NamesKey (constraint.validateFor key kind) := by
  cases constraint with
  | unconstrained => exact .ok ()
  | range min max =>
      simp only [validateFor]
      split
      · refine FailsOnly.bind (requireKind_namesKey key kind [min, max]) fun _ _ => ?_
        split
        · exact .ok ()
        · exact .error rfl
      · exact .error rfl
  | allowed values => exact requireKind_namesKey key kind values

theorem check_namesKey : NamesKey (constraint.check key value) := by
  unfold check
  split
  · exact .ok ()
  · exact .error rfl

theorem checkInitial_namesKey : NamesKey (constraint.checkInitial key value) := by
  unfold checkInitial
  split
  · split
    · exact .ok ()
    · exact .error rfl
  · exact check_namesKey _ _ _

end Constraint

theorem Spec.create_namesKey (spec : Spec) (revision : Nat) : NamesKey (spec.create revision) := by
  refine FailsOnly.bind (Constraint.validateFor_namesKey _ _ _) fun _ _ => ?_
  exact FailsOnly.bind (Constraint.checkInitial_namesKey _ _ _) fun _ _ => .ok _

theorem Element.checkUpdate_namesKey (e : Element) (value : Value) :
    NamesKey (e.checkUpdate value) := by
  unfold checkUpdate
  split
  · exact Constraint.check_namesKey _ _ _
  · exact .error rfl

theorem Schema.compare_namesKey (known : Schema) (declared : List SchemaEntry) :
    NamesKey (known.compare declared) := by
  induction declared with
  | nil => exact .ok ()
  | cons entry rest ih =>
      rw [compare]
      split
      · exact ih
      · split
        · exact ih
        · exact .error rfl

namespace Store

variable (s : Store) (key : String)

theorem element_namesKey : NamesKey (s.element key) := by
  unfold element
  split
  · exact .ok _
  · exact .error rfl

theorem add_namesKey (spec : Spec) : NamesKey (s.add spec) := by
  unfold add
  split
  · exact .error rfl
  · exact FailsOnly.bind (spec.create_namesKey _) fun _ _ => .ok _

theorem update_namesKey (value : Value) : NamesKey (s.update key value) :=
  FailsOnly.bind (s.element_namesKey key) fun e _ =>
    FailsOnly.bind (e.checkUpdate_namesKey value) fun _ _ => .ok _

theorem annotate_namesKey (label : String) : NamesKey (s.annotate key label) :=
  FailsOnly.bind (s.element_namesKey key) fun _ _ => .ok _

theorem remove_namesKey : NamesKey (s.remove key) :=
  FailsOnly.bind (s.element_namesKey key) fun _ _ => .ok _

theorem planEntry_namesKey (entry : Entry) : NamesKey (s.planEntry entry) := by
  unfold planEntry
  split
  · next e _ =>
    have hread := (Value.ofWire_blames entry.key entry.value e.kind).namesKey
    refine FailsOnly.bind hread fun value _ => ?_
    refine FailsOnly.bind (FailsOnly.bind (s.element_namesKey entry.key) fun e _ => ?_)
      fun _ _ => .ok _
    exact e.checkUpdate_namesKey value
  · split
    · exact .ok none
    · exact .error rfl

theorem planEntries_namesKey (entries : List Entry) : NamesKey (s.planEntries entries) := by
  induction entries with
  | nil => exact .ok _
  | cons entry rest ih =>
      refine FailsOnly.bind (s.planEntry_namesKey entry) fun value _ => ?_
      refine FailsOnly.bind ih fun plan _ => ?_
      split
      · exact .ok _
      · exact .ok _

theorem plan_namesKey (doc : Document) : NamesKey (s.plan doc) := by
  have hentries := s.planEntries_namesKey doc.state
  unfold plan
  split
  · next declared _ =>
    exact FailsOnly.bind (s.schema.compare_namesKey declared.elements) fun _ _ => hentries
  · exact hentries

end Store

end SharedState
