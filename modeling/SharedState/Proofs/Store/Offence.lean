import SharedState.Proofs.Store.Plan
import SharedState.Proofs.Value.Unreadable

/-!
# The first offender of a document

A document with something wrong in it is refused for one thing, and that is the
first: a declared shape before any value, and of declarations and of values the
one that stands first. `Store.offender?` finds it by looking at each
declaration and each entry alone, without planning anything, and
`Sound.plan_endsFor` says that planning fails just there and with the error
that belongs to the offence. That it cannot fail in another way, although it
calls functions that can, is what has to be shown: a value that was read has
the kind that it was read as, and a key that was found does not get lost.
-/

namespace SharedState

/-- What can be wrong in a document, for a store. -/
inductive Offence
  /-- The declared shape of an exposed key is not the one of its kind. -/
  | shape
  /-- The key is not exposed, and the policy lets no such key pass. -/
  | unknown
  /-- The value cannot be read as the kind of the element. -/
  | unreadable
  /-- The value breaks the constraint of the element. -/
  | inadmissible
deriving DecidableEq

namespace Offence

/-- The error that an offence is refused with, which names the key of the offender. -/
def Raises (key : String) (error : Error) : Offence → Prop
  | shape => ∃ declared known, error = .schemaMismatch key declared known
  | unknown | unreadable => ∃ reason, error = .malformedUpdate key reason
  | inadmissible => ∃ reason, error = .constraintViolation key reason

/-- The status that an offence is answered with. -/
def status : Offence → Nat
  | shape | inadmissible => 409
  | unknown | unreadable => 400

variable {offence : Offence} {key : String} {error : Error}

theorem Raises.status_eq (h : offence.Raises key error) : error.status = offence.status := by
  cases offence with
  | shape =>
      obtain ⟨_, _, rfl⟩ := h
      rfl
  | unknown | unreadable | inadmissible =>
      obtain ⟨_, rfl⟩ := h
      rfl

theorem Raises.key?_eq (h : offence.Raises key error) : error.key? = some key := by
  cases offence with
  | shape =>
      obtain ⟨_, _, rfl⟩ := h
      rfl
  | unknown | unreadable | inadmissible =>
      obtain ⟨_, rfl⟩ := h
      rfl

end Offence

namespace Store

/-- The first declaration of an exposed key that does not have the shape of its kind. -/
def misdeclared? (s : Store) (declared : List SchemaEntry) : Option SchemaEntry :=
  declared.find? fun entry => (s.exposed? entry.key).any fun e => entry.shape ≠ .ofKind e.kind

/-- What is wrong with an entry, if anything is. -/
def offence? (s : Store) (entry : Entry) : Option Offence :=
  match s.exposed? entry.key with
  | none => if s.policy = .reject then some .unknown else none
  | some e =>
    match Value.ofWire entry.key e.kind entry.value with
    | .error _ => some .unreadable
    | .ok value => if e.constraint.admits value then none else some .inadmissible

/-- The first thing that is wrong in a document, with the key of the offender. -/
def offender? (s : Store) (doc : Document) : Option (Offence × String) :=
  match doc.schema.bind fun schema => s.misdeclared? schema.elements with
  | some entry => some (.shape, entry.key)
  | none => doc.state.findSome? fun entry => (s.offence? entry).map (·, entry.key)

/-- A computation ends without a result exactly if there is an offender, and then with the
error that the offence is refused with. -/
def EndsFor {α : Type} (x : Except Error α) : Option (Offence × String) → Prop
  | none => ∃ a, x = .ok a
  | some (offence, key) => ∃ error, x = .error error ∧ offence.Raises key error

variable {s : Store}

/-! ## Shapes -/

theorem Sound.compare_endsFor (h : s.Sound) (declared : List SchemaEntry) :
    EndsFor (s.schema.compare declared)
      ((s.misdeclared? declared).map fun entry => (.shape, entry.key)) := by
  induction declared with
  | nil => exact ⟨(), rfl⟩
  | cons entry rest ih =>
      rw [Schema.compare, h.schema_find?]
      cases hx : s.exposed? entry.key with
      | none =>
          have hnext : s.misdeclared? (entry :: rest) = s.misdeclared? rest :=
            List.find?_cons_of_neg (by simp [hx])
          rw [hnext]
          exact ih
      | some e =>
          show EndsFor (if entry.shape = .ofKind e.kind then _ else _) _
          by_cases hshape : entry.shape = .ofKind e.kind
          · have hnext : s.misdeclared? (entry :: rest) = s.misdeclared? rest :=
              List.find?_cons_of_neg (by simp [hx, hshape])
            rw [if_pos hshape, hnext]
            exact ih
          · have hfirst : s.misdeclared? (entry :: rest) = some entry :=
              List.find?_cons_of_pos (by simp [hx, hshape])
            rw [if_neg hshape, hfirst]
            exact ⟨_, rfl, _, _, rfl⟩

/-! ## Entries -/

theorem Sound.planEntry_endsFor (h : s.Sound) (entry : Entry) :
    EndsFor (s.planEntry entry) ((s.offence? entry).map (·, entry.key)) := by
  unfold planEntry offence?
  cases hx : s.exposed? entry.key with
  | none =>
      cases s.policy with
      | ignore => exact ⟨none, rfl⟩
      | reject => exact ⟨_, rfl, _, rfl⟩
  | some e =>
      dsimp only
      cases hv : Value.ofWire entry.key e.kind entry.value with
      | error error => exact ⟨error, rfl, Value.ofWire_blames entry.key entry.value e.kind error hv⟩
      | ok value =>
          show EndsFor (s.checkUpdate entry.key value >>= fun _ => .ok (some value))
            ((if e.constraint.admits value then none else some Offence.inadmissible).map _)
          rw [h.checkUpdate_of_ofWire hx hv, Constraint.check]
          split
          · exact ⟨some value, rfl⟩
          · exact ⟨_, rfl, _, rfl⟩

theorem Sound.planEntries_endsFor (h : s.Sound) (entries : List Entry) :
    EndsFor (s.planEntries entries)
      (entries.findSome? fun entry => (s.offence? entry).map (·, entry.key)) := by
  induction entries with
  | nil => exact ⟨{}, rfl⟩
  | cons entry rest ih =>
      have hfirst := h.planEntry_endsFor entry
      rw [planEntries, List.findSome?_cons]
      cases ho : s.offence? entry with
      | some offence =>
          rw [ho] at hfirst
          obtain ⟨error, herror, hraises⟩ := hfirst
          rw [herror]
          exact ⟨error, rfl, hraises⟩
      | none =>
          rw [ho] at hfirst
          obtain ⟨found, hfound⟩ := hfirst
          rw [hfound]
          show EndsFor (s.planEntries rest >>= _) (rest.findSome? _)
          cases hr : rest.findSome? fun entry => (s.offence? entry).map (·, entry.key) with
          | some offender =>
              rw [hr] at ih
              obtain ⟨error, herror, hraises⟩ := ih
              rw [herror]
              exact ⟨error, rfl, hraises⟩
          | none =>
              rw [hr] at ih
              obtain ⟨plan, hplan⟩ := ih
              rw [hplan]
              cases found with
              | none => exact ⟨_, rfl⟩
              | some value => exact ⟨_, rfl⟩

/-- Planning fails exactly if there is an offender, and then for the first one. -/
theorem Sound.plan_endsFor (h : s.Sound) (doc : Document) :
    EndsFor (s.plan doc) (s.offender? doc) := by
  have hentries := h.planEntries_endsFor doc.state
  unfold plan offender?
  cases doc.schema with
  | none => exact hentries
  | some declared =>
      have hshapes := h.compare_endsFor declared.elements
      rw [Option.bind_some]
      cases hm : s.misdeclared? declared.elements with
      | some entry =>
          rw [hm] at hshapes
          obtain ⟨error, herror, hraises⟩ := hshapes
          simp only [herror]
          exact ⟨error, rfl, hraises⟩
      | none =>
          rw [hm] at hshapes
          obtain ⟨_, hok⟩ := hshapes
          simp only [hok]
          exact hentries

end Store

end SharedState
