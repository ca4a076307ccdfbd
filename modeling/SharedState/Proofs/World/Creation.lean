import SharedState.Proofs.Store.Standing
import SharedState.Proofs.World.History
import SharedState.Proofs.World.Interleaving

/-!
# First values and later ones

A constraint is checked in two places: when an element is created, against its
first value, and at every update, against the value that is to come. The first
check also asks whether the constraint makes sense for the kind of the value,
and has words of its own for sets; the second one compares the kinds before it
looks at the constraint at all.

They still let the same values in. Once one creation under a constraint has
gone through, the constraint fits the kind of its value, and then nothing is
left to either check but whether the constraint admits the value. A value of
another kind finds no constraint that fits it, unless nothing is constrained:
the bounds or the members are of the first kind, and there is at least one,
for the first value was let in.
-/

namespace SharedState

namespace Constraint

variable {constraint : Constraint} {kind : Kind} {key : String} {value : Value}

theorem requireKind_cons_of_ne {rest : List Value} (h : value.kind ≠ kind) :
    requireKind key kind (value :: rest) =
      .error (.typeMismatch key kind.name value.kind.name) := by
  simp [requireKind, h]

/-- A constraint that fits a kind and admits something fits no other kind, unless it
constrains nothing. -/
theorem Fits.validateFor_of_ne (h : constraint.Fits kind) (ha : constraint.admits value = true)
    (hc : constraint ≠ .unconstrained) {other : Kind} (hne : kind ≠ other) (key : String) :
    ∃ expected actual,
      constraint.validateFor key other = .error (.typeMismatch key expected actual) := by
  cases constraint with
  | unconstrained => exact absurd rfl hc
  | range min max =>
      obtain ⟨-, hmin, -⟩ := h
      rw [validateFor]
      split
      · rw [requireKind_cons_of_ne (hmin ▸ hne)]
        exact ⟨_, _, rfl⟩
      · exact ⟨_, _, rfl⟩
  | allowed values =>
      cases values with
      | nil => cases ha
      | cons member rest =>
          have hmember : member.kind = kind := h member List.mem_cons_self
          exact ⟨_, _, requireKind_cons_of_ne (hmember ▸ hne)⟩

/-- The words for a first value that breaks the constraint. -/
theorem checkInitial_of_not_admits (h : ¬ constraint.admits value = true) (key : String) :
    (∀ min max, constraint = .range min max →
      constraint.checkInitial key value =
        .error (.constraintViolation key (constraint.breach value))) ∧
    ∀ values, constraint = .allowed values →
      constraint.checkInitial key value = .error (.valueNotInRestriction key value.display) := by
  constructor
  · rintro min max rfl
    exact if_neg h
  · rintro values rfl
    exact if_neg h

/-- The two checks let in the same values, and differ in what they say of the others. -/
theorem check_agrees_with_checkInitial (constraint : Constraint) (key key' : String)
    (value : Value) :
    (constraint.check key value = .ok () ↔ constraint.checkInitial key' value = .ok ()) ∧
      ∀ e e', constraint.check key value = .error e →
        constraint.checkInitial key' value = .error e' →
        constraint ≠ .unconstrained ∧ e = .constraintViolation key (constraint.breach value) ∧
          (∀ min max, constraint = .range min max →
            e' = .constraintViolation key' (constraint.breach value)) ∧
          ∀ values, constraint = .allowed values →
            e' = .valueNotInRestriction key' value.display := by
  refine ⟨by rw [check_eq_ok_iff, checkInitial_eq_ok_iff], fun e e' he he' => ?_⟩
  have hnot : ¬ constraint.admits value = true := by
    intro hadmits
    rw [check_eq_ok_iff.2 hadmits] at he
    cases he
  obtain ⟨hrange, hset⟩ := checkInitial_of_not_admits hnot key'
  rw [check, if_neg hnot] at he
  refine ⟨?_, (Except.error.inj he).symm, fun min max hc => ?_, fun values hc => ?_⟩
  · rintro rfl
    exact hnot rfl
  · exact Except.error.inj (he'.symm.trans (hrange min max hc))
  · exact Except.error.inj (he'.symm.trans (hset values hc))

end Constraint

namespace Store

variable {s : Store} {spec : Spec} {e : Element} {key : String} {value : Value}

/-- Under a constraint that fits, creating an element comes to checking its first value. -/
theorem add_of_fits (hnew : s.elements.find? spec.key = none)
    (hfits : spec.constraint.Fits spec.value.kind) :
    (s.add spec).map (fun _ => ()) = spec.constraint.checkInitial spec.key spec.value := by
  have hcontains : ¬ s.elements.contains spec.key = true := by simp [KeyMap.contains, hnew]
  have hvalid : spec.constraint.validateFor spec.key spec.value.kind = .ok () :=
    Constraint.validateFor_eq_ok_iff.2 hfits
  rw [add, if_neg hcontains, Spec.create, hvalid]
  cases spec.constraint.checkInitial spec.key spec.value <;> rfl

theorem add_of_validateFor_error (hnew : s.elements.find? spec.key = none) {error : Error}
    (h : spec.constraint.validateFor spec.key spec.value.kind = .error error) :
    s.add spec = .error error := by
  have hcontains : ¬ s.elements.contains spec.key = true := by simp [KeyMap.contains, hnew]
  rw [add, if_neg hcontains, Spec.create, h]
  rfl

theorem update_of_find? (he : s.elements.find? key = some e) (value : Value) :
    (s.update key value).map (fun _ => ()) = e.checkUpdate value := by
  rw [update, element_eq_ok_iff.2 he]
  show ((e.checkUpdate value >>= fun _ => _) : Except Error _).map _ = _
  cases e.checkUpdate value <;> rfl

end Store

namespace World

variable {n : Nat} {m : Fin n} {w : World n}

/-- A write succeeds or is refused as the store says. -/
theorem call_write_map (hfree : m ∉ w.dispatching) (a : Write) :
    (w.call (m, a.operation)).2.map (fun _ => ()) = (w[m].store.write a).map fun _ => () := by
  rw [(call_write hfree a).1]
  cases w[m].store.write a <;> rfl

theorem exists_ok_iff_map {reply : Reply} :
    (∃ outcome, reply = .ok outcome) ↔ reply.map (fun _ => ()) = .ok () := by
  rw [map_eq_ok_iff]
  simp

/-- What creating an element has to say about the element. -/
theorem of_call_add (hfree : m ∉ w.dispatching) {spec : Spec} {outcome : Outcome}
    (h : (w.call (m, .add spec)).2 = .ok outcome) :
    let made := (w.call (m, .add spec)).1
    (∃ e, made[m].store.elements.find? spec.key = some e ∧ e.key = spec.key ∧
        e.kind = spec.value.kind ∧ e.constraint = spec.constraint) ∧
      (∀ key, key ≠ spec.key →
        made[m].store.elements.find? key = w[m].store.elements.find? key) ∧
      spec.constraint.Fits spec.value.kind ∧ spec.constraint.admits spec.value = true ∧
      m ∉ made.dispatching := by
  intro made
  obtain ⟨hreply, hstore, hmarks⟩ := call_write hfree (.add spec)
  obtain ⟨revision, hr, -⟩ := map_eq_ok_iff.1 (hreply.symm.trans h)
  obtain ⟨done, hd, -⟩ := map_eq_ok_iff.1 hr
  have hdone : made[m].store = done.1 := by
    rw [show made[m].store = _ from hstore, Store.attempt, hd]
  obtain ⟨-, e, he, rfl⟩ := Store.add_eq_ok_iff.1 hd
  obtain ⟨rfl, hwf⟩ := Spec.create_eq_ok_iff.1 he
  rw [hdone, Store.touch_elements]
  refine ⟨⟨_, KeyMap.find?_insert_self .., rfl, rfl, rfl⟩,
    fun key hkey => KeyMap.find?_insert_of_ne _ _ hkey,
    Constraint.validateFor_eq_ok_iff.1 hwf.valid, hwf.admitted, ?_⟩
  rwa [show made.dispatching = _ from hmarks]

/-- Once an element has been created under a constraint, its updates let in the values that
creations under the same constraint let in, in the model as it was before or as it is then.
Where both refuse a value of its kind, the update says that the constraint is violated, and so
does the creation if the constraint is a range; if it is a set, the creation says that the
value is not in it. A value of another kind is refused for its kind by the update, and by the
creation unless nothing is constrained. -/
theorem creation_agrees_with_update {first second : Spec} {outcome : Outcome}
    (hfirst : (w.call (m, .add first)).2 = .ok outcome) (hkey : second.key ≠ first.key)
    (hnew : w[m].store.elements.find? second.key = none)
    (hsame : second.constraint = first.constraint) :
    let made := (w.call (m, .add first)).1
    let updated := (made.call (m, .update first.key second.value)).2
    ∀ world, world = w ∨ world = made →
      let created := (world.call (m, .add second)).2
      (second.value.kind = first.value.kind →
        ((∃ o, updated = .ok o) ↔ ∃ o, created = .ok o) ∧
        ∀ e e', updated = .error e → created = .error e' →
          first.constraint ≠ .unconstrained ∧
          e = .constraintViolation first.key (first.constraint.breach second.value) ∧
          (∀ min max, first.constraint = .range min max →
            e' = .constraintViolation second.key (first.constraint.breach second.value)) ∧
          ∀ values, first.constraint = .allowed values →
            e' = .valueNotInRestriction second.key second.value.display) ∧
      (second.value.kind ≠ first.value.kind →
        updated = .error
          (.typeMismatch first.key first.value.kind.name second.value.kind.name) ∧
        (first.constraint ≠ .unconstrained →
          ∃ expected actual, created = .error (.typeMismatch second.key expected actual))) := by
  intro made updated world hworld created
  have hfree : m ∉ w.dispatching := by
    intro hm
    rw [show w.call (m, .add first) = _ from answer_of_marked hm rfl] at hfirst
    cases hfirst
  obtain ⟨⟨e, he, hekey, hekind, heconstraint⟩, hothers, hfits, hadmits, hmade⟩ :=
    of_call_add hfree hfirst
  have hupdated : updated.map (fun _ => ()) = e.checkUpdate second.value :=
    (call_write_map hmade (.update first.key second.value)).trans (Store.update_of_find? he _)
  have hworldFree : m ∉ world.dispatching := by rcases hworld with rfl | rfl <;> assumption
  have hworldNew : world[m].store.elements.find? second.key = none := by
    rcases hworld with rfl | rfl
    · exact hnew
    · exact (hothers _ hkey).trans hnew
  have hcreated : created.map (fun _ => ()) = (world[m].store.add second).map fun _ => () :=
    call_write_map hworldFree (.add second)
  rw [Element.checkUpdate, hekind, hekey, heconstraint] at hupdated
  constructor
  · intro hkind
    rw [Store.add_of_fits hworldNew (hsame ▸ hkind ▸ hfits), hsame] at hcreated
    rw [if_pos hkind.symm] at hupdated
    obtain ⟨hiff, hwords⟩ :=
      first.constraint.check_agrees_with_checkInitial first.key second.key second.value
    refine ⟨?_, fun error error' herror herror' => hwords error error' ?_ ?_⟩
    · rw [exists_ok_iff_map, exists_ok_iff_map, hupdated, hcreated, hiff]
    · rw [← hupdated, herror]
      rfl
    · rw [← hcreated, herror']
      rfl
  · intro hkind
    rw [if_neg (Ne.symm hkind)] at hupdated
    refine ⟨map_eq_error_iff.1 hupdated, fun hc => ?_⟩
    obtain ⟨expected, actual, hmismatch⟩ :=
      hfits.validateFor_of_ne hadmits hc (Ne.symm hkind) second.key
    rw [Store.add_of_validateFor_error hworldNew (hsame ▸ hmismatch)] at hcreated
    exact ⟨expected, actual, map_eq_error_iff.1 hcreated⟩

/-- An element under a set that has the negative zero and what is not a number for members. -/
def amongZeros (key : String) (value : Value) : Spec :=
  { key, value, constraint := .allowed [.float (.atPlace true 0), .float .nan] }

theorem creation_agrees_with_update_zeros :
    let made : World 1 := ((alone []).call (0, .add (amongZeros "gain" (.float .zero)))).1
    let created := fun value => (made.call (0, .add (amongZeros "tone" value))).2
    (∃ o, created (.float .zero) = .ok o) ∧
      created (.float .nan) = .error (.valueNotInRestriction "tone" "NaN") ∧
      ∃ expected actual, created (.integer 0) = .error (.typeMismatch "tone" expected actual) := by
  intro made created
  have hfirst : ((alone []).call (0, .add (amongZeros "gain" (.float .zero)))).2 =
      .ok (.revision 1) := by with_unfolding_all decide
  have hkey : "tone" ≠ "gain" := by decide
  have hnew : (alone [])[(0 : Fin 1)].store.elements.find? "tone" = none := by
    with_unfolding_all decide
  have hsame : ∀ value, (amongZeros "tone" value).constraint =
      (amongZeros "gain" (.float .zero)).constraint := fun _ => rfl
  have hagrees := fun value =>
    creation_agrees_with_update hfirst hkey hnew (hsame value) made (.inr rfl)
  have hzero : (made.call (0, .update "gain" (.float .zero))).2 = .ok (.revision 2) := by
    with_unfolding_all decide
  have hnan : (made.call (0, .update "gain" (.float .nan))).2 =
      .error (.constraintViolation "gain" "NaN is not one of the allowed values") := by
    with_unfolding_all decide
  refine ⟨((hagrees (.float .zero)).1 rfl).1.1 ⟨_, hzero⟩, ?_,
    ((hagrees (.integer 0)).2 (by decide)).2 nofun⟩
  obtain ⟨hiff, hwords⟩ := (hagrees (.float .nan)).1 rfl
  cases hcreated : created (.float .nan) with
  | ok o =>
      obtain ⟨o', hupdated⟩ := hiff.2 ⟨o, hcreated⟩
      cases hnan.symm.trans hupdated
  | error e =>
      obtain ⟨-, -, -, hset⟩ := hwords _ _ hnan hcreated
      exact congrArg Except.error (hset _ rfl)

end World

end SharedState
