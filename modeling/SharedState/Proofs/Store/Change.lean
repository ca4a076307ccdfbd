import SharedState.Proofs.Except
import SharedState.Store.Basic

/-!
# What a change does

Each of the four changes of a store either refuses or goes through, and the
lemmas here say when it goes through and what it then leaves behind. They are
the only place where the four definitions are opened: three of them come down
to `Store.touch`, which puts one element in its place under a new revision,
and the fourth takes an element out.
-/

namespace SharedState

/-- What the constraint of an element promises: it makes sense for the kind of
the element, and the value obeys it. -/
structure Element.WellFormed (e : Element) : Prop where
  valid : e.constraint.validateFor e.key e.kind = .ok ()
  admitted : e.constraint.admits e.value = true

theorem Spec.create_eq_ok_iff {spec : Spec} {revision : Nat} {e : Element} :
    spec.create revision = .ok e ↔
      e = ⟨spec.key, spec.value, spec.constraint, spec.label, revision, spec.exposed⟩ ∧
        e.WellFormed := by
  simp only [Spec.create, bind_eq_ok_iff]
  constructor
  · intro h
    obtain ⟨_, hv, _, ha, he⟩ := h
    cases he
    exact ⟨rfl, hv, Constraint.checkInitial_eq_ok_iff.1 ha⟩
  · intro h
    obtain ⟨rfl, hw⟩ := h
    exact ⟨(), hw.valid, (), Constraint.checkInitial_eq_ok_iff.2 hw.admitted, rfl⟩

theorem Element.checkUpdate_eq_ok_iff {e : Element} {value : Value} :
    e.checkUpdate value = .ok () ↔ e.kind = value.kind ∧ e.constraint.admits value = true := by
  simp only [Element.checkUpdate]
  split
  · next h =>
    rw [Constraint.check_eq_ok_iff]
    exact ⟨fun ha => ⟨h, ha⟩, And.right⟩
  · next h => exact ⟨nofun, fun hk => absurd hk.1 h⟩

theorem Element.checkUpdate_congr {e e' : Element} {value : Value} (hkey : e'.key = e.key)
    (hkind : e'.kind = e.kind) (hc : e'.constraint = e.constraint) :
    e'.checkUpdate value = e.checkUpdate value := by
  rw [Element.checkUpdate, Element.checkUpdate, hkey, hkind, hc]

namespace Store

variable {s : Store} {key : String}

theorem element_eq_ok_iff {e : Element} :
    s.element key = .ok e ↔ s.elements.find? key = some e := by
  unfold element
  cases s.elements.find? key with
  | none => exact ⟨nofun, nofun⟩
  | some e' =>
      constructor
      · intro h
        cases h
        rfl
      · intro h
        cases h
        rfl

theorem exposed?_eq_some_iff {e : Element} :
    s.exposed? key = some e ↔ s.elements.find? key = some e ∧ e.exposed = true := by
  simp only [exposed?, Option.filter_eq_some_iff]

theorem add_eq_ok_iff {spec : Spec} {done : Store × Commit} :
    s.add spec = .ok done ↔ s.elements.find? spec.key = none ∧
      ∃ e, spec.create (s.revision + 1) = .ok e ∧
        done = s.touch e .add [.schemaAdded, .elementChanged] := by
  unfold add
  split
  · next h =>
    refine ⟨nofun, ?_⟩
    intro hd
    rw [KeyMap.contains, hd.1] at h
    exact absurd h (by simp)
  · next h =>
    have hn : s.elements.find? spec.key = none := by simpa [KeyMap.contains] using h
    rw [bind_eq_ok_iff]
    constructor
    · intro hd
      obtain ⟨e, he, hd⟩ := hd
      cases hd
      exact ⟨hn, e, he, rfl⟩
    · intro hd
      obtain ⟨-, e, he, rfl⟩ := hd
      exact ⟨e, he, rfl⟩

theorem update_eq_ok_iff {value : Value} {done : Store × Commit} :
    s.update key value = .ok done ↔ ∃ e, s.elements.find? key = some e ∧
      e.checkUpdate value = .ok () ∧
      done = s.touch { e with value, lastModified := s.revision + 1 } .update
        [.elementChanged] := by
  simp only [update, bind_eq_ok_iff, element_eq_ok_iff]
  constructor
  · intro h
    obtain ⟨e, he, _, hc, hd⟩ := h
    cases hd
    exact ⟨e, he, hc, rfl⟩
  · intro h
    obtain ⟨e, he, hc, rfl⟩ := h
    exact ⟨e, he, (), hc, rfl⟩

theorem annotate_eq_ok_iff {label : String} {done : Store × Commit} :
    s.annotate key label = .ok done ↔ ∃ e, s.elements.find? key = some e ∧
      done = s.touch { e with label := some label, lastModified := s.revision + 1 } .annotate
        [.schemaModified] := by
  simp only [annotate, bind_eq_ok_iff, element_eq_ok_iff]
  constructor
  · intro h
    obtain ⟨e, he, hd⟩ := h
    cases hd
    exact ⟨e, he, rfl⟩
  · intro h
    obtain ⟨e, he, rfl⟩ := h
    exact ⟨e, he, rfl⟩

theorem remove_eq_ok_iff {done : Store × Commit} :
    s.remove key = .ok done ↔ ∃ e, s.elements.find? key = some e ∧
      done = ({ s with
          elements := s.elements.erase key
          revision := s.revision + 1
          cachedSchema := none },
        ⟨.remove, s.revision + 1, [⟨.schemaRemoved, s.revision + 1, e⟩]⟩) := by
  simp only [remove, bind_eq_ok_iff, element_eq_ok_iff]
  constructor
  · intro h
    obtain ⟨e, he, hd⟩ := h
    cases hd
    exact ⟨e, he, rfl⟩
  · intro h
    obtain ⟨e, he, rfl⟩ := h
    exact ⟨e, he, rfl⟩

/-! ## Whether an update is taken -/

theorem checkUpdate_eq_ok_iff {value : Value} :
    s.checkUpdate key value = .ok () ↔
      ∃ e, s.elements.find? key = some e ∧ e.checkUpdate value = .ok () := by
  simp only [checkUpdate, bind_eq_ok_iff, element_eq_ok_iff]

theorem checkUpdate_of_exposed {e : Element} (h : s.exposed? key = some e) (value : Value) :
    s.checkUpdate key value = e.checkUpdate value := by
  rw [checkUpdate, element_eq_ok_iff.2 (exposed?_eq_some_iff.1 h).1]
  rfl

theorem update_of_checkUpdate {value : Value} (h : s.checkUpdate key value = .ok ()) :
    ∃ done, s.update key value = .ok done := by
  obtain ⟨e, he, hc⟩ := checkUpdate_eq_ok_iff.1 h
  exact ⟨_, update_eq_ok_iff.2 ⟨e, he, hc, rfl⟩⟩

/-! ## Changes as steps -/

/-- A change of a store that goes through, with the store and the commit that
it makes. -/
inductive Step (s : Store) : Store × Commit → Prop
  | add {spec done} : s.add spec = .ok done → Step s done
  | update {key value done} : s.update key value = .ok done → Step s done
  | annotate {key label done} : s.annotate key label = .ok done → Step s done
  | remove {key done} : s.remove key = .ok done → Step s done

section touch

variable (s : Store) (e : Element) (mutation : Mutation) (kinds : List EventKind)

@[simp] theorem touch_elements :
    (s.touch e mutation kinds).1.elements = s.elements.insert e.key e := rfl

@[simp] theorem touch_revision :
    (s.touch e mutation kinds).1.revision = s.revision + 1 := rfl

@[simp] theorem touch_layout : (s.touch e mutation kinds).1.layout = s.layout := rfl

@[simp] theorem touch_policy : (s.touch e mutation kinds).1.policy = s.policy := rfl

@[simp] theorem touch_cachedSchema :
    (s.touch e mutation kinds).1.cachedSchema =
      if kinds.any (·.isSchema) then none else s.cachedSchema := rfl

@[simp] theorem touch_commit_revision :
    (s.touch e mutation kinds).2.revision = s.revision + 1 := rfl

end touch

/-- Every change makes the next revision, leaves the layout and the policy
alone, and says which revision it made. -/
theorem Step.counts {done : Store × Commit} (h : s.Step done) :
    done.1.revision = s.revision + 1 ∧ done.2.revision = s.revision + 1 ∧
      done.1.layout = s.layout ∧ done.1.policy = s.policy := by
  cases h with
  | add h =>
      obtain ⟨-, e, -, rfl⟩ := add_eq_ok_iff.1 h
      exact ⟨rfl, rfl, rfl, rfl⟩
  | update h =>
      obtain ⟨e, -, -, rfl⟩ := update_eq_ok_iff.1 h
      exact ⟨rfl, rfl, rfl, rfl⟩
  | annotate h =>
      obtain ⟨e, -, rfl⟩ := annotate_eq_ok_iff.1 h
      exact ⟨rfl, rfl, rfl, rfl⟩
  | remove h =>
      obtain ⟨e, -, rfl⟩ := remove_eq_ok_iff.1 h
      exact ⟨rfl, rfl, rfl, rfl⟩

theorem touch_events_revision (s : Store) (e : Element) (mutation : Mutation)
    (kinds : List EventKind) :
    ∀ event ∈ (s.touch e mutation kinds).2.events, event.revision = s.revision + 1 := by
  intro event hevent
  obtain ⟨kind, -, rfl⟩ := List.mem_map.1 hevent
  rfl

/-- Every event of a change bears the revision that the change made. -/
theorem Step.events_revision {done : Store × Commit} (h : s.Step done) :
    ∀ event ∈ done.2.events, event.revision = done.2.revision := by
  cases h with
  | add h =>
      obtain ⟨-, e, -, rfl⟩ := add_eq_ok_iff.1 h
      exact touch_events_revision s _ _ _
  | update h =>
      obtain ⟨e, -, -, rfl⟩ := update_eq_ok_iff.1 h
      exact touch_events_revision s _ _ _
  | annotate h =>
      obtain ⟨e, -, rfl⟩ := annotate_eq_ok_iff.1 h
      exact touch_events_revision s _ _ _
  | remove h =>
      obtain ⟨e, -, rfl⟩ := remove_eq_ok_iff.1 h
      intro event hevent
      cases List.mem_singleton.1 hevent
      rfl

theorem touch_find?_or_stamped {e : Element} {mutation : Mutation} {kinds : List EventKind}
    (stamp : e.lastModified = s.revision + 1) {x : Element}
    (hx : (s.touch e mutation kinds).1.elements.find? key = some x) :
    s.elements.find? key = some x ∨ x.lastModified = s.revision + 1 := by
  rw [touch_elements, KeyMap.find?_insert] at hx
  split at hx
  · cases hx
    exact .inr stamp
  · exact .inl hx

/-- What a change leaves has been there before or bears the stamp of the
change. -/
theorem Step.find?_or_stamped {done : Store × Commit} (h : s.Step done) {e : Element}
    (he : done.1.elements.find? key = some e) :
    s.elements.find? key = some e ∨ e.lastModified = s.revision + 1 := by
  cases h with
  | add h =>
      obtain ⟨-, x, hx, rfl⟩ := add_eq_ok_iff.1 h
      obtain ⟨rfl, -⟩ := Spec.create_eq_ok_iff.1 hx
      exact touch_find?_or_stamped rfl he
  | update h =>
      obtain ⟨x, -, -, rfl⟩ := update_eq_ok_iff.1 h
      exact touch_find?_or_stamped rfl he
  | annotate h =>
      obtain ⟨x, -, rfl⟩ := annotate_eq_ok_iff.1 h
      exact touch_find?_or_stamped rfl he
  | remove h =>
      obtain ⟨x, -, rfl⟩ := remove_eq_ok_iff.1 h
      rw [KeyMap.find?_erase] at he
      split at he
      · cases he
      · exact .inl he

end Store

end SharedState
