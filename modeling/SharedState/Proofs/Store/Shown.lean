import SharedState.Proofs.Store.Batch

/-!
# What the events of a change show

A change tells of one element, by events that carry it as the change leaves
it, or as it was before if the change takes it away. So nothing is lost in the
events: whoever has the elements from before and does with each event what it
says, has the elements from after. That is `Step.replay`, and the same of a
batch of updates is `Sound.replay_batch`, where every update is shown as it
leaves its element and not as the batch does.
-/

namespace SharedState

namespace KeyMap

variable {α : Type}

theorem insert_insert (m : KeyMap α) (key : String) (value value' : α) :
    (m.insert key value).insert key value' = m.insert key value' := by
  apply ext_find?
  intro other
  rw [find?_insert, find?_insert, find?_insert]
  split <;> rfl

end KeyMap

namespace Event

/-- What an event says without its snapshot. -/
def heading (event : Event) : EventKind × String × Nat :=
  (event.kind, event.element.key, event.revision)

/-- What a follower makes of an event. -/
def replay (elements : KeyMap Element) (event : Event) : KeyMap Element :=
  match event.kind with
  | .schemaRemoved => elements.erase event.element.key
  | _ => elements.insert event.element.key event.element

end Event

namespace Store

variable {s : Store} {u : String × Value} {updates : List (String × Value)} {key : String}
  {done : Store × Commit}

/-- The events of the given kinds that show an element as it is in a store. -/
def shown (s : Store) (key : String) (revision : Nat) (kinds : List EventKind) : List Event :=
  kinds.filterMap fun kind => (s.elements.find? key).map fun e => ⟨kind, revision, e⟩

/-- The events of updates made one after another, each showing the element as
that update leaves it. -/
def batchEvents (s : Store) : List (String × Value) → List Event
  | [] => []
  | u :: rest =>
    (s.updated u).shown u.1 (s.updated u).revision [.elementChanged] ++
      (s.updated u).batchEvents rest

/-- The events are of the given kinds, and show an element that is there. -/
def Shows (s : Store) (key : String) (revision : Nat) (kinds : List EventKind)
    (events : List Event) : Prop :=
  ∃ e, s.elements.find? key = some e ∧ e.key = key ∧
    events = kinds.map fun kind => ⟨kind, revision, e⟩

section shows

variable {revision : Nat} {kinds : List EventKind} {events : List Event}

theorem Shows.eq_shown (h : s.Shows key revision kinds events) :
    events = s.shown key revision kinds := by
  obtain ⟨e, he, -, rfl⟩ := h
  rw [shown, he]
  simp only [Option.map_some, List.filterMap_eq_map']

theorem Shows.headings (h : s.Shows key revision kinds events) :
    events.map Event.heading = kinds.map fun kind => (kind, key, revision) := by
  obtain ⟨e, -, rfl, rfl⟩ := h
  rw [List.map_map]
  rfl

theorem touch_shows (e : Element) (mutation : Mutation) (kinds : List EventKind) :
    (s.touch e mutation kinds).1.Shows e.key (s.revision + 1) kinds
      (s.touch e mutation kinds).2.events :=
  ⟨e, KeyMap.find?_insert_self _ _ _, rfl, rfl⟩

end shows

/-! ## The four changes -/

theorem add_shows {spec : Spec} (hd : s.add spec = .ok done) :
    done.1.Shows spec.key done.2.revision [.schemaAdded, .elementChanged] done.2.events := by
  obtain ⟨-, e, he, rfl⟩ := add_eq_ok_iff.1 hd
  obtain ⟨rfl, -⟩ := Spec.create_eq_ok_iff.1 he
  exact touch_shows _ _ _

theorem Sound.update_shows (h : s.Sound) {value : Value} (hd : s.update key value = .ok done) :
    done.1.Shows key done.2.revision [.elementChanged] done.2.events := by
  obtain ⟨e, he, -, rfl⟩ := update_eq_ok_iff.1 hd
  obtain rfl := h.keyed he
  exact touch_shows _ _ _

theorem Sound.annotate_shows (h : s.Sound) {label : String}
    (hd : s.annotate key label = .ok done) :
    done.1.Shows key done.2.revision [.schemaModified] done.2.events := by
  obtain ⟨e, he, rfl⟩ := annotate_eq_ok_iff.1 hd
  obtain rfl := h.keyed he
  exact touch_shows _ _ _

theorem Sound.remove_shows (h : s.Sound) (hd : s.remove key = .ok done) :
    s.Shows key done.2.revision [.schemaRemoved] done.2.events := by
  obtain ⟨e, he, rfl⟩ := remove_eq_ok_iff.1 hd
  exact ⟨e, he, h.keyed he, rfl⟩

/-- Doing what the events of a change say is making the change. -/
theorem Step.replay (h : s.Step done) (hs : s.Sound) :
    done.2.events.foldl Event.replay s.elements = done.1.elements := by
  cases h with
  | add hd =>
      obtain ⟨-, e, -, rfl⟩ := add_eq_ok_iff.1 hd
      exact KeyMap.insert_insert s.elements e.key e e
  | update hd =>
      obtain ⟨e, -, -, rfl⟩ := update_eq_ok_iff.1 hd
      rfl
  | annotate hd =>
      obtain ⟨e, -, rfl⟩ := annotate_eq_ok_iff.1 hd
      rfl
  | remove hd =>
      obtain ⟨e, he, rfl⟩ := remove_eq_ok_iff.1 hd
      obtain rfl := hs.keyed he
      rfl

/-! ## A batch -/

theorem Sound.batchEvents_cons (h : s.Sound) (hd : s.update u.1 u.2 = .ok done) :
    s.batchEvents (u :: updates) = done.2.events ++ done.1.batchEvents updates := by
  obtain ⟨hrev, hcommit, -, -⟩ := (Step.update hd).counts
  rw [batchEvents, updated_eq hd, hrev, ← hcommit, ← (h.update_shows hd).eq_shown]

theorem Sound.replay_batch (h : s.Sound) (ht : s.Takes updates) :
    (s.batchEvents updates).foldl Event.replay s.elements = (s.updateAll updates).elements := by
  induction updates generalizing s with
  | nil => rfl
  | cons u rest ih =>
      obtain ⟨done, hd, hs', ht'⟩ := h.first ht
      rw [h.batchEvents_cons hd, List.foldl_append, (Step.update hd).replay h, ih hs' ht',
        ← updated_eq hd]
      rfl

theorem Sound.headings_batch (h : s.Sound) (ht : s.Takes updates) :
    (s.batchEvents updates).map Event.heading =
      ((updates.map (·.1)).zip (List.range' (s.revision + 1) updates.length)).map
        fun (key, revision) => (.elementChanged, key, revision) := by
  induction updates generalizing s with
  | nil => rfl
  | cons u rest ih =>
      obtain ⟨done, hd, hs', ht'⟩ := h.first ht
      obtain ⟨hrev, hcommit, -, -⟩ := (Step.update hd).counts
      rw [h.batchEvents_cons hd, List.map_append, (h.update_shows hd).headings, ih hs' ht', hrev,
        hcommit]
      rfl

end Store

end SharedState
