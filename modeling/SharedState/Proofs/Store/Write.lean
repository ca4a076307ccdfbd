import SharedState.Proofs.Store.Sound

/-!
# Writes

The four calls that change one element each have in common that they look at
nothing but the element with their key and change nothing but that element and
the revision. What they make of it, `Write.effect`, does not depend on the
revision either, stamps aside: neither whether the call is refused, nor why,
nor what it leaves.

So for a set of keys it does not matter what is written elsewhere. Two stores
that agree on the keys, in all but the stamps, refuse the same writes to them
for the same reasons and agree on them afterwards, and writes to other keys
change nothing about that.
-/

namespace SharedState

/-- A call that changes the element with one key. -/
inductive Write
  | add (spec : Spec)
  | update (key : String) (value : Value)
  | remove (key : String)
  | annotate (key label : String)
deriving DecidableEq

def Write.key : Write → String
  | add spec => spec.key
  | update key _ | remove key | annotate key _ => key

/-- The element without the revision that last touched it. -/
def Element.unstamped (e : Element) : Element := { e with lastModified := 0 }

/-- What a write makes of the element with its key, stamps aside. -/
def Write.effect : Write → Option Element → Except Error (Option Element)
  | add spec, none => (spec.create 0).map some
  | add spec, some _ => .error (.duplicateKey spec.key)
  | update _ value, some e => (e.checkUpdate value).map fun _ => some { e with value }
  | remove _, some _ => .ok none
  | annotate _ label, some e => .ok (some { e with label := some label })
  | update key _, none | remove key, none | annotate key _, none => .error (.unknownKey key)

theorem Spec.create_unstamped (spec : Spec) (revision : Nat) :
    (spec.create revision).map (·.unstamped) = spec.create 0 := by
  simp only [Spec.create]
  cases spec.constraint.validateFor spec.key spec.value.kind with
  | error e => rfl
  | ok _ =>
      cases spec.constraint.checkInitial spec.key spec.value with
      | error e => rfl
      | ok _ => rfl

namespace Store

variable {s t : Store} {a : Write} {key : String} {done : Store × Commit}

def write (s : Store) : Write → Except Error (Store × Commit)
  | .add spec => s.add spec
  | .update key value => s.update key value
  | .remove key => s.remove key
  | .annotate key label => s.annotate key label

/-- The store after a write, which one that is refused leaves as it was. -/
def attempt (s : Store) (a : Write) : Store :=
  match s.write a with
  | .ok done => done.1
  | .error _ => s

/-- The element with a key, stamp aside. -/
def content? (s : Store) (key : String) : Option Element :=
  (s.elements.find? key).map (·.unstamped)

theorem step_of_write (hd : s.write a = .ok done) : s.Step done := by
  cases a with
  | add spec => exact .add hd
  | update key value => exact .update hd
  | remove key => exact .remove hd
  | annotate key label => exact .annotate hd

theorem Sound.attempt (h : s.Sound) (a : Write) : (s.attempt a).Sound := by
  unfold Store.attempt
  split
  · next hd => exact h.step (step_of_write hd)
  · exact h

/-! ## One key -/

theorem touch_content? (s : Store) (e : Element) (mutation : Mutation)
    (kinds : List EventKind) (key : String) :
    (s.touch e mutation kinds).1.content? key =
      if key = e.key then some e.unstamped else s.content? key := by
  rw [content?, content?, touch_elements, KeyMap.find?_insert]
  split <;> rfl

theorem content?_add (s : Store) (spec : Spec) :
    (s.add spec).map (fun done => done.1.content? spec.key) =
      (Write.add spec).effect (s.content? spec.key) := by
  unfold add KeyMap.contains content?
  cases s.elements.find? spec.key with
  | some e => rfl
  | none =>
      rw [Option.map_none, Write.effect, ← spec.create_unstamped (s.revision + 1)]
      cases hc : spec.create (s.revision + 1) with
      | error e => rfl
      | ok e =>
          have hkey : spec.key = e.key := by rw [(Spec.create_eq_ok_iff.1 hc).1]
          have htouch := s.touch_content? e .add [.schemaAdded, .elementChanged] spec.key
          rw [if_pos hkey] at htouch
          exact congrArg Except.ok htouch

theorem content?_update (h : s.Sound) (key : String) (value : Value) :
    (s.update key value).map (fun done => done.1.content? key) =
      (Write.update key value).effect (s.content? key) := by
  cases hf : s.elements.find? key with
  | none => simp only [update, element, content?, hf]; rfl
  | some e =>
      have hsame : e.unstamped.checkUpdate value = e.checkUpdate value := rfl
      simp only [content?, hf, Option.map_some, Write.effect, hsame]
      simp only [update, element, hf]
      cases hc : e.checkUpdate value with
      | error _ => simp only [bind, Except.bind, hc]; rfl
      | ok _ =>
          simp only [bind, Except.bind, hc]
          have htouch := s.touch_content?
            { e with value, lastModified := s.revision + 1 } .update [.elementChanged] key
          rw [if_pos (h.keyed hf).symm] at htouch
          exact congrArg Except.ok htouch

theorem content?_remove (s : Store) (key : String) :
    (s.remove key).map (fun done => done.1.content? key) =
      (Write.remove key).effect (s.content? key) := by
  cases hf : s.elements.find? key with
  | none => simp only [remove, element, content?, hf]; rfl
  | some e =>
      have herase : ((s.elements.erase key).find? key).map (·.unstamped) = none := by
        rw [KeyMap.find?_erase, if_pos rfl, Option.map_none]
      simp only [remove, element, content?, hf]
      exact congrArg Except.ok herase

theorem content?_annotate (h : s.Sound) (key label : String) :
    (s.annotate key label).map (fun done => done.1.content? key) =
      (Write.annotate key label).effect (s.content? key) := by
  cases hf : s.elements.find? key with
  | none => simp only [annotate, element, content?, hf]; rfl
  | some e =>
      have htouch := s.touch_content?
        { e with label := some label, lastModified := s.revision + 1 } .annotate
        [.schemaModified] key
      rw [if_pos (h.keyed hf).symm] at htouch
      simp only [annotate, element, content?, hf]
      exact congrArg Except.ok htouch

/-- A write does to the element with its key what `Write.effect` says. -/
theorem Sound.write_content? (h : s.Sound) (a : Write) :
    (s.write a).map (fun done => done.1.content? a.key) = a.effect (s.content? a.key) := by
  cases a with
  | add spec => exact content?_add s spec
  | update key value => exact content?_update h key value
  | remove key => exact content?_remove s key
  | annotate key label => exact content?_annotate h key label

/-- A write does nothing to elements with other keys. -/
theorem Sound.write_content?_of_ne (h : s.Sound) (hd : s.write a = .ok done)
    (hne : key ≠ a.key) : done.1.content? key = s.content? key := by
  cases a with
  | add spec =>
      obtain ⟨-, e, he, rfl⟩ := add_eq_ok_iff.1 hd
      rw [(Spec.create_eq_ok_iff.1 he).1, touch_content?]
      exact if_neg hne
  | update key' value =>
      obtain ⟨e, he, -, rfl⟩ := update_eq_ok_iff.1 hd
      rw [← h.keyed he] at hne
      rw [touch_content?]
      exact if_neg hne
  | annotate key' label =>
      obtain ⟨e, he, rfl⟩ := annotate_eq_ok_iff.1 hd
      rw [← h.keyed he] at hne
      rw [touch_content?]
      exact if_neg hne
  | remove key' =>
      obtain ⟨e, -, rfl⟩ := remove_eq_ok_iff.1 hd
      rw [content?, KeyMap.find?_erase]
      exact congrArg (Option.map Element.unstamped) (if_neg hne)

theorem Sound.attempt_content?_of_ne (h : s.Sound) (hne : key ≠ a.key) :
    (s.attempt a).content? key = s.content? key := by
  unfold Store.attempt
  split
  · next hd => exact h.write_content?_of_ne hd hne
  · rfl

/-! ## Some keys -/

/-- The stores hold the same under some keys, stamps aside. -/
def AgreesUnder (owned : String → Prop) (s t : Store) : Prop :=
  ∀ key, owned key → s.content? key = t.content? key

variable {owned : String → Prop}

/-- Writing to another key is not noticed. -/
theorem AgreesUnder.attempt_other (h : s.AgreesUnder owned t) (hs : s.Sound) (ha : ¬ owned a.key) :
    (s.attempt a).AgreesUnder owned t := by
  intro key hkey
  have hne : key ≠ a.key := fun heq => ha (heq ▸ hkey)
  rw [hs.attempt_content?_of_ne hne]
  exact h key hkey

/-- A write to a key on which stores agree is refused in both for the same reason, or it
goes through in both and they agree again. -/
theorem AgreesUnder.write_cases (h : s.AgreesUnder owned t) (hs : s.Sound) (ht : t.Sound)
    (ha : owned a.key) :
    (∃ e, s.write a = .error e ∧ t.write a = .error e) ∨
      ∃ done done', s.write a = .ok done ∧ t.write a = .ok done' ∧
        done.1.content? a.key = done'.1.content? a.key := by
  have hs' := hs.write_content? a
  have ht' := ht.write_content? a
  rw [h a.key ha, ← ht'] at hs'
  cases hd : s.write a with
  | ok done =>
      cases hd' : t.write a with
      | ok done' =>
          rw [hd, hd'] at hs'
          exact .inr ⟨done, done', rfl, rfl, Except.ok.inj hs'⟩
      | error e => rw [hd, hd'] at hs'; cases hs'
  | error e =>
      cases hd' : t.write a with
      | ok done' => rw [hd, hd'] at hs'; cases hs'
      | error e' =>
          rw [hd, hd'] at hs'
          cases hs'
          exact .inl ⟨e, rfl, rfl⟩

theorem AgreesUnder.result_eq (h : s.AgreesUnder owned t) (hs : s.Sound) (ht : t.Sound)
    (ha : owned a.key) :
    ((s.write a).map (·.2.revision)).map (fun _ => ()) =
      ((t.write a).map (·.2.revision)).map (fun _ => ()) := by
  obtain ⟨e, hd, hd'⟩ | ⟨done, done', hd, hd', -⟩ := h.write_cases hs ht ha
  · rw [hd, hd']
  · rw [hd, hd']
    rfl

theorem AgreesUnder.attempt (h : s.AgreesUnder owned t) (hs : s.Sound) (ht : t.Sound)
    (ha : owned a.key) : (s.attempt a).AgreesUnder owned (t.attempt a) := by
  intro key hkey
  by_cases heq : key = a.key
  · rw [heq, Store.attempt, Store.attempt]
    obtain ⟨e, hd, hd'⟩ | ⟨done, done', hd, hd', hsame⟩ := h.write_cases hs ht ha
    · rw [hd, hd']
      exact h a.key ha
    · rw [hd, hd']
      exact hsame
  · rw [hs.attempt_content?_of_ne heq, ht.attempt_content?_of_ne heq]
    exact h key hkey

/-! ## Writes one after another -/

/-- The results of writes one after another, and the store after them. -/
def writeAll (s : Store) : List Write → List (Except Error Nat) × Store
  | [] => ([], s)
  | a :: rest =>
    let (results, last) := (s.attempt a).writeAll rest
    ((s.write a).map (·.2.revision) :: results, last)

end Store

end SharedState
