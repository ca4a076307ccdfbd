import SharedState.Proofs.Store.Document

/-!
# Following a store by its deltas

An observer keeps a copy of what a store exposes and brings it up to date with
deltas. There is no log of the changes: a delta carries the elements stamped
after the observer's revision and the schema as it is now, and has to make good
for everything that happened in between, a key removed and added again with
another kind or hidden from view included.

It can, because of what an old stamp means. `Observer.Behind` says it: an
exposed element that was not stamped after the observer's revision is in the
copy as it is now. A change stamps the element it touches with a revision
beyond the observer's, so it cannot break that; this is the invariant between
two deltas, and `Behind.sync` is what a delta then does.
-/

namespace SharedState

/-- Who keeps a copy of the exposed values of a store, as of a revision. -/
structure Observer where
  revision : Nat
  values : KeyMap Json

namespace KeyMap

variable {α : Type}

/-- The map at the keys that are kept. -/
def restrict (m : KeyMap α) (keep : String → Bool) : KeyMap α :=
  ⟨m.entries.filter (keep ·.1), m.ordered.filter _⟩

theorem find?_restrict (m : KeyMap α) (keep : String → Bool) (key : String) :
    (m.restrict keep).find? key = if keep key then m.find? key else none := by
  show List.lookup key (m.entries.filter (keep ·.1)) = _
  unfold find?
  induction m.entries with
  | nil => rw [List.filter_nil, List.lookup_nil, ite_self]
  | cons head rest ih =>
      obtain ⟨k, v⟩ := head
      rw [List.filter_cons, lookup_cons_eq]
      by_cases hk : key = k
      · subst hk
        by_cases hkeep : keep key = true
        · simp only [if_pos hkeep, lookup_cons_eq, if_true]
        · simp only [if_neg hkeep, ih]
      · rw [if_neg hk, ← ih]
        split
        · rw [lookup_cons_eq, if_neg hk]
        · rfl

end KeyMap

namespace Observer

/-- What an observer makes of a document: it drops the keys that the schema
does not list and overwrites those that the document carries. -/
def sync (o : Observer) (doc : Document) : Observer where
  revision := doc.revision
  values := doc.state.foldl (fun values entry => values.insert entry.key entry.value)
    (o.values.restrict fun key => (doc.schema.bind (·.find? key)).isSome)

/-- The copy is what the store exposes. -/
structure Exact (o : Observer) (s : Store) : Prop where
  revision : o.revision = s.revision
  values : ∀ key, o.values.find? key = (s.exposed? key).map (·.value.toWire)

/-- The copy was exact once, and every element whose stamp is not newer is in
it as it is now. -/
structure Behind (o : Observer) (s : Store) : Prop where
  revision : o.revision ≤ s.revision
  held : ∀ {key e}, s.exposed? key = some e → e.lastModified ≤ o.revision →
    o.values.find? key = some e.value.toWire

variable {o : Observer} {s : Store}

theorem Exact.behind (h : o.Exact s) : o.Behind s where
  revision := Nat.le_of_eq h.revision
  held hx _ := by rw [h.values, hx]; rfl

/-- Nothing is stamped with revision zero, so nothing at all is behind. -/
theorem behind_zero (hs : s.Sound) : Behind ⟨0, .empty⟩ s where
  revision := Nat.zero_le _
  held hx hle := by
    have hstamp := (hs.stamped (Store.exposed?_eq_some_iff.1 hx).1).1
    have hzero := Nat.le_zero.1 hle
    omega

/-! ## Between two deltas -/

theorem Behind.step (h : o.Behind s) {done : Store × Commit} (hs : s.Step done) :
    o.Behind done.1 where
  revision := by
    have hle := h.revision
    have hnext := hs.counts.1
    omega
  held {key e} hx hold := by
    obtain ⟨he, hex⟩ := Store.exposed?_eq_some_iff.1 hx
    rcases hs.find?_or_stamped he with hbefore | hstamp
    · exact h.held (Store.exposed?_eq_some_iff.2 ⟨hbefore, hex⟩) hold
    · have hle := h.revision
      omega

theorem Behind.congr (h : o.Behind s) {s' : Store} (he : s'.elements = s.elements)
    (hr : s'.revision = s.revision) : o.Behind s' where
  revision := by rw [hr]; exact h.revision
  held hx hold := by
    rw [Store.exposed?, he] at hx
    exact h.held hx hold

/-! ## A delta -/

theorem find?_foldl_insert (entries : List Entry) (values : KeyMap Json) {key : String}
    {value : Json} (h : ∀ entry ∈ entries, entry.key = key → entry.value = value) :
    (entries.foldl (fun values entry => values.insert entry.key entry.value) values).find? key =
      if entries.any (·.key = key) then some value else values.find? key := by
  induction entries generalizing values with
  | nil => rfl
  | cons entry rest ih =>
      have hrest : ∀ entry ∈ rest, entry.key = key → entry.value = value :=
        fun entry he => h entry (List.mem_cons_of_mem _ he)
      rw [List.foldl_cons, ih _ hrest, KeyMap.find?_insert, List.any_cons]
      by_cases hk : entry.key = key
      · have hvalue := h entry List.mem_cons_self hk
        simp [hk, hvalue]
      · simp [hk, Ne.symm hk]

theorem mem_deltaDocument_state (hs : s.Sound) {since : Nat} {entry : Entry} :
    entry ∈ (s.deltaDocument since).state ↔ ∃ e, s.exposed? entry.key = some e ∧
      since < e.lastModified ∧ entry.value = e.value.toWire := by
  simp only [Store.deltaDocument, hs.mem_state_iff, decide_eq_true_eq]

theorem listed_deltaDocument (hs : s.Sound) (since : Nat) (key : String) :
    ((s.deltaDocument since).schema.bind (·.find? key)).isSome = (s.exposed? key).isSome := by
  show (s.schema.find? key).isSome = _
  rw [hs.schema_find?, Option.isSome_map]

theorem find?_sync_of_not_exposed (hs : s.Sound) {since : Nat} {key : String}
    (hx : s.exposed? key = none) :
    (o.sync (s.deltaDocument since)).values.find? key = none := by
  have hnone : ∀ entry ∈ (s.deltaDocument since).state, entry.key ≠ key := by
    intro entry hentry heq
    obtain ⟨e, hx', -, -⟩ := (mem_deltaDocument_state hs).1 hentry
    rw [heq, hx] at hx'
    cases hx'
  have hany : ¬ (s.deltaDocument since).state.any (·.key = key) = true := by
    intro hany
    obtain ⟨entry, hentry, heq⟩ := List.any_eq_true.1 hany
    exact hnone entry hentry (of_decide_eq_true heq)
  have hvalue : ∀ entry ∈ (s.deltaDocument since).state, entry.key = key →
      entry.value = .null := by
    intro entry hentry heq
    exact absurd heq (hnone entry hentry)
  rw [Observer.sync, find?_foldl_insert _ _ hvalue, if_neg hany, KeyMap.find?_restrict,
    listed_deltaDocument hs, hx]
  rfl

theorem find?_sync_of_exposed (hs : s.Sound) {since : Nat} {key : String} {e : Element}
    (hx : s.exposed? key = some e) :
    (o.sync (s.deltaDocument since)).values.find? key =
      if since < e.lastModified then some e.value.toWire else o.values.find? key := by
  have hvalue : ∀ entry ∈ (s.deltaDocument since).state, entry.key = key →
      entry.value = e.value.toWire := by
    intro entry hentry heq
    obtain ⟨e', hx', -, hvalue⟩ := (mem_deltaDocument_state hs).1 hentry
    rw [heq, hx] at hx'
    cases hx'
    exact hvalue
  have hany : (s.deltaDocument since).state.any (·.key = key) = true ↔
      since < e.lastModified := by
    simp only [List.any_eq_true, decide_eq_true_eq]
    constructor
    · intro hmem
      obtain ⟨entry, hentry, heq⟩ := hmem
      obtain ⟨e', hx', hnew, -⟩ := (mem_deltaDocument_state hs).1 hentry
      rw [heq, hx] at hx'
      cases hx'
      exact hnew
    · intro hnew
      exact ⟨⟨key, e.value.toWire⟩, (mem_deltaDocument_state hs).2 ⟨e, hx, hnew, rfl⟩, rfl⟩
  rw [Observer.sync, find?_foldl_insert _ _ hvalue, KeyMap.find?_restrict,
    listed_deltaDocument hs, hx, Option.isSome_some, if_pos rfl]
  simp only [hany]

/-- An observer that is behind is exact after the delta for its revision. -/
theorem Behind.sync (h : o.Behind s) (hs : s.Sound) :
    (o.sync (s.deltaDocument o.revision)).Exact s where
  revision := rfl
  values key := by
    cases hx : s.exposed? key with
    | none => exact find?_sync_of_not_exposed hs hx
    | some e =>
        rw [find?_sync_of_exposed hs hx]
        split
        · rfl
        · next hold => exact h.held hx (Nat.not_lt.1 hold)

end Observer

end SharedState
