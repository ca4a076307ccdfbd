/-!
# Maps with ordered keys

A finite map from texts, kept as the list of its entries in ascending order of the keys; texts are
ordered by their code points, which is also the order of their bytes. The order is part of the type,
so two maps with the same entries are equal, and every listing of a map is sorted.

The laws say what each operation does to `find?`, and by `ext_find?` that determines the map.
-/

namespace SharedState

/-- A finite map from texts. -/
structure KeyMap (α : Type) where
  entries : List (String × α)
  ordered : entries.Pairwise (·.1 < ·.1)
deriving DecidableEq

namespace KeyMap

variable {α : Type}

def empty : KeyMap α := ⟨[], .nil⟩

def find? (m : KeyMap α) (key : String) : Option α :=
  m.entries.lookup key

def contains (m : KeyMap α) (key : String) : Bool :=
  (m.find? key).isSome

/-- The keys in ascending order. -/
def keys (m : KeyMap α) : List String := m.entries.map (·.1)

/-- The values in the order of their keys. -/
def values (m : KeyMap α) : List α := m.entries.map (·.2)

def size (m : KeyMap α) : Nat := m.entries.length

/-- Entries with one more, in its place; it replaces one with the same key. -/
def insertEntry (key : String) (value : α) : List (String × α) → List (String × α)
  | [] => [(key, value)]
  | (k, v) :: rest =>
    if key < k then (key, value) :: (k, v) :: rest
    else if key = k then (key, value) :: rest
    else (k, v) :: insertEntry key value rest

theorem mem_insertEntry {key : String} {value : α} {entry : String × α} {l : List (String × α)}
    (h : entry ∈ insertEntry key value l) : entry = (key, value) ∨ entry ∈ l := by
  fun_induction insertEntry key value l <;> grind

theorem lt_of_not_lt_of_ne {a b : String} (h : ¬ a < b) (hne : a ≠ b) : b < a := by
  rcases String.le_total a b with hab | hba
  · exact absurd (String.le_antisymm hab (String.not_lt.1 h)) hne
  · exact String.not_le.1 fun hle => hne (String.le_antisymm hle hba)

theorem pairwise_insertEntry {key : String} {value : α} {l : List (String × α)}
    (h : l.Pairwise (·.1 < ·.1)) : (insertEntry key value l).Pairwise (·.1 < ·.1) := by
  induction l with
  | nil => simp [insertEntry]
  | cons head rest ih =>
    obtain ⟨k, v⟩ := head
    obtain ⟨hk, hrest⟩ := List.pairwise_cons.1 h
    unfold insertEntry
    split
    · next hlt =>
      refine List.pairwise_cons.2 ⟨fun e he => ?_, h⟩
      rcases List.mem_cons.1 he with rfl | he
      · exact hlt
      · exact String.lt_trans hlt (hk e he)
    · split
      · next heq => exact List.pairwise_cons.2 ⟨fun e he => heq ▸ hk e he, hrest⟩
      · next hlt hne =>
        refine List.pairwise_cons.2 ⟨fun e he => ?_, ih hrest⟩
        rcases mem_insertEntry he with rfl | he
        · exact lt_of_not_lt_of_ne hlt hne
        · exact hk e he

def insert (m : KeyMap α) (key : String) (value : α) : KeyMap α :=
  ⟨insertEntry key value m.entries, pairwise_insertEntry m.ordered⟩

def erase (m : KeyMap α) (key : String) : KeyMap α :=
  ⟨m.entries.filter (·.1 ≠ key), m.ordered.filter _⟩

/-! ## Laws -/

theorem ne_of_ordered {key : String} {value : α} {l : List (String × α)}
    (h : ((key, value) :: l).Pairwise (·.1 < ·.1)) {entry : String × α} (he : entry ∈ l) :
    entry.1 ≠ key :=
  fun heq => String.lt_irrefl key (heq ▸ (List.pairwise_cons.1 h).1 entry he)

@[simp] theorem find?_empty (key : String) : (empty : KeyMap α).find? key = none := rfl

theorem lookup_cons_eq (key other : String) (value : α) (rest : List (String × α)) :
    List.lookup other ((key, value) :: rest) =
      if other = key then some value else rest.lookup other := by
  by_cases h : other = key
  · simp [h]
  · rw [List.lookup_cons, if_neg h, beq_false_of_ne h]

theorem lookup_insertEntry (key other : String) (value : α) (l : List (String × α)) :
    (insertEntry key value l).lookup other =
      if other = key then some value else l.lookup other := by
  fun_induction insertEntry key value l with
  | case1 => exact lookup_cons_eq ..
  | case2 k v rest hlt => rw [lookup_cons_eq]
  | case3 v rest hlt => simp only [lookup_cons_eq]; split <;> simp_all
  | case4 k v rest hlt hne ih =>
    simp only [lookup_cons_eq, ih]
    split
    · next h => rw [if_neg (h ▸ Ne.symm hne)]
    · rfl

theorem find?_insert (m : KeyMap α) (key other : String) (value : α) :
    (m.insert key value).find? other = if other = key then some value else m.find? other :=
  lookup_insertEntry key other value m.entries

@[simp] theorem find?_insert_self (m : KeyMap α) (key : String) (value : α) :
    (m.insert key value).find? key = some value := by
  simp [find?_insert]

theorem find?_insert_of_ne (m : KeyMap α) {key other : String} (value : α) (h : other ≠ key) :
    (m.insert key value).find? other = m.find? other := by
  simp [find?_insert, h]

theorem find?_erase (m : KeyMap α) (key other : String) :
    (m.erase key).find? other = if other = key then none else m.find? other := by
  show List.lookup other (m.entries.filter (·.1 ≠ key)) = _
  unfold find?
  induction m.entries with
  | nil => simp
  | cons head rest ih =>
    obtain ⟨k, v⟩ := head
    by_cases hk : k = key
    · subst hk
      rw [List.filter_cons_of_neg (by simp), ih, lookup_cons_eq]
      split <;> simp_all
    · rw [List.filter_cons_of_pos (by simpa using hk), lookup_cons_eq, lookup_cons_eq, ih]
      split <;> simp_all

/-- The entries are the pairs of a key and its value. -/
theorem mem_entries_iff (m : KeyMap α) {key : String} {value : α} :
    (key, value) ∈ m.entries ↔ m.find? key = some value := by
  obtain ⟨l, h⟩ := m
  unfold find?
  simp only
  induction l with
  | nil => simp
  | cons head rest ih =>
    obtain ⟨k, v⟩ := head
    by_cases hk : key = k
    · subst hk
      rw [lookup_cons_eq, if_pos rfl, List.mem_cons, Option.some.injEq, Prod.mk.injEq]
      constructor
      · rintro (⟨-, rfl⟩ | hm)
        · rfl
        · exact absurd rfl (ne_of_ordered h hm)
      · exact fun h => .inl ⟨rfl, h.symm⟩
    · rw [lookup_cons_eq, if_neg hk, List.mem_cons, ← ih (List.pairwise_cons.1 h).2]
      simp [hk]

theorem mem_values_iff (m : KeyMap α) {value : α} :
    value ∈ m.values ↔ ∃ key, m.find? key = some value := by
  simp only [values, List.mem_map, ← mem_entries_iff]
  exact ⟨fun ⟨entry, he, hv⟩ => ⟨entry.1, hv ▸ he⟩, fun ⟨key, h⟩ => ⟨(key, value), h, rfl⟩⟩

theorem filterMap_insertEntry {β : Type} {key : String} {old value : α} {l : List (String × α)}
    (f : α → Option β) (ordered : l.Pairwise (·.1 < ·.1)) (h : l.lookup key = some old)
    (hf : f value = f old) :
    (insertEntry key value l).filterMap (fun e => f e.2) = l.filterMap fun e => f e.2 := by
  induction l with
  | nil => cases h
  | cons head rest ih =>
    obtain ⟨k, v⟩ := head
    obtain ⟨hk, hrest⟩ := List.pairwise_cons.1 ordered
    rw [lookup_cons_eq] at h
    unfold insertEntry
    split
    · next hlt =>
      have hne : key ≠ k := fun heq => String.lt_irrefl k (heq ▸ hlt)
      rw [if_neg hne] at h
      have hmem : (key, old) ∈ rest := (⟨rest, hrest⟩ : KeyMap α).mem_entries_iff.2 h
      exact absurd (hk _ hmem) (String.lt_asymm hlt)
    · split
      · next heq =>
        rw [if_pos heq, Option.some.injEq] at h
        simp only [List.filterMap_cons, hf, h]
      · next hne =>
        rw [if_neg hne] at h
        simp only [List.filterMap_cons, ih hrest h]

/-- Replacing a value by one that a function cannot tell from it changes nothing that the function
sees of the values. -/
theorem filterMap_values_insert {β : Type} (m : KeyMap α) {key : String} {old value : α}
    (f : α → Option β) (h : m.find? key = some old) (hf : f value = f old) :
    (m.insert key value).values.filterMap f = m.values.filterMap f := by
  simp only [values, List.filterMap_map]
  exact filterMap_insertEntry f m.ordered h hf

/-- A map is determined by the values at its keys. -/
theorem ext_find? {m n : KeyMap α} (h : ∀ key, m.find? key = n.find? key) : m = n := by
  obtain ⟨l, hl⟩ := m
  obtain ⟨r, hr⟩ := n
  have hmem : ∀ entry, entry ∈ l ↔ entry ∈ r := fun (k, v) => by
    rw [(⟨l, hl⟩ : KeyMap α).mem_entries_iff, (⟨r, hr⟩ : KeyMap α).mem_entries_iff, h]
  suffices l = r by subst this; rfl
  clear h
  induction l generalizing r with
  | nil =>
    cases r with
    | nil => rfl
    | cons head rest => exact absurd ((hmem head).2 List.mem_cons_self) List.not_mem_nil
  | cons head rest ih =>
    cases r with
    | nil => exact absurd ((hmem head).1 List.mem_cons_self) List.not_mem_nil
    | cons head' rest' =>
      obtain ⟨hlt, hrest⟩ := List.pairwise_cons.1 hl
      obtain ⟨hlt', hrest'⟩ := List.pairwise_cons.1 hr
      have hhead : head = head' := by
        rcases List.mem_cons.1 ((hmem head).1 List.mem_cons_self) with h | h
        · exact h
        · rcases List.mem_cons.1 ((hmem head').2 List.mem_cons_self) with h' | h'
          · exact h'.symm
          · exact absurd (hlt _ h') (String.lt_asymm (hlt' _ h))
      subst hhead
      congr 1
      refine ih hrest rest' hrest' fun entry => ⟨fun he => ?_, fun he => ?_⟩
      · rcases List.mem_cons.1 ((hmem entry).1 (List.mem_cons_of_mem _ he)) with rfl | h
        · exact absurd (hlt _ he) (String.lt_irrefl _)
        · exact h
      · rcases List.mem_cons.1 ((hmem entry).2 (List.mem_cons_of_mem _ he)) with rfl | h
        · exact absurd (hlt' _ he) (String.lt_irrefl _)
        · exact h

end KeyMap

end SharedState
