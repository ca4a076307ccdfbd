import SharedState.Proofs.Store.Sound

/-!
# What the documents of a store carry

The schema of a sound store lists exactly the exposed keys, and a document
carries exactly those of them whose elements are wanted. The store goes over
its elements in the order of their keys to collect them; most of the statements
here are about single keys and do without the order.
-/

namespace SharedState

namespace Store

variable {s : Store}

theorem Sound.exposed?_eq_some_iff (h : s.Sound) {key : String} {e : Element} :
    s.exposed? key = some e ↔ e ∈ s.elements.values ∧ e.exposed = true ∧ e.key = key := by
  rw [Store.exposed?_eq_some_iff, KeyMap.mem_values_iff]
  constructor
  · intro hx
    obtain ⟨he, hex⟩ := hx
    exact ⟨⟨key, he⟩, hex, h.keyed he⟩
  · intro hx
    obtain ⟨⟨key', he⟩, hex, rfl⟩ := hx
    rw [h.keyed he]
    exact ⟨he, hex⟩

theorem Sound.schema_find? (h : s.Sound) (key : String) :
    s.schema.find? key = (s.exposed? key).map .describe := by
  rw [h.schema_eq]
  simp only [Schema.find?, Schema.generate, List.find?_map, List.find?_filter]
  congr 1
  cases hf : List.find? _ s.elements.values with
  | some e =>
      have hp : e.exposed = true ∧ e.key = key := by
        have hp := List.find?_some hf
        have hp := of_decide_eq_true hp
        have hkey : decide ((SchemaEntry.describe e).key = key) = true := hp.2
        exact ⟨hp.1, of_decide_eq_true hkey⟩
      exact (h.exposed?_eq_some_iff.2 ⟨List.mem_of_find?_eq_some hf, hp⟩).symm
  | none =>
      cases hx : s.exposed? key with
      | none => rfl
      | some e =>
          obtain ⟨he, hex, hkey⟩ := h.exposed?_eq_some_iff.1 hx
          have := List.find?_eq_none.1 hf e he
          simp [SchemaEntry.describe, hex, hkey] at this

theorem Sound.mem_schema_iff (h : s.Sound) {entry : SchemaEntry} :
    entry ∈ s.schema.elements ↔
      ∃ e, s.exposed? entry.key = some e ∧ entry = .describe e := by
  rw [h.schema_eq]
  simp only [Schema.generate, List.mem_map, List.mem_filter]
  constructor
  · intro hmem
    obtain ⟨e, ⟨he, hex⟩, rfl⟩ := hmem
    exact ⟨e, h.exposed?_eq_some_iff.2 ⟨he, hex, rfl⟩, rfl⟩
  · intro hmem
    obtain ⟨e, hx, rfl⟩ := hmem
    obtain ⟨he, hex, -⟩ := h.exposed?_eq_some_iff.1 hx
    exact ⟨e, ⟨he, hex⟩, rfl⟩

theorem Sound.mem_schema_keys (h : s.Sound) {key : String} :
    key ∈ s.schema.elements.map (·.key) ↔ (s.exposed? key).isSome := by
  rw [List.mem_map, Option.isSome_iff_exists]
  constructor
  · rintro ⟨entry, hentry, rfl⟩
    obtain ⟨e, hx, -⟩ := h.mem_schema_iff.1 hentry
    exact ⟨e, hx⟩
  · rintro ⟨e, hx⟩
    obtain ⟨-, -, rfl⟩ := h.exposed?_eq_some_iff.1 hx
    exact ⟨.describe e, h.mem_schema_iff.2 ⟨e, hx, rfl⟩, rfl⟩

/-- A document carries the wanted elements among the exposed ones, each with
its value. -/
theorem Sound.mem_state_iff (h : s.Sound) {wanted : Element → Bool} {entry : Entry} :
    entry ∈ (s.documentOf wanted).state ↔
      ∃ e, s.exposed? entry.key = some e ∧ wanted e = true ∧ entry.value = e.value.toWire := by
  simp only [documentOf, List.mem_map, List.mem_filter, Bool.and_eq_true]
  constructor
  · intro hmem
    obtain ⟨e, ⟨he, hex, hwanted⟩, rfl⟩ := hmem
    exact ⟨e, h.exposed?_eq_some_iff.2 ⟨he, hex, rfl⟩, hwanted, rfl⟩
  · intro hmem
    obtain ⟨e, hx, hwanted, hvalue⟩ := hmem
    obtain ⟨he, hex, hkey⟩ := h.exposed?_eq_some_iff.1 hx
    refine ⟨e, ⟨he, hex, hwanted⟩, ?_⟩
    rw [hkey, ← hvalue]

/-! ## The order of the listings -/

/-- Elements are listed in the order of their own keys. -/
theorem Sound.keys_ordered (h : s.Sound) :
    (s.elements.values.map (·.key)).Pairwise (· < ·) := by
  have hkeys : s.elements.values.map (·.key) = s.elements.keys := by
    rw [KeyMap.values, KeyMap.keys, List.map_map]
    refine List.map_congr_left fun entry hentry => ?_
    exact h.keyed (s.elements.mem_entries_iff.1 hentry)
  rw [hkeys]
  exact List.pairwise_map.2 s.elements.ordered

theorem Sound.generate_ordered (h : s.Sound) :
    ((Schema.generate s.elements.values).elements.map (·.key)).Pairwise (· < ·) := by
  rw [Schema.generate, List.map_map]
  exact h.keys_ordered.sublist (List.filter_sublist.map Element.key)

end Store

end SharedState
