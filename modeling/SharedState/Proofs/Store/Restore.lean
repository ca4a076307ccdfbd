import SharedState.Proofs.Store.Batch
import SharedState.Proofs.Value.Wire

/-!
# Documents carry values over

A document that one store makes is accepted by every store that is compatible
with it, the store itself at a later time among them, and what the other store
then holds for the keys of the document are the values that the first one held.

Three things have to fit together. The values are read back as they were
written, because the kinds agree. They are accepted, because the constraints
agree and the first store held no value that its own constraint refuses. And a
key occurs only once in a document, so no later entry undoes an earlier one.
-/

namespace SharedState

namespace Store

/-- What another store must have in common with the one that makes a document
in order to be able to take it. -/
structure Compatible (s t : Store) (doc : Document) : Prop where
  kinds : ∀ {key e e'}, s.exposed? key = some e → t.exposed? key = some e' → e'.kind = e.kind
  constraints : ∀ {entry e e'}, entry ∈ doc.state → s.exposed? entry.key = some e →
    t.exposed? entry.key = some e' → e'.constraint = e.constraint
  known : t.policy = .reject → ∀ entry ∈ doc.state, (t.exposed? entry.key).isSome

variable {s t : Store} {wanted : Element → Bool}

theorem exposed?_congr (he : t.elements = s.elements) (key : String) :
    t.exposed? key = s.exposed? key := by
  rw [exposed?, exposed?, he]

/-- A store is compatible with every store that holds the same elements. -/
theorem Sound.compatible_of_elements (h : s.Sound) (he : t.elements = s.elements) :
    s.Compatible t (s.documentOf wanted) where
  kinds hx hx' := by
    rw [exposed?_congr he, hx] at hx'
    cases hx'
    rfl
  constraints _ hx hx' := by
    rw [exposed?_congr he, hx] at hx'
    cases hx'
    rfl
  known _ entry hentry := by
    obtain ⟨e, hx, -, -⟩ := h.mem_state_iff.1 hentry
    rw [exposed?_congr he, hx]
    rfl

/-- Stores whose elements agree wherever they share a key are compatible, if
the one that takes the document lets unknown keys pass. -/
theorem Sound.compatible (hs : s.Sound) (ht : t.Sound) (hp : t.policy = .ignore)
    (h : ∀ e ∈ s.elements.values, ∀ e' ∈ t.elements.values, e'.key = e.key →
      e'.kind = e.kind ∧ e'.constraint = e.constraint) (doc : Document) :
    s.Compatible t doc where
  kinds hx hx' := by
    obtain ⟨he, -, hkey⟩ := hs.exposed?_eq_some_iff.1 hx
    obtain ⟨he', -, hkey'⟩ := ht.exposed?_eq_some_iff.1 hx'
    exact (h _ he _ he' (hkey'.trans hkey.symm)).1
  constraints _ hx hx' := by
    obtain ⟨he, -, hkey⟩ := hs.exposed?_eq_some_iff.1 hx
    obtain ⟨he', -, hkey'⟩ := ht.exposed?_eq_some_iff.1 hx'
    exact (h _ he _ he' (hkey'.trans hkey.symm)).2
  known hr := by
    rw [hp] at hr
    cases hr

theorem Compatible.valueFor? (hs : s.Sound) (hc : s.Compatible t (s.documentOf wanted))
    {entry : Entry} (hentry : entry ∈ (s.documentOf wanted).state) {e e' : Element}
    (hx : s.exposed? entry.key = some e) (hx' : t.exposed? entry.key = some e') :
    Value.ofWire entry.key e'.kind entry.value = .ok e.value ∧
      e'.constraint.admits e.value = true ∧ t.valueFor? entry = some e.value := by
  obtain ⟨found, hfound, -, hvalue⟩ := hs.mem_state_iff.1 hentry
  rw [hx] at hfound
  cases hfound
  have hread : Value.ofWire entry.key e'.kind entry.value = .ok e.value := by
    rw [hvalue, hc.kinds hx hx']
    exact Value.ofWire_toWire entry.key e.value
  refine ⟨hread, ?_, ?_⟩
  · rw [hc.constraints hentry hx hx']
    exact (hs.wellFormed (exposed?_eq_some_iff.1 hx).1).admitted
  · rw [Store.valueFor?, hx', Option.bind_some, hread]
    rfl

theorem Compatible.not_refuses (hs : s.Sound) (hc : s.Compatible t (s.documentOf wanted)) :
    ¬ t.Refuses (s.documentOf wanted) := by
  rw [not_refuses_iff]
  constructor
  · intro schema hschema entry hentry e' hx'
    cases hschema
    obtain ⟨e, hx, hdescribe⟩ := hs.mem_schema_iff.1 hentry
    rw [hdescribe, hc.kinds hx hx']
    rfl
  · intro entry hentry
    obtain ⟨e, hx, -, -⟩ := hs.mem_state_iff.1 hentry
    unfold Passes
    cases hx' : t.exposed? entry.key with
    | none =>
        cases hp : t.policy with
        | ignore => rfl
        | reject =>
            have hknown := hc.known hp entry hentry
            rw [hx'] at hknown
            cases hknown
    | some e' =>
        obtain ⟨hread, hadmits, -⟩ := hc.valueFor? hs hentry hx hx'
        exact ⟨e.value, hread, hadmits⟩

/-! ## The updates of the document -/

theorem mem_updatesFor {entries : List Entry} {u : String × Value} :
    u ∈ t.updatesFor entries ↔
      ∃ entry ∈ entries, entry.key = u.1 ∧ t.valueFor? entry = some u.2 := by
  simp only [updatesFor, List.mem_filterMap, Option.map_eq_some_iff]
  constructor
  · intro hu
    obtain ⟨entry, hentry, value, hv, rfl⟩ := hu
    exact ⟨entry, hentry, rfl, hv⟩
  · intro hu
    obtain ⟨entry, hentry, hkey, hv⟩ := hu
    refine ⟨entry, hentry, u.2, hv, ?_⟩
    rw [hkey]

theorem lookup_of_agree {l : List (String × Value)} {key : String} {value : Value}
    (hmem : (key, value) ∈ l) (hagree : ∀ u ∈ l, u.1 = key → u.2 = value) :
    l.lookup key = some value := by
  induction l with
  | nil => cases hmem
  | cons u rest ih =>
      rw [KeyMap.lookup_cons_eq]
      split
      · next hk => rw [hagree u List.mem_cons_self hk.symm]
      · next hk =>
          have hne : (key, value) ≠ u := by
            intro heq
            rw [← heq] at hk
            exact hk rfl
          refine ih ((List.mem_cons.1 hmem).resolve_left hne) ?_
          intro v hv
          exact hagree v (List.mem_cons_of_mem u hv)

/-- All that the updates of the document give a key is the value that the
first store holds for it. -/
theorem Compatible.lookup_updatesFor (hs : s.Sound)
    (hc : s.Compatible t (s.documentOf wanted)) {entry : Entry}
    (hentry : entry ∈ (s.documentOf wanted).state) {e e' : Element}
    (hx : s.exposed? entry.key = some e) (hx' : t.exposed? entry.key = some e') :
    (t.updatesFor (s.documentOf wanted).state).reverse.lookup entry.key = some e.value := by
  apply lookup_of_agree
  · rw [List.mem_reverse, mem_updatesFor]
    obtain ⟨-, -, hv⟩ := hc.valueFor? hs hentry hx hx'
    exact ⟨entry, hentry, rfl, hv⟩
  · intro u hu hkey
    rw [List.mem_reverse, mem_updatesFor] at hu
    obtain ⟨other, hother, hkey', hv⟩ := hu
    have hsame : other.key = entry.key := hkey'.trans hkey
    rw [← hsame] at hx hx'
    obtain ⟨-, -, hv'⟩ := hc.valueFor? hs hother hx hx'
    rw [hv'] at hv
    exact (Option.some.inj hv).symm

theorem not_mem_updatesFor {entries : List Entry} {key : String}
    (h : (∀ entry ∈ entries, entry.key ≠ key) ∨ t.exposed? key = none) :
    key ∉ (t.updatesFor entries).map (·.1) := by
  intro hmem
  obtain ⟨u, hu, rfl⟩ := List.mem_map.1 hmem
  obtain ⟨entry, hentry, hkey, hv⟩ := mem_updatesFor.1 hu
  rcases h with hnone | hnone
  · exact hnone entry hentry hkey
  · rw [valueFor?, hkey, hnone] at hv
    cases hv

end Store

end SharedState
