import SharedState.Proofs.Store.Change

/-!
# The invariant of a store

What holds of every store that changes have made from an empty one, and is
needed wherever a proof has to know more about a store than the next change
says: an element lies under its own key and satisfies its own constraint, its
stamp is a revision that has been made and that no other element bears, and a
kept schema is the schema of the elements as they are now.

The last part is the one with something in it. An update keeps the copy, so
it must not be able to change anything that a schema shows; that is so because
a schema shows of a value no more than its kind, and an update is refused when
the kinds differ.
-/

namespace SharedState

namespace Schema

/-- The schema entry that an element has, if it is exposed. -/
def listing? (e : Element) : Option SchemaEntry :=
  if e.exposed then some (.describe e) else none

/-- An entry shows of a value no more than its kind. -/
theorem listing?_update {e : Element} {value : Value} (h : value.kind = e.value.kind)
    (stamp : Nat) : listing? { e with value, lastModified := stamp } = listing? e := by
  simp only [listing?, SchemaEntry.describe, Element.kind, h]

theorem generate_elements (elements : List Element) :
    (generate elements).elements = elements.filterMap listing? := by
  simp only [generate]
  induction elements with
  | nil => rfl
  | cons e rest ih =>
      rw [List.filter_cons, List.filterMap_cons]
      by_cases he : e.exposed = true
      · rw [if_pos he, listing?, if_pos he, List.map_cons, ih]
      · rw [if_neg he, listing?, if_neg he, ih]

/-- A schema does not change when an element is replaced by one that has the
same entry. -/
theorem generate_insert {elements : KeyMap Element} {key : String} {old e : Element}
    (h : elements.find? key = some old) (he : listing? e = listing? old) :
    generate (elements.insert key e).values = generate elements.values := by
  have hm := KeyMap.filterMap_values_insert elements listing? h he
  rw [← generate_elements, ← generate_elements] at hm
  cases hg : generate (elements.insert key e).values
  cases hg' : generate elements.values
  rw [hg, hg'] at hm
  exact congrArg Schema.mk hm

end Schema

namespace Store

/-- The invariant of a store. -/
structure Sound (s : Store) : Prop where
  keyed : ∀ {key e}, s.elements.find? key = some e → e.key = key
  wellFormed : ∀ {key e}, s.elements.find? key = some e → e.WellFormed
  stamped : ∀ {key e}, s.elements.find? key = some e →
    1 ≤ e.lastModified ∧ e.lastModified ≤ s.revision
  distinct : ∀ {key key' e e'}, s.elements.find? key = some e →
    s.elements.find? key' = some e' → e.lastModified = e'.lastModified → key = key'
  current : ∀ {schema}, s.cachedSchema = some schema → schema = .generate s.elements.values

variable {s : Store}

theorem sound_empty (policy : Policy) : Sound { policy } where
  keyed h := nomatch h
  wellFormed h := nomatch h
  stamped h := nomatch h
  distinct h := nomatch h
  current h := nomatch h

theorem Sound.schema_eq (h : s.Sound) : s.schema = .generate s.elements.values := by
  unfold schema
  cases hc : s.cachedSchema with
  | none => rfl
  | some schema => exact h.current hc

theorem Sound.keepSchema (h : s.Sound) : s.keepSchema.Sound where
  keyed := h.keyed
  wellFormed := h.wellFormed
  stamped := h.stamped
  distinct := h.distinct
  current hc := by cases hc; exact h.schema_eq

theorem Sound.setLayout (h : s.Sound) (layout : Json) : (s.setLayout layout).Sound :=
  ⟨h.keyed, h.wellFormed, h.stamped, h.distinct, h.current⟩

theorem Sound.touch (h : s.Sound) {e : Element} {mutation : Mutation} {kinds : List EventKind}
    (stamp : e.lastModified = s.revision + 1) (hw : e.WellFormed)
    (hcopy : kinds.any (·.isSchema) = true ∨
      ∃ old, s.elements.find? e.key = some old ∧ Schema.listing? e = Schema.listing? old) :
    (s.touch e mutation kinds).1.Sound where
  keyed {key x} hx := by
    rw [touch_elements, KeyMap.find?_insert] at hx
    split at hx
    · next heq => cases hx; exact heq.symm
    · exact h.keyed hx
  wellFormed {key x} hx := by
    rw [touch_elements, KeyMap.find?_insert] at hx
    split at hx
    · cases hx; exact hw
    · exact h.wellFormed hx
  stamped {key x} hx := by
    rw [touch_elements, KeyMap.find?_insert] at hx
    rw [touch_revision]
    split at hx
    · cases hx; omega
    · have := h.stamped hx; omega
  distinct {key key' x x'} hx hx' heq := by
    rw [touch_elements, KeyMap.find?_insert] at hx hx'
    by_cases hk : key = e.key <;> by_cases hk' : key' = e.key
    · exact hk.trans hk'.symm
    · rw [if_pos hk] at hx
      rw [if_neg hk'] at hx'
      cases hx
      have := h.stamped hx'
      omega
    · rw [if_neg hk] at hx
      rw [if_pos hk'] at hx'
      cases hx'
      have := h.stamped hx
      omega
    · rw [if_neg hk] at hx
      rw [if_neg hk'] at hx'
      exact h.distinct hx hx' heq
  current {schema} hc := by
    rw [touch_cachedSchema] at hc
    rw [touch_elements]
    split at hc
    · cases hc
    · next hkinds =>
      obtain ⟨old, ho, hentry⟩ := hcopy.resolve_left hkinds
      rw [Schema.generate_insert ho hentry]
      exact h.current hc

theorem Sound.add (h : s.Sound) {spec : Spec} {done : Store × Commit}
    (hd : s.add spec = .ok done) : done.1.Sound := by
  obtain ⟨-, e, he, rfl⟩ := add_eq_ok_iff.1 hd
  obtain ⟨rfl, hw⟩ := Spec.create_eq_ok_iff.1 he
  exact h.touch rfl hw (.inl rfl)

theorem Sound.update (h : s.Sound) {key : String} {value : Value} {done : Store × Commit}
    (hd : s.update key value = .ok done) : done.1.Sound := by
  obtain ⟨e, he, hc, rfl⟩ := update_eq_ok_iff.1 hd
  obtain ⟨hkind, ha⟩ := Element.checkUpdate_eq_ok_iff.1 hc
  have hkind' : value.kind = e.value.kind := hkind.symm
  have hw : Element.WellFormed { e with value, lastModified := s.revision + 1 } := by
    refine ⟨?_, ha⟩
    show e.constraint.validateFor e.key value.kind = .ok ()
    rw [hkind']
    exact (h.wellFormed he).valid
  exact h.touch rfl hw (.inr ⟨e, (h.keyed he).symm ▸ he, Schema.listing?_update hkind' _⟩)

theorem Sound.annotate (h : s.Sound) {key label : String} {done : Store × Commit}
    (hd : s.annotate key label = .ok done) : done.1.Sound := by
  obtain ⟨e, he, rfl⟩ := annotate_eq_ok_iff.1 hd
  exact h.touch rfl ⟨(h.wellFormed he).valid, (h.wellFormed he).admitted⟩ (.inl rfl)

theorem Sound.remove (h : s.Sound) {key : String} {done : Store × Commit}
    (hd : s.remove key = .ok done) : done.1.Sound := by
  obtain ⟨e, -, rfl⟩ := remove_eq_ok_iff.1 hd
  have hkept : ∀ {k x}, (s.elements.erase key).find? k = some x →
      s.elements.find? k = some x := by
    intro k x hx
    rw [KeyMap.find?_erase] at hx
    split at hx
    · cases hx
    · exact hx
  exact {
    keyed := fun hx => h.keyed (hkept hx)
    wellFormed := fun hx => h.wellFormed (hkept hx)
    stamped := fun hx => (h.stamped (hkept hx)).imp_right Nat.le_succ_of_le
    distinct := fun hx hx' => h.distinct (hkept hx) (hkept hx')
    current := fun hc => nomatch hc }

/-- An update changes nothing about which updates are accepted, be it of the
same element or of another. -/
theorem Sound.checkUpdate_update (h : s.Sound) {key key' : String} {value value' : Value}
    {done : Store × Commit} (hd : s.update key value = .ok done) :
    done.1.checkUpdate key' value' = .ok () ↔ s.checkUpdate key' value' = .ok () := by
  obtain ⟨e, he, hc, rfl⟩ := update_eq_ok_iff.1 hd
  obtain rfl := h.keyed he
  have hsame : Element.checkUpdate { e with value, lastModified := s.revision + 1 } value' =
      e.checkUpdate value' :=
    Element.checkUpdate_congr rfl (Element.checkUpdate_eq_ok_iff.1 hc).1.symm rfl
  simp only [checkUpdate_eq_ok_iff, touch_elements, KeyMap.find?_insert]
  by_cases hk : key' = e.key
  · subst hk
    rw [if_pos rfl, he]
    simp only [Option.some.injEq, exists_eq_left', hsame]
  · rw [if_neg hk]

theorem Sound.step (h : s.Sound) {done : Store × Commit} (hs : s.Step done) :
    done.1.Sound := by
  cases hs with
  | add hd => exact h.add hd
  | update hd => exact h.update hd
  | annotate hd => exact h.annotate hd
  | remove hd => exact h.remove hd

end Store

end SharedState
