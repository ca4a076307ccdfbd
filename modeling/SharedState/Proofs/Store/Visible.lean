import SharedState.Proofs.Store.Batch

/-!
# What a store shows

A store shows a remote client its exposed elements, its revision and its
layout, and how it takes documents depends on its policy besides. Two stores
that agree on these are visibly equal, whatever else they hold, and everything
that a client can ask of a store comes out the same for both: the schema, the
documents, and whether, why and with which updates a document is taken. The
updates leave visibly equal stores behind, and they leave the hidden elements
of each store as they are.

Listings go over all elements in the order of their keys, so it has to be shown
that leaving elements out does not change the order of the others; that is
what `KeyMap.filter` is for.
-/

namespace SharedState

namespace KeyMap

variable {α : Type}

/-- The map at the keys whose values are kept. -/
def filter (m : KeyMap α) (keep : α → Bool) : KeyMap α :=
  ⟨m.entries.filter (keep ·.2), m.ordered.filter _⟩

theorem find?_filter (m : KeyMap α) (keep : α → Bool) (key : String) :
    (m.filter keep).find? key = (m.find? key).filter keep := by
  ext value
  rw [← mem_entries_iff, Option.filter_eq_some_iff, ← mem_entries_iff]
  exact List.mem_filter

theorem values_filter (m : KeyMap α) (keep : α → Bool) :
    (m.filter keep).values = m.values.filter keep := by
  rw [values, values, List.filter_map]
  rfl

/-- Maps that keep the same values keep them in the same order. -/
theorem filter_values_congr {m m' : KeyMap α} {keep : α → Bool}
    (h : ∀ key, (m.find? key).filter keep = (m'.find? key).filter keep) :
    m.values.filter keep = m'.values.filter keep := by
  have hsame : m.filter keep = m'.filter keep := by
    apply ext_find?
    intro key
    rw [find?_filter, find?_filter, h]
  rw [← values_filter, ← values_filter, hsame]

end KeyMap

namespace Store

variable {s t : Store} {key : String} {u : String × Value} {updates : List (String × Value)}

/-- The element with a key, if it is hidden. -/
def hidden? (s : Store) (key : String) : Option Element :=
  (s.elements.find? key).filter (!·.exposed)

/-- The store without its hidden elements. -/
def withoutHidden (s : Store) : Store :=
  { s with elements := s.elements.filter (·.exposed) }

/-- The stores have in common all that a remote client can see. -/
structure VisiblyEqual (s t : Store) : Prop where
  policy : s.policy = t.policy
  revision : s.revision = t.revision
  layout : s.layout = t.layout
  exposed : ∀ key, s.exposed? key = t.exposed? key

namespace VisiblyEqual

theorem exposed_eq (h : s.VisiblyEqual t) : s.exposed? = t.exposed? := funext h.exposed

/-- What is looked up of a store is determined by what it lists. -/
theorem of_values (hs : s.Sound) (ht : t.Sound) (hp : s.policy = t.policy)
    (hr : s.revision = t.revision) (hl : s.layout = t.layout)
    (he : s.elements.values.filter (·.exposed) = t.elements.values.filter (·.exposed)) :
    s.VisiblyEqual t where
  policy := hp
  revision := hr
  layout := hl
  exposed key := by
    ext e
    have hmem : e ∈ s.elements.values.filter (·.exposed) ↔
        e ∈ t.elements.values.filter (·.exposed) := by rw [he]
    rw [List.mem_filter, List.mem_filter] at hmem
    rw [hs.exposed?_eq_some_iff, ht.exposed?_eq_some_iff, ← and_assoc, ← and_assoc, hmem]

/-- Nothing but what a client sees decides whether stores are visibly equal. -/
theorem congr {s' t' : Store} (h : s.VisiblyEqual t) (hs : s.VisiblyEqual s')
    (ht : t.VisiblyEqual t') : s'.VisiblyEqual t' where
  policy := hs.policy.symm.trans (h.policy.trans ht.policy)
  revision := hs.revision.symm.trans (h.revision.trans ht.revision)
  layout := hs.layout.symm.trans (h.layout.trans ht.layout)
  exposed key := (hs.exposed key).symm.trans ((h.exposed key).trans (ht.exposed key))

theorem of_elements (hp : s.policy = t.policy) (hr : s.revision = t.revision)
    (hl : s.layout = t.layout) (he : s.elements = t.elements) : s.VisiblyEqual t :=
  ⟨hp, hr, hl, fun key => by rw [exposed?, exposed?, he]⟩

theorem keepSchema (s : Store) : s.VisiblyEqual s.keepSchema :=
  of_elements rfl rfl rfl rfl

theorem afterPlanning (s : Store) (doc : Document) : s.VisiblyEqual (s.afterPlanning doc) := by
  rcases s.afterPlanning_eq_or doc with heq | heq
  · rw [heq]
    exact of_elements rfl rfl rfl rfl
  · rw [heq]
    exact keepSchema s

theorem withoutHidden (s : Store) : s.VisiblyEqual s.withoutHidden where
  policy := rfl
  revision := rfl
  layout := rfl
  exposed key := by
    rw [exposed?, exposed?, Store.withoutHidden, KeyMap.find?_filter, Option.filter_filter]
    simp only [Bool.and_self]

/-! ## What a client is shown -/

theorem values_eq (h : s.VisiblyEqual t) :
    s.elements.values.filter (·.exposed) = t.elements.values.filter (·.exposed) :=
  KeyMap.filter_values_congr h.exposed

theorem schema_eq (h : s.VisiblyEqual t) (hs : s.Sound) (ht : t.Sound) :
    s.schema = t.schema := by
  rw [hs.schema_eq, ht.schema_eq, Schema.generate, Schema.generate, h.values_eq]

theorem documentOf_eq (h : s.VisiblyEqual t) (hs : s.Sound) (ht : t.Sound)
    (wanted : Element → Bool) : s.documentOf wanted = t.documentOf wanted := by
  have hshown : ∀ store : Store,
      (store.elements.values.filter fun e => e.exposed && wanted e) =
        (store.elements.values.filter (·.exposed)).filter wanted := by
    intro store
    rw [List.filter_filter]
    exact List.filter_congr fun e _ => Bool.and_comm ..
  rw [documentOf, documentOf, hshown, hshown, h.values_eq, h.revision, h.layout,
    h.schema_eq hs ht]

theorem planEntry_eq (h : s.VisiblyEqual t) : s.planEntry = t.planEntry := by
  funext entry
  rw [planEntry, planEntry, h.policy]
  cases hx : s.exposed? entry.key with
  | none =>
      rw [h.exposed] at hx
      rw [hx]
  | some e =>
      have hx' := hx
      rw [h.exposed] at hx'
      simp only [hx', checkUpdate_of_exposed hx, checkUpdate_of_exposed hx']

theorem planEntries_eq (h : s.VisiblyEqual t) (entries : List Entry) :
    s.planEntries entries = t.planEntries entries := by
  induction entries with
  | nil => rfl
  | cons entry rest ih => rw [planEntries, planEntries, h.planEntry_eq, ih]

theorem plan_eq (h : s.VisiblyEqual t) (hs : s.Sound) (ht : t.Sound) (doc : Document) :
    s.plan doc = t.plan doc := by
  rw [plan, plan, h.schema_eq hs ht, h.planEntries_eq]

theorem updatesFor_eq (h : s.VisiblyEqual t) : s.updatesFor = t.updatesFor := by
  have hvalue : s.valueFor? = t.valueFor? := by
    funext entry
    rw [valueFor?, valueFor?, h.exposed]
  funext entries
  rw [updatesFor, updatesFor, hvalue]

theorem reportFor_eq (h : s.VisiblyEqual t) (doc : Document) :
    s.reportFor doc = t.reportFor doc := by
  rw [reportFor, reportFor, h.updatesFor_eq, passedOver, passedOver, h.exposed_eq, h.revision]

end VisiblyEqual

theorem Sound.withoutHidden (h : s.Sound) : s.withoutHidden.Sound := by
  have hkept : ∀ {key e}, s.withoutHidden.elements.find? key = some e →
      s.elements.find? key = some e := by
    intro key e he
    rw [Store.withoutHidden, KeyMap.find?_filter, Option.filter_eq_some_iff] at he
    exact he.1
  exact {
    keyed := fun he => h.keyed (hkept he)
    wellFormed := fun he => h.wellFormed (hkept he)
    stamped := fun he => h.stamped (hkept he)
    distinct := fun he he' => h.distinct (hkept he) (hkept he')
    current := fun hc => by
      rw [h.current hc, Schema.generate, Schema.generate,
        (VisiblyEqual.withoutHidden s).values_eq] }

/-! ## What a client changes -/

theorem Sound.exposed?_updated (h : s.Sound) (hu : s.checkUpdate u.1 u.2 = .ok ())
    (key : String) :
    (s.updated u).exposed? key = if key = u.1 then (s.exposed? key).map fun e =>
        { e with value := u.2, lastModified := s.revision + 1 }
      else s.exposed? key := by
  rw [exposed?, h.find?_updated hu, exposed?]
  split
  · cases s.elements.find? key with
    | none => rfl
    | some e =>
        rw [Option.map_some, Option.filter_some, Option.filter_some]
        split <;> rfl
  · rfl

theorem VisiblyEqual.updated (h : s.VisiblyEqual t) (hs : s.Sound) (ht : t.Sound)
    (hu : s.checkUpdate u.1 u.2 = .ok ()) (hu' : t.checkUpdate u.1 u.2 = .ok ()) :
    (s.updated u).VisiblyEqual (t.updated u) := by
  obtain ⟨hrev, hlayout, hpolicy, -⟩ := updated_frame hu
  obtain ⟨hrev', hlayout', hpolicy', -⟩ := updated_frame hu'
  refine ⟨?_, ?_, ?_, ?_⟩
  · rw [hpolicy, hpolicy', h.policy]
  · rw [hrev, hrev', h.revision]
  · rw [hlayout, hlayout', h.layout]
  · intro key
    rw [hs.exposed?_updated hu, ht.exposed?_updated hu', h.exposed, h.revision]

theorem VisiblyEqual.updateAll (h : s.VisiblyEqual t) (hs : s.Sound) (ht : t.Sound)
    (hu : s.Takes updates) (hu' : t.Takes updates) :
    (s.updateAll updates).VisiblyEqual (t.updateAll updates) := by
  induction updates generalizing s t with
  | nil => exact h
  | cons u rest ih =>
      have hfirst := hu u List.mem_cons_self
      have hfirst' := hu' u List.mem_cons_self
      exact ih (h.updated hs ht hfirst hfirst') (hs.updated hfirst) (ht.updated hfirst')
        (hu.updated hs) (hu'.updated ht)

theorem Sound.hidden?_updated (h : s.Sound) (hu : s.checkUpdate u.1 u.2 = .ok ())
    (hx : (s.exposed? u.1).isSome = true) (key : String) :
    (s.updated u).hidden? key = s.hidden? key := by
  rw [hidden?, hidden?, h.find?_updated hu]
  split
  · next hk =>
    obtain ⟨e, hx⟩ := Option.isSome_iff_exists.1 hx
    obtain ⟨he, hex⟩ := Store.exposed?_eq_some_iff.1 hx
    rw [hk, he, Option.map_some, Option.filter_some, Option.filter_some, hex]
    rfl
  · rfl

/-- Updates of exposed elements leave the hidden ones alone. -/
theorem Sound.hidden?_updateAll (h : s.Sound) (ht : s.Takes updates)
    (hx : ∀ u ∈ updates, (s.exposed? u.1).isSome = true) (key : String) :
    (s.updateAll updates).hidden? key = s.hidden? key := by
  induction updates generalizing s with
  | nil => rfl
  | cons u rest ih =>
      have hu := ht u List.mem_cons_self
      have hx' : ∀ v ∈ rest, ((s.updated u).exposed? v.1).isSome = true := by
        intro v hv
        rw [h.exposed?_updated hu]
        split
        · rw [Option.isSome_map]
          exact hx v (List.mem_cons_of_mem u hv)
        · exact hx v (List.mem_cons_of_mem u hv)
      rw [← h.hidden?_updated hu (hx u List.mem_cons_self)]
      exact ih (h.updated hu) (ht.updated h) hx'

theorem exposed?_of_mem_updatesFor {entries : List Entry} (hu : u ∈ s.updatesFor entries) :
    (s.exposed? u.1).isSome = true := by
  obtain ⟨entry, -, hu⟩ := List.mem_filterMap.1 hu
  obtain ⟨value, hv, rfl⟩ := Option.map_eq_some_iff.1 hu
  rw [valueFor?] at hv
  obtain ⟨e, hx, -⟩ := Option.bind_eq_some_iff.1 hv
  exact Option.isSome_iff_exists.2 ⟨e, hx⟩

end Store

end SharedState
