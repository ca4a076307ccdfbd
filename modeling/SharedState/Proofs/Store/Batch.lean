import SharedState.Proofs.Store.Plan

/-!
# A batch of updates

Updates that a store takes can be made one after another without any of them
failing: none of them changes what the next one is checked against, which is
the kind and the constraint of an element and whether there is one. So a batch
that was checked against the store before its first update is made as a whole,
and what it leaves can be said in terms of the store before it: each key holds
the last value that the batch gives for it, and nothing else is touched but
the stamps of those keys and the revision.
-/

namespace SharedState

namespace Store

variable {s : Store} {u : String × Value} {updates : List (String × Value)} {key : String}

/-- The store after an update, or as it was if the update is refused. -/
def updated (s : Store) (u : String × Value) : Store :=
  match s.update u.1 u.2 with
  | .ok done => done.1
  | .error _ => s

/-- The store after updates made one after another. -/
def updateAll (s : Store) (updates : List (String × Value)) : Store :=
  updates.foldl updated s

theorem updated_eq {done : Store × Commit} (hd : s.update u.1 u.2 = .ok done) :
    s.updated u = done.1 := by
  rw [updated, hd]

/-! ## One update -/

theorem Sound.updated (h : s.Sound) (hu : s.checkUpdate u.1 u.2 = .ok ()) :
    (s.updated u).Sound := by
  obtain ⟨done, hd⟩ := update_of_checkUpdate hu
  rw [updated_eq hd]
  exact h.update hd

theorem updated_frame (hu : s.checkUpdate u.1 u.2 = .ok ()) :
    (s.updated u).revision = s.revision + 1 ∧ (s.updated u).layout = s.layout ∧
      (s.updated u).policy = s.policy ∧ (s.updated u).cachedSchema = s.cachedSchema := by
  obtain ⟨done, hd⟩ := update_of_checkUpdate hu
  rw [updated_eq hd]
  obtain ⟨e, -, -, rfl⟩ := update_eq_ok_iff.1 hd
  exact ⟨rfl, rfl, rfl, rfl⟩

theorem Sound.find?_updated (h : s.Sound) (hu : s.checkUpdate u.1 u.2 = .ok ()) (key : String) :
    (s.updated u).elements.find? key =
      if key = u.1 then (s.elements.find? key).map fun e =>
        { e with value := u.2, lastModified := s.revision + 1 }
      else s.elements.find? key := by
  obtain ⟨done, hd⟩ := update_of_checkUpdate hu
  rw [updated_eq hd]
  obtain ⟨e, he, -, rfl⟩ := update_eq_ok_iff.1 hd
  have hkey : e.key = u.1 := h.keyed he
  rw [touch_elements, KeyMap.find?_insert]
  by_cases hk : key = u.1
  · rw [if_pos (hk.trans hkey.symm), if_pos hk, hk, he]
    rfl
  · rw [if_neg (hkey ▸ hk), if_neg hk]

/-- The first update of a batch that is taken goes through, and the rest would
go through after it. -/
theorem Sound.first (h : s.Sound) (ht : s.Takes (u :: updates)) :
    ∃ done, s.update u.1 u.2 = .ok done ∧ done.1.Sound ∧ done.1.Takes updates := by
  obtain ⟨done, hd⟩ := update_of_checkUpdate (ht u List.mem_cons_self)
  refine ⟨done, hd, h.update hd, ?_⟩
  intro v hv
  exact (h.checkUpdate_update hd).2 (ht v (List.mem_cons_of_mem u hv))

theorem Takes.updated (h : s.Sound) (ht : s.Takes (u :: updates)) :
    (s.updated u).Takes updates := by
  obtain ⟨done, hd, -, hrest⟩ := h.first ht
  rw [updated_eq hd]
  exact hrest

theorem Sound.generate_updated (h : s.Sound) (hu : s.checkUpdate u.1 u.2 = .ok ()) :
    Schema.generate (s.updated u).elements.values = Schema.generate s.elements.values := by
  obtain ⟨done, hd⟩ := update_of_checkUpdate hu
  rw [updated_eq hd]
  obtain ⟨e, he, hc, rfl⟩ := update_eq_ok_iff.1 hd
  have hkind : u.2.kind = e.value.kind := (Element.checkUpdate_eq_ok_iff.1 hc).1.symm
  exact Schema.generate_insert ((h.keyed he).symm ▸ he) (Schema.listing?_update hkind _)

theorem Sound.update_keepSchema (h : s.Sound) {value : Value} {done : Store × Commit}
    (hd : s.update key value = .ok done) :
    s.keepSchema.update key value = .ok (done.1.keepSchema, done.2) := by
  have hu : s.checkUpdate key value = .ok () := by
    obtain ⟨e, he, hc, -⟩ := update_eq_ok_iff.1 hd
    exact checkUpdate_eq_ok_iff.2 ⟨e, he, hc⟩
  have hschema : done.1.schema = s.schema := by
    have hg := h.generate_updated (u := (key, value)) hu
    rw [updated_eq hd] at hg
    rw [(h.update hd).schema_eq, h.schema_eq, hg]
  obtain ⟨e, he, hc, rfl⟩ := update_eq_ok_iff.1 hd
  refine update_eq_ok_iff.2 ⟨e, he, hc, ?_⟩
  rw [Store.keepSchema, hschema]
  rfl

/-! ## All updates -/

theorem Sound.updateAll (h : s.Sound) (ht : s.Takes updates) : (s.updateAll updates).Sound := by
  induction updates generalizing s with
  | nil => exact h
  | cons u rest ih =>
      exact ih (h.updated (ht u List.mem_cons_self)) (ht.updated h)

theorem updateAll_frame (h : s.Sound) (ht : s.Takes updates) :
    (s.updateAll updates).revision = s.revision + updates.length ∧
      (s.updateAll updates).layout = s.layout ∧ (s.updateAll updates).policy = s.policy ∧
      (s.updateAll updates).cachedSchema = s.cachedSchema := by
  induction updates generalizing s with
  | nil => exact ⟨rfl, rfl, rfl, rfl⟩
  | cons u rest ih =>
      have hu := ht u List.mem_cons_self
      obtain ⟨hr, hl, hp, hc⟩ := updated_frame hu
      obtain ⟨hr', hl', hp', hc'⟩ := ih (h.updated hu) (ht.updated h)
      refine ⟨?_, hl'.trans hl, hp'.trans hp, hc'.trans hc⟩
      show ((s.updated u).updateAll rest).revision = _
      rw [hr', hr, List.length_cons]
      omega

theorem find?_updateAll_of_not_mem (h : s.Sound) (ht : s.Takes updates)
    (hkey : key ∉ updates.map (·.1)) :
    (s.updateAll updates).elements.find? key = s.elements.find? key := by
  induction updates generalizing s with
  | nil => rfl
  | cons u rest ih =>
      have hu := ht u List.mem_cons_self
      rw [List.map_cons, List.mem_cons, not_or] at hkey
      obtain ⟨hne, hrest⟩ := hkey
      have hfirst := h.find?_updated hu key
      rw [if_neg hne] at hfirst
      exact (ih (h.updated hu) (ht.updated h) hrest).trans hfirst

theorem not_mem_of_lookup_reverse (h : updates.reverse.lookup key = none) :
    key ∉ updates.map (·.1) := by
  intro hmem
  obtain ⟨u, hu, rfl⟩ := List.mem_map.1 hmem
  exact bne_iff_ne.1 (List.lookup_eq_none_iff.1 h u (List.mem_reverse.2 hu)) rfl

/-- The last value that a batch gives for a key is the one that stays, and
nothing else about the element changes but its stamp. -/
theorem find?_updateAll (h : s.Sound) (ht : s.Takes updates) {value : Value}
    (hv : updates.reverse.lookup key = some value) :
    ∃ e stamp, s.elements.find? key = some e ∧
      (s.updateAll updates).elements.find? key =
        some { e with value, lastModified := stamp } := by
  induction updates generalizing s with
  | nil => cases hv
  | cons u rest ih =>
      have hu := ht u List.mem_cons_self
      have hs := h.updated hu
      have hrest := ht.updated h
      have hfirst := h.find?_updated hu key
      rw [List.reverse_cons, List.lookup_append] at hv
      cases hl : rest.reverse.lookup key with
      | some value' =>
          rw [hl] at hv
          cases hv
          obtain ⟨e, stamp, he, hafter⟩ := ih hs hrest hl
          rw [he] at hfirst
          by_cases hk : key = u.1
          · rw [if_pos hk, eq_comm, Option.map_eq_some_iff] at hfirst
            obtain ⟨e', he', rfl⟩ := hfirst
            exact ⟨e', stamp, he', hafter⟩
          · rw [if_neg hk] at hfirst
            exact ⟨e, stamp, hfirst.symm, hafter⟩
      | none =>
          rw [hl, Option.none_or, KeyMap.lookup_cons_eq] at hv
          split at hv
          · next hk =>
              cases hv
              have hlast : key ∉ rest.map (·.1) := not_mem_of_lookup_reverse hl
              obtain ⟨done, hd⟩ := update_of_checkUpdate hu
              obtain ⟨e, he, -, -⟩ := update_eq_ok_iff.1 hd
              rw [← hk] at he
              rw [if_pos hk, he] at hfirst
              exact ⟨e, _, he, (find?_updateAll_of_not_mem hs hrest hlast).trans hfirst⟩
          · cases hv

end Store

end SharedState
