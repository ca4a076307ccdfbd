import Mathlib.Data.List.Perm.Subperm
import SharedState.Proofs.Store.Document

/-!
# How much a delta carries

The entries of a delta stand in the order of the schema, and a later revision
to start from only takes entries away. There is room for one entry for each
revision that was made since: every entry is owed to a stamp beyond the starting
point, no stamp is beyond the revision of the store, and no two elements bear
the same.
-/

namespace SharedState

namespace Store

variable {s : Store} {since since' : Nat}

theorem documentOf_keys (s : Store) (wanted : Element → Bool) :
    (s.documentOf wanted).keys =
      (s.elements.values.filter fun e => e.exposed && wanted e).map (·.key) := by
  rw [Document.keys, documentOf, List.map_map]
  rfl

/-- The keys of a document are keys of its schema, in the same order. -/
theorem Sound.documentOf_keys_sublist (h : s.Sound) (wanted : Element → Bool) :
    (s.documentOf wanted).keys.Sublist (s.schema.elements.map (·.key)) := by
  have hschema : s.schema.elements.map (·.key) =
      (s.elements.values.filter (·.exposed)).map (·.key) := by
    rw [h.schema_eq, Schema.generate, List.map_map]
    rfl
  rw [documentOf_keys, hschema]
  refine List.Sublist.map _ (List.monotone_filter_right _ fun e he => ?_)
  exact (Bool.and_eq_true_iff.1 he).1

theorem documentOf_state_sublist {wanted wanted' : Element → Bool}
    (h : ∀ e, wanted e = true → wanted' e = true) :
    (s.documentOf wanted).state.Sublist (s.documentOf wanted').state := by
  refine List.Sublist.map _ (List.monotone_filter_right _ fun e he => ?_)
  obtain ⟨hexposed, hwanted⟩ := Bool.and_eq_true_iff.1 he
  exact Bool.and_eq_true_iff.2 ⟨hexposed, h e hwanted⟩

theorem deltaDocument_state_sublist (s : Store) (h : since ≤ since') :
    (s.deltaDocument since').state.Sublist (s.deltaDocument since).state := by
  refine documentOf_state_sublist fun e hnew => ?_
  rw [decide_eq_true_eq] at hnew ⊢
  exact Nat.lt_of_le_of_lt h hnew

/-- Nothing is stamped with revision zero. -/
theorem Sound.deltaDocument_zero (h : s.Sound) :
    (s.deltaDocument 0).state = s.fullDocument.state := by
  have hwanted : (s.elements.values.filter fun e => e.exposed && decide (0 < e.lastModified)) =
      s.elements.values.filter fun e => e.exposed && true := by
    refine List.filter_congr fun e he => ?_
    obtain ⟨key, hkey⟩ := s.elements.mem_values_iff.1 he
    have hstamp : 0 < e.lastModified := (h.stamped hkey).1
    rw [decide_eq_true hstamp]
  exact congrArg (List.map fun e : Element => (⟨e.key, e.value.toWire⟩ : Entry)) hwanted

/-! ## Room for entries -/

theorem Sound.stamps_nodup (h : s.Sound) : (s.elements.values.map (·.lastModified)).Nodup := by
  have hkeys := List.pairwise_map.1 h.keys_ordered
  refine List.pairwise_map.2 (hkeys.imp_of_mem fun {e e'} he he' hlt heq => ?_)
  obtain ⟨key, hkey⟩ := s.elements.mem_values_iff.1 he
  obtain ⟨key', hkey'⟩ := s.elements.mem_values_iff.1 he'
  obtain rfl := h.distinct hkey hkey' heq
  rw [h.keyed hkey, h.keyed hkey'] at hlt
  exact String.lt_irrefl key hlt

theorem Sound.length_deltaDocument_le (h : s.Sound) (since : Nat) :
    (s.deltaDocument since).state.length ≤ s.revision - since := by
  let carried := s.elements.values.filter fun e => e.exposed && decide (since < e.lastModified)
  have hnodup : (carried.map (·.lastModified)).Nodup :=
    h.stamps_nodup.sublist (List.filter_sublist.map _)
  have hrange : carried.map (·.lastModified) ⊆ List.range' (since + 1) (s.revision - since) := by
    intro stamp hstamp
    obtain ⟨e, he, rfl⟩ := List.mem_map.1 hstamp
    obtain ⟨hmem, hwanted⟩ := List.mem_filter.1 he
    have hnew : since < e.lastModified :=
      of_decide_eq_true (Bool.and_eq_true_iff.1 hwanted).2
    obtain ⟨key, hkey⟩ := s.elements.mem_values_iff.1 hmem
    have hmade := (h.stamped hkey).2
    rw [List.mem_range'_1]
    omega
  calc (s.deltaDocument since).state.length
      = (carried.map (·.lastModified)).length := by
        rw [List.length_map]
        exact List.length_map _
    _ ≤ (List.range' (since + 1) (s.revision - since)).length :=
        (List.subperm_of_subset hnodup hrange).length_le
    _ = s.revision - since := List.length_range'

end Store

end SharedState
