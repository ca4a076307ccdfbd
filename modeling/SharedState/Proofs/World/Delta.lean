import SharedState.Proofs.Store.Delta
import SharedState.Proofs.Text.ByteOrder
import SharedState.Proofs.World.Accounting
import SharedState.Proofs.World.Convergence
import SharedState.Proofs.World.Elements

/-!
# A delta carries what was changed

A store picks the entries of a delta by the stamps of its elements, and what a
reader wants of it is in terms of the answers that the model has given: the
exposed keys whose latest change returned a revision beyond the one asked for.
Removals start a key afresh, a batch counts for each of its entries, and
annotations count as changes. `history_elements` says the same of stamps, so
here the two are put together, with the orders and sizes of the sections.
-/

namespace SharedState

variable {n : Nat}

/-- What the document of the changes after a revision is, by the answers that
led to the store. Keys are in the order of their bytes. -/
structure CarriesChanges (log : List (Exchange n)) (s : Store) (since : Nat) (doc : Document) :
    Prop where
  revision : doc.revision = (log.map Exchange.commits).sum
  entries : ∀ entry, entry ∈ doc.state ↔
    ∃ e, s.exposed? entry.key = some e ∧ entry.value = e.value.toWire ∧
      ∃ changed, Exchange.lastStamp? log entry.key = some changed ∧ since < changed
  ordered : doc.keys.Pairwise fun a b => a.toUTF8.toList < b.toUTF8.toList
  schema : ∃ schema, doc.schema = some schema ∧
    (∀ key, key ∈ schema.elements.map (·.key) ↔ (s.exposed? key).isSome) ∧
    (schema.elements.map (·.key)).Pairwise (fun a b => a.toUTF8.toList < b.toUTF8.toList) ∧
    doc.keys.Sublist (schema.elements.map (·.key))
  empty : doc.revision ≤ since → doc.state = []
  few : doc.state.length ≤ doc.revision - since

namespace World

variable {m : Fin n} {w w' : World n} {log : List (Exchange n)}

theorem pairwise_bytes {keys : List String} (h : keys.Pairwise (· < ·)) :
    keys.Pairwise fun a b => a.toUTF8.toList < b.toUTF8.toList :=
  h.imp Text.toUTF8_lt_iff.2

/-- The stamps of exposed elements are what the answers tell of their keys. -/
theorem lastStamp?_of_exposed {policy : Policy} (hnew : w[m] = Model.empty policy)
    (h : History m w log w') {key : String} {e : Element}
    (hx : w'[m].store.exposed? key = some e) :
    Exchange.lastStamp? log key = some e.lastModified := by
  have hnone : w[m].store.stamp? key = none := by
    rw [hnew]
    rfl
  rw [← h.stamp? (new_sound hnew) hnone, Store.stamp?, (Store.exposed?_eq_some_iff.1 hx).1]
  rfl

theorem carriesChanges {policy : Policy} (hnew : w[m] = Model.empty policy)
    (h : History m w log w') (since : Nat) :
    CarriesChanges log w'[m].store since (w'[m].store.deltaDocument since) := by
  have hs : w'[m].store.Sound := h.sound (new_sound hnew)
  have hschema : (w'[m].store.schema.elements.map (·.key)).Pairwise (· < ·) := by
    rw [hs.schema_eq]
    exact hs.generate_ordered
  have hkeys := hs.documentOf_keys_sublist fun e => decide (since < e.lastModified)
  have hfew := hs.length_deltaDocument_le since
  refine ⟨(history_accounts hnew h).1, fun entry => ?_, pairwise_bytes (hschema.sublist hkeys),
    ⟨_, rfl, fun key => hs.mem_schema_keys, pairwise_bytes hschema, hkeys⟩, fun hle => ?_, hfew⟩
  · rw [Observer.mem_deltaDocument_state hs]
    constructor
    · rintro ⟨e, hx, hnewer, hvalue⟩
      exact ⟨e, hx, hvalue, e.lastModified, lastStamp?_of_exposed hnew h hx, hnewer⟩
    · rintro ⟨e, hx, hvalue, changed, hchanged, hnewer⟩
      rw [lastStamp?_of_exposed hnew h hx] at hchanged
      cases hchanged
      exact ⟨e, hx, hnewer, hvalue⟩
  · have hle : w'[m].store.revision ≤ since := hle
    refine List.eq_nil_of_length_eq_zero ?_
    omega

/-- After any history of a new model, the delta since a revision carries exactly the exposed keys
whose latest addition, update or annotation since they were last removed returned a later one, and
their values as they are now. It is the delta that the model answers with, it begins with the whole
document, and the later it begins the more of its entries are left out. -/
theorem delta_carries_changes {policy : Policy} (hnew : w[m] = Model.empty policy)
    (h : History m w log w') :
    let s := w'[m].store
    (∀ since, CarriesChanges log s since (s.deltaDocument since)) ∧
      (s.deltaDocument 0).state = s.fullDocument.state ∧
      (∀ since since', since ≤ since' →
        (s.deltaDocument since').state.Sublist (s.deltaDocument since).state) ∧
      (m ∉ w'.dispatching → ∀ depth,
        (perform (depth + 1) w' (m, .full)).2 = .ok (.document s.fullDocument) ∧
          ∀ since, (perform (depth + 1) w' (m, .delta since)).2 =
            .ok (.document (s.deltaDocument since))) := by
  intro s
  have hs : s.Sound := h.sound (new_sound hnew)
  refine ⟨carriesChanges hnew h, hs.deltaDocument_zero,
    fun since since' hle => s.deltaDocument_state_sublist hle, fun hfree depth => ⟨?_, ?_⟩⟩
  · rw [perform, answer_of_free hfree]
    rfl
  · intro since
    rw [perform_delta_of_free depth since hfree]

/-- A run that removes a key and adds it again, hides an element, gives a key two values in one
document, and annotates. -/
def reworked : List (Operation (Listener 1)) :=
  [.add { key := "gain", value := .integer 1 },
   .add { key := "mode", value := .string "a" },
   .add { key := "probe", value := .integer 7, exposed := false },
   .remove "gain",
   .add { key := "gain", value := .boolean true },
   .apply { state := [⟨"mode", .string "b"⟩, ⟨"gain", .bool false⟩, ⟨"mode", .string "c"⟩] },
   .annotate "gain" "Gain",
   .update "probe" (.integer 8)]

theorem delta_carries_changes_reworked :
    let first : World 1 := .start (.replicate 1 .ignore)
    let last := (first.converse 0 reworked).2
    let s := last[(0 : Fin 1)].store
    (s.deltaDocument 7).revision = 10 ∧
      ⟨"mode", .string "c"⟩ ∈ (s.deltaDocument 7).state ∧
      (∀ entry ∈ (s.deltaDocument 8).state, entry.key ≠ "mode") ∧
      (s.deltaDocument 7).state.length ≤ 3 ∧
      (perform 2 last (0, .delta 7)).2 = .ok (.document (s.deltaDocument 7)) := by
  intro first last s
  have hcommits : ((first.converse 0 reworked).1.map Exchange.commits).sum = 10 := by
    with_unfolding_all decide
  have hmode : Exchange.lastStamp? (first.converse 0 reworked).1 "mode" = some 8 := by
    with_unfolding_all decide
  have hexposed : s.exposed? "mode" =
      some ⟨"mode", .string "c", .unconstrained, none, 8, true⟩ := by
    with_unfolding_all decide
  have hfree : (0 : Fin 1) ∉ last.dispatching := free_converse 0 reworked List.not_mem_nil
  have hhist : History 0 first (first.converse 0 reworked).1 last :=
    history_converse 0 first reworked
  clear_value last
  obtain ⟨hcarries, -, -, hanswers⟩ :=
    delta_carries_changes (start_getElem (.replicate 1 .ignore) 0) hhist
  have hten : (s.deltaDocument 7).revision = 10 := (hcarries 7).revision.trans hcommits
  refine ⟨hten, ?_, ?_, ?_, (hanswers hfree 1).2 7⟩
  · exact ((hcarries 7).entries _).2 ⟨_, hexposed, rfl, 8, hmode, by decide⟩
  · intro entry hentry hkey
    obtain ⟨e, -, -, changed, hchanged, hnewer⟩ := ((hcarries 8).entries entry).1 hentry
    rw [hkey, hmode] at hchanged
    cases hchanged
    exact absurd hnewer (by decide)
  · have hfew := (hcarries 7).few
    rw [hten] at hfew
    exact hfew

end World

end SharedState
