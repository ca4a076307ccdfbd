import SharedState.Proofs.Store.Restore
import SharedState.Proofs.World.History

/-!
# A document restores the values of its model

What `Restore.lean` says of stores, said of models in their worlds: any document
that a model answers with, applied to any model that is compatible with it, in
the same world or in another one, at once or after any history. Replication,
going back to an earlier state and applying a model's own document are three
cases of this.
-/

namespace SharedState

namespace World

variable {n n' : Nat} {m : Fin n} {t : Fin n'} {w : World n} {w' : World n'} {doc : Document}

/-- A document or a schema in the outcome is one of the store. -/
def TellsOf (s : Store) : Outcome → Prop
  | .document doc => ∃ wanted, doc = s.documentOf wanted
  | .schema schema => schema = s.schema
  | _ => True

theorem tellsOf_operate {call : World n → Call n → World n × Reply}
    {op : Operation (Listener n)} {outcome : Outcome}
    (h : (operate call w m op).2 = .ok outcome) : TellsOf w[m].store outcome := by
  cases op with
  | full | delta =>
      cases h
      exact ⟨_, rfl⟩
  | schema =>
      cases h
      rfl
  | add | update | remove | annotate =>
      simp only [operate, replyRevision] at h
      obtain ⟨revision, -, rfl⟩ := map_eq_ok_iff.1 h
      trivial
  | apply given =>
      simp only [operate, applyDocument] at h
      split at h <;> cases h
      trivial
  | submit => cases h
  | look | setLayout | register | unregister =>
      cases h
      trivial

theorem tellsOf_perform {depth : Nat} {op : Operation (Listener n)} {outcome : Outcome}
    (h : (perform depth w (m, op)).2 = .ok outcome) : TellsOf w[m].store outcome := by
  rcases perform_eq_or depth w (m, op) with hp | ⟨below, hp⟩
  · rw [hp] at h
    cases h
  · rw [hp] at h
    exact tellsOf_operate h

/-- The documents that a model answers with are those of its store. -/
theorem document_of_perform {depth : Nat} {op : Operation (Listener n)}
    (h : (perform depth w (m, op)).2 = .ok (.document doc)) :
    ∃ wanted, doc = w[m].store.documentOf wanted :=
  tellsOf_perform h

/-- A document that a model answered with is accepted by every compatible model.
Of the keys that it carries, those that the other model exposes then hold the
values that the first one held when it answered, with nothing else about them
changed but the stamp; the others are reported, and nothing else is touched. -/
theorem apply_restores (hr : Reachable m w) (hr' : Reachable t w')
    (hfree : t ∉ w'.dispatching) {op : Operation (Listener n)} {depth : Nat}
    (hdoc : (perform depth w (m, op)).2 = .ok (.document doc))
    (hc : w[m].store.Compatible w'[t].store doc) (depth' : Nat) :
    let source := w[m].store
    let target := w'[t].store
    let result := perform (depth' + 1) w' (t, .apply doc)
    let after := result.1[t].store
    ∃ report, result.2 = .ok (.report report) ∧
      report.ignored = doc.keys.filter (fun key => (target.exposed? key).isNone) ∧
      (∀ key ∈ doc.keys, ∀ e', target.exposed? key = some e' →
        ∃ e stamp, source.exposed? key = some e ∧
          after.elements.find? key =
            some { e' with value := e.value, lastModified := stamp }) ∧
      (∀ key, key ∉ doc.keys ∨ target.exposed? key = none →
        after.elements.find? key = target.elements.find? key) ∧
      after.layout = target.layout := by
  intro source target result after
  obtain ⟨wanted, rfl⟩ := document_of_perform hdoc
  have hs : source.Sound := hr.sound
  have ht : target.Sound := hr'.sound
  have hcall := perform_respectsMarks (n := n') depth'
  have href : ¬ target.Refuses (source.documentOf wanted) := hc.not_refuses hs
  have htakes := Store.takes_of_not_refuses href
  have hresult : result = applyDocument (perform depth') w' t (source.documentOf wanted) :=
    answer_of_free hfree
  have hafter : after = (target.updateAll
      (target.updatesFor (source.documentOf wanted).state)).afterPlanning
        (source.documentOf wanted) := by
    show result.1[t].store = _
    rw [hresult]
    exact applyDocument_store hcall ht href
  refine ⟨target.reportFor (source.documentOf wanted), ?_, ?_, ?_, ?_, ?_⟩
  · rw [hresult, applyDocument_of_not_refuses hcall ht href]
  · simp only [Store.reportFor, Store.passedOver, Document.keys, List.filter_map]
    rfl
  · intro key hkey e' hx'
    obtain ⟨entry, hentry, rfl⟩ := List.mem_map.1 hkey
    obtain ⟨e, hx, -, -⟩ := hs.mem_state_iff.1 hentry
    have hlookup := hc.lookup_updatesFor hs hentry hx hx'
    obtain ⟨before, stamp, hbefore, hfound⟩ := Store.find?_updateAll ht htakes hlookup
    rw [(Store.exposed?_eq_some_iff.1 hx').1] at hbefore
    cases hbefore
    refine ⟨e, stamp, hx, ?_⟩
    rw [hafter, Store.afterPlanning_elements]
    exact hfound
  · intro key hkey
    rw [hafter, Store.afterPlanning_elements]
    apply Store.find?_updateAll_of_not_mem ht htakes
    apply Store.not_mem_updatesFor
    rcases hkey with hnone | hnone
    · left
      intro entry hentry heq
      exact hnone (List.mem_map.2 ⟨entry, hentry, heq⟩)
    · exact .inr hnone
  · rw [hafter, Store.afterPlanning_layout]
    exact (Store.updateAll_frame ht htakes).2.1

/-- A model with values that are not easy to carry over. -/
def origin : World 1 :=
  alone
    [.add { key := "blob", value := .bytes [0, 255, 7] },
     .add { key := "level", value := .float (.infinite true) },
     .add { key := "tone", value := .integer 1 },
     .add { key := "view", value := .viewer .standard }]

/-- A model with some of the same keys, one of them hidden. -/
def replica : World 1 :=
  alone
    [.add { key := "level", value := .float .zero, label := some "Level" },
     .add { key := "tone", value := .integer 2, exposed := false },
     .add { key := "blob", value := .bytes [] },
     .setLayout (.bool true)]

theorem apply_restores_replica :
    let doc := origin[(0 : Fin 1)].store.fullDocument
    let result := perform 2 replica (0, .apply doc)
    let after := result.1[(0 : Fin 1)].store
    (∃ report, result.2 = .ok (.report report) ∧ report.ignored = ["tone", "view"]) ∧
      (∃ e, after.elements.find? "level" = some e ∧ e.value = .float (.infinite true) ∧
        e.label = some "Level") ∧
      (∃ e, after.elements.find? "blob" = some e ∧ e.value = .bytes [0, 255, 7]) ∧
      after.elements.find? "tone" =
        some ⟨"tone", .integer 2, .unconstrained, none, 2, false⟩ := by
  intro doc result after
  have horigin : Reachable 0 origin := reachable_alone _
  have hreplica : Reachable 0 replica := reachable_alone _
  have hfree : (0 : Fin 1) ∉ origin.dispatching := free_alone _
  have hfree' : (0 : Fin 1) ∉ replica.dispatching := free_alone _
  have hdoc : (perform 2 origin (0, .full)).2 = .ok (.document doc) := by
    rw [perform, answer_of_free hfree]
    rfl
  have hc : origin[(0 : Fin 1)].store.Compatible replica[(0 : Fin 1)].store doc := by
    refine horigin.sound.compatible hreplica.sound ?_ ?_ doc
    · with_unfolding_all decide
    · with_unfolding_all decide
  have hkeys : doc.keys = ["blob", "level", "tone", "view"] := by with_unfolding_all decide
  have hlevel : replica[(0 : Fin 1)].store.exposed? "level" =
      some ⟨"level", .float .zero, .unconstrained, some "Level", 1, true⟩ := by
    with_unfolding_all decide
  have hblob : replica[(0 : Fin 1)].store.exposed? "blob" =
      some ⟨"blob", .bytes [], .unconstrained, none, 3, true⟩ := by with_unfolding_all decide
  have htone : replica[(0 : Fin 1)].store.exposed? "tone" = none := by with_unfolding_all decide
  have hview : replica[(0 : Fin 1)].store.exposed? "view" = none := by with_unfolding_all decide
  have hlevel' : origin[(0 : Fin 1)].store.exposed? "level" =
      some ⟨"level", .float (.infinite true), .unconstrained, none, 2, true⟩ := by
    with_unfolding_all decide
  have hblob' : origin[(0 : Fin 1)].store.exposed? "blob" =
      some ⟨"blob", .bytes [0, 255, 7], .unconstrained, none, 1, true⟩ := by
    with_unfolding_all decide
  have htone' : replica[(0 : Fin 1)].store.elements.find? "tone" =
      some ⟨"tone", .integer 2, .unconstrained, none, 2, false⟩ := by with_unfolding_all decide
  obtain ⟨report, hreport, hignored, hrestored, hkept, -⟩ :=
    apply_restores horigin hreplica hfree' hdoc hc 1
  obtain ⟨e, stamp, he, hafter⟩ := hrestored "level" (by rw [hkeys]; decide) _ hlevel
  obtain ⟨b, stamp', hb, hafter'⟩ := hrestored "blob" (by rw [hkeys]; decide) _ hblob
  rw [hlevel'] at he
  rw [hblob'] at hb
  cases he
  cases hb
  refine ⟨⟨report, hreport, ?_⟩, ⟨_, hafter, rfl, rfl⟩, ⟨_, hafter', rfl⟩, ?_⟩
  · rw [hignored, hkeys]
    simp only [List.filter_cons, hlevel, hblob, htone, hview]
    rfl
  · rw [← htone']
    exact hkept "tone" (.inr htone)

end World

end SharedState
