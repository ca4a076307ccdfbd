import SharedState.Proofs.Store.Batch
import SharedState.Proofs.World.Marked

/-!
# What an operation does to its own model

An operation changes its model by a few elementary steps: a commit, which
replaces the store and shows the new revision on the watch, or one of the
silent ones, which keep a schema, replace the layout or change the listeners.
`Model.Evolves` collects them, with the commits in order, and every operation
is such an evolution; what the listeners do in between leaves no trace in the
model, by the work of `Marked.lean`.

The one operation that makes several commits is the application of a document.
Its second phase commits updates that were all checked before the first of
them was committed, and has an exit for each one that fails all the same.
`applyUpdates_eq` says that the exits are never taken: an update changes
neither the kind nor the constraint of an element nor which elements there
are, so what was accepted stays acceptable, and a refusal has no other cause.
-/

namespace SharedState

variable {n : Nat}

namespace Model

/-- The model after a commit. -/
def committed (a : Model n) (done : Store × Commit) : Model n :=
  { a with store := done.1, watch := a.watch.publish done.2.revision }

/-- The steps that a model can go through, with the commits among them. -/
inductive Evolves (a : Model n) : List Commit → Model n → Prop
  | refl : Evolves a [] a
  | commit {commits b done} : Evolves a commits b → b.store.Step done →
      Evolves a (commits ++ [done.2]) (b.committed done)
  | keepSchema {commits b} : Evolves a commits b →
      Evolves a commits { b with store := b.store.keepSchema }
  | setLayout {commits b} (layout : Json) : Evolves a commits b →
      Evolves a commits { b with store := b.store.setLayout layout }
  | setRegistry {commits b} (registry : Registry n) : Evolves a commits b →
      Evolves a commits { b with registry }

namespace Evolves

variable {a b c : Model n} {commits commits' : List Commit}

theorem trans (h : a.Evolves commits b) (h' : b.Evolves commits' c) :
    a.Evolves (commits ++ commits') c := by
  induction h' with
  | refl => rwa [List.append_nil]
  | commit _ hs ih => rw [← List.append_assoc]; exact ih.commit hs
  | keepSchema _ ih => exact ih.keepSchema
  | setLayout layout _ ih => exact ih.setLayout layout
  | setRegistry registry _ ih => exact ih.setRegistry registry

theorem afterPlanning (h : a.Evolves commits b) (doc : Document) :
    a.Evolves commits { b with store := b.store.afterPlanning doc } := by
  rcases b.store.afterPlanning_eq_or doc with heq | heq
  · rw [heq]
    exact h
  · rw [heq]
    exact h.keepSchema

theorem step {done : Store × Commit} (h : a.store.Step done) :
    a.Evolves [done.2] (a.committed done) :=
  Evolves.refl.commit h

theorem sound (h : a.Evolves commits b) (ha : a.store.Sound) : b.store.Sound := by
  induction h with
  | refl => exact ha
  | commit _ hs ih => exact ih.step hs
  | keepSchema _ ih => exact ih.keepSchema
  | setLayout layout _ ih => exact ih.setLayout layout
  | setRegistry _ _ ih => exact ih

/-- Every commit makes the next revision, and nothing else makes one. -/
theorem revisions (h : a.Evolves commits b) :
    b.store.revision = a.store.revision + commits.length ∧
      commits.map (·.revision) = List.range' (a.store.revision + 1) commits.length := by
  induction h with
  | refl => exact ⟨rfl, rfl⟩
  | @commit commits b done _ hs ih =>
      obtain ⟨hrev, hmap⟩ := ih
      obtain ⟨hstore, hcommit, -, -⟩ := hs.counts
      have hnext : done.2.revision = a.store.revision + 1 + commits.length := by omega
      constructor
      · show done.1.revision = _
        rw [List.length_append, List.length_singleton]
        omega
      · rw [List.map_append, hmap, List.length_append, List.length_singleton,
          List.range'_concat, Nat.one_mul]
        simp only [List.map_cons, List.map_nil, hnext]
  | keepSchema _ ih => exact ih
  | setLayout _ _ ih => exact ih
  | setRegistry _ _ ih => exact ih

/-- Without a commit the elements stay as they are. -/
theorem elements (h : a.Evolves [] b) : b.store.elements = a.store.elements := by
  generalize hnone : ([] : List Commit) = commits at h
  induction h with
  | refl => rfl
  | commit _ _ _ => exact absurd hnone.symm (List.append_ne_nil_of_right_ne_nil _ (by simp))
  | keepSchema _ ih => exact ih hnone
  | setLayout _ _ ih => exact ih hnone
  | setRegistry _ _ ih => exact ih hnone

theorem watch (h : a.Evolves commits b) (ha : a.watch = .start a.store.revision) :
    b.watch = .start b.store.revision := by
  induction h with
  | refl => exact ha
  | commit _ hs _ =>
      obtain ⟨hstore, hcommit, -, -⟩ := hs.counts
      exact congrArg Watch.start (hcommit.trans hstore.symm)
  | keepSchema _ ih => exact ih
  | setLayout _ _ ih => exact ih
  | setRegistry _ _ ih => exact ih

end Evolves

end Model

namespace World

variable {call : World n → Call n → World n × Reply} {w : World n} {i : Fin n}
  {updates : List (String × Value)}

/-! ## Updates one after another -/

theorem change_getElem_self (hc : RespectsMarks call) (w : World n) (i : Fin n)
    (done : Store × Commit) :
    (change call w i (.ok done)).1[i] = w[i].committed done :=
  commit_getElem_self hc w done.1 done.2

theorem change_store (hc : RespectsMarks call) (w : World n) (i : Fin n)
    (done : Store × Commit) : (change call w i (.ok done)).1[i].store = done.1 :=
  congrArg Model.store (change_getElem_self hc w i done)

/-- The world after updates of one model, each committed before the next. -/
def updateAll (call : World n → Call n → World n × Reply) (w : World n) (i : Fin n)
    (updates : List (String × Value)) : World n :=
  updates.foldl (fun w u => (change call w i (w[i].store.update u.1 u.2)).1) w

theorem updateAll_cons {u : String × Value} {done : Store × Commit}
    (hd : w[i].store.update u.1 u.2 = .ok done) :
    w.updateAll call i (u :: updates) = (change call w i (.ok done)).1.updateAll call i updates :=
  congrArg (fun r => updateAll call (change call w i r).1 i updates) hd

theorem updateAll_store (hc : RespectsMarks call) (hs : w[i].store.Sound)
    (ht : w[i].store.Takes updates) :
    (w.updateAll call i updates)[i].store = w[i].store.updateAll updates := by
  induction updates generalizing w with
  | nil => rfl
  | cons u rest ih =>
      obtain ⟨done, hd, hs', ht'⟩ := hs.first ht
      have hstore := change_store hc w i done
      rw [updateAll_cons hd, ih (hstore ▸ hs') (hstore ▸ ht'), hstore, ← Store.updated_eq hd]
      rfl

theorem updateAll_evolves (hc : RespectsMarks call) (hs : w[i].store.Sound)
    (ht : w[i].store.Takes updates) :
    ∃ commits, w[i].Evolves commits (w.updateAll call i updates)[i] ∧
      commits.length = updates.length := by
  induction updates generalizing w with
  | nil => exact ⟨[], .refl, rfl⟩
  | cons u rest ih =>
      obtain ⟨done, hd, hs', ht'⟩ := hs.first ht
      have hmodel := change_getElem_self hc w i done
      have hstore := change_store hc w i done
      obtain ⟨commits, hev, hlen⟩ := ih (hstore ▸ hs') (hstore ▸ ht')
      rw [hmodel] at hev
      rw [updateAll_cons hd]
      refine ⟨done.2 :: commits, (Model.Evolves.step (.update hd)).trans hev, ?_⟩
      rw [List.length_cons, List.length_cons, hlen]

/-- The second phase of an application: every update goes through, and the
report counts them all. -/
theorem applyUpdates_eq (hc : RespectsMarks call) {report : Report}
    (hs : w[i].store.Sound) (ht : w[i].store.Takes updates)
    (hr : report.revision = w[i].store.revision) :
    applyUpdates call i report w updates =
      (w.updateAll call i updates,
        .ok { report with
          applied := report.applied ++ updates.map (·.1)
          revision := w[i].store.revision + updates.length }) := by
  induction updates generalizing w report with
  | nil =>
      rw [List.map_nil, List.append_nil, List.length_nil, Nat.add_zero, ← hr]
      rfl
  | cons u rest ih =>
      obtain ⟨done, hd, hs', ht'⟩ := hs.first ht
      obtain ⟨hrev, hcommit, -, -⟩ := (Store.Step.update hd).counts
      have hstore := change_store hc w i done
      have happly : applyUpdates call i report w (u :: rest) =
          applyUpdates call i
            { report with applied := report.applied ++ [u.1], revision := done.2.revision }
            (change call w i (.ok done)).1 rest := by
        rw [applyUpdates, hd]
        rfl
      rw [happly, ih (hstore ▸ hs') (hstore ▸ ht') (by rw [hstore, hcommit, hrev]), hstore,
        updateAll_cons hd, hrev]
      simp only [List.append_assoc, List.singleton_append, List.map_cons, List.length_cons,
        Nat.add_assoc, Nat.add_comm 1]

/-- It makes no difference to a batch whether a schema is kept before it or
after it. -/
theorem updateAll_keepSchema (hc : RespectsMarks call) (hs : w[i].store.Sound)
    (ht : w[i].store.Takes updates) :
    (w.setStore i w[i].store.keepSchema).updateAll call i updates =
      (w.updateAll call i updates).setStore i
        (w.updateAll call i updates)[i].store.keepSchema := by
  induction updates generalizing w with
  | nil => rfl
  | cons u rest ih =>
      obtain ⟨done, hd, hs', ht'⟩ := hs.first ht
      have hstore := change_store hc w i done
      have hkept : w[i].store.keepSchema.update u.1 u.2 =
          .ok (done.1.keepSchema, done.2) :=
        hs.update_keepSchema hd
      have hfirst : (w.setStore i w[i].store.keepSchema)[i].store.update u.1 u.2 =
          .ok (done.1.keepSchema, done.2) := by
        rw [setStore_getElem_self]
        exact hkept
      have hsize : done.1.keepSchema.elements.size = done.1.elements.size := rfl
      have hcommit := commit_setStore (i := i) hc w w[i].store.keepSchema done.2 hsize
      rw [updateAll_cons hd, updateAll_cons hfirst, ← ih (hstore ▸ hs') (hstore ▸ ht'), hstore]
      exact congrArg (updateAll call · i rest) hcommit

/-! ## Applying a document -/

@[simp] theorem setStore_getElem (w : World n) (i : Fin n) :
    w.setStore i w[i].store = w :=
  replace_getElem w i

theorem updateAll_afterPlanning (hc : RespectsMarks call) (hs : w[i].store.Sound)
    (ht : w[i].store.Takes updates) (doc : Document) :
    (w.setStore i (w[i].store.afterPlanning doc)).updateAll call i updates =
      (w.updateAll call i updates).setStore i
        ((w.updateAll call i updates)[i].store.afterPlanning doc) := by
  unfold Store.afterPlanning
  split
  · exact updateAll_keepSchema hc hs ht
  · rw [setStore_getElem, setStore_getElem]

theorem applyDocument_of_plan_error (call : World n → Call n → World n × Reply)
    {doc : Document} {e : Error} (h : w[i].store.plan doc = .error e) :
    applyDocument call w i doc =
      ((w.setStore i (w[i].store.afterPlanning doc)).count (·.countApply false),
        .error e) := by
  simp only [applyDocument, planAndApply, h]

theorem applyDocument_of_refuses (call : World n → Call n → World n × Reply)
    (hs : w[i].store.Sound) {doc : Document} (h : w[i].store.Refuses doc) :
    ∃ e, applyDocument call w i doc =
      ((w.setStore i (w[i].store.afterPlanning doc)).count (·.countApply false),
        .error e) := by
  cases hp : w[i].store.plan doc with
  | ok plan => exact absurd h (hs.plan_eq_ok_iff.1 hp).1
  | error e => exact ⟨e, applyDocument_of_plan_error call hp⟩

/-- A document that is not refused is applied as a whole, and all that is left
of the planning is the kept schema. -/
theorem applyDocument_of_not_refuses (hc : RespectsMarks call) (hs : w[i].store.Sound)
    {doc : Document} (h : ¬ w[i].store.Refuses doc) :
    applyDocument call w i doc =
      (((w.updateAll call i (w[i].store.updatesFor doc.state)).setStore i
          ((w.updateAll call i (w[i].store.updatesFor doc.state))[i].store.afterPlanning
            doc)).count (·.countApply true),
        .ok (.report (w[i].store.reportFor doc))) := by
  have hp := hs.plan_eq_ok_iff.2 ⟨h, rfl⟩
  have ht := Store.takes_of_not_refuses h
  have hstore : (w.setStore i (w[i].store.afterPlanning doc))[i].store =
      w[i].store.afterPlanning doc :=
    congrArg Model.store (setStore_getElem_self w _)
  have hsound : (w.setStore i (w[i].store.afterPlanning doc))[i].store.Sound := by
    rw [hstore]
    exact hs.afterPlanning doc
  have htakes : (w.setStore i (w[i].store.afterPlanning doc))[i].store.Takes
      (w[i].store.updatesFor doc.state) := by
    rw [hstore]
    exact ht.afterPlanning doc
  have hrev : ({ ignored := w[i].store.passedOver doc.state,
                 revision := w[i].store.revision } : Report).revision =
      (w.setStore i (w[i].store.afterPlanning doc))[i].store.revision := by
    rw [hstore, Store.afterPlanning_revision]
  have happly := applyUpdates_eq hc hsound htakes hrev
  simp only [applyDocument, planAndApply, hp, happly, updateAll_afterPlanning hc hs ht]
  rw [hstore, Store.afterPlanning_revision]
  rfl

/-- However a document came, it is applied unless the model is marked. -/
theorem perform_of_readDocument (hfree : i ∉ w.dispatching) {op : Operation (Listener n)}
    {doc : Document} (h : readDocument op = .apply doc) (depth : Nat) :
    perform (depth + 1) w (i, op) = applyDocument (perform depth) w i doc := by
  rw [perform, answer_of_free hfree, h]
  rfl

theorem applyDocument_store (hc : RespectsMarks call) (hs : w[i].store.Sound)
    {doc : Document} (h : ¬ w[i].store.Refuses doc) :
    (applyDocument call w i doc).1[i].store =
      (w[i].store.updateAll (w[i].store.updatesFor doc.state)).afterPlanning doc := by
  have hall := updateAll_store hc hs (Store.takes_of_not_refuses h)
  rw [applyDocument_of_not_refuses hc hs h, count_getElem, setStore_getElem_self]
  show Store.afterPlanning _ doc = _
  rw [hall]

end World

end SharedState
