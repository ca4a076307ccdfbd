import SharedState.Proofs.World.History

/-!
# The accounts of a model

A revision is the number of commits that a model has seen, and nothing else:
the answers that were given since the model was new account for every one of
them, in order and without a gap. So the revision that a change returns is the
next one, no two changes return the same, and an answer that is an error stands
for nothing at all.
-/

namespace SharedState

namespace World

variable {n : Nat} {m : Fin n} {w w' : World n} {log : List (Exchange n)}

theorem new_sound {policy : Policy} (h : w[m] = Model.empty policy) :
    w[m].store.Sound := by
  rw [h]
  exact Store.sound_empty policy

theorem History.revisions (h : History m w log w') (hs : w[m].store.Sound) :
    w'[m].store.revision =
        w[m].store.revision + (log.map Exchange.commits).sum ∧
      log.flatMap Exchange.revisions =
        List.range' (w[m].store.revision + 1) (log.map Exchange.commits).sum := by
  obtain ⟨commits, hev, hlen, hrev⟩ := h.evolves hs
  obtain ⟨hcount, hmap⟩ := hev.revisions
  rw [← hlen, ← hrev]
  exact ⟨hcount, hmap⟩

/-- A change that succeeds makes the next revision and returns it. -/
theorem perform_change_next (hs : w[m].store.Sound) (depth : Nat)
    {op : Operation (Listener n)} (hop : Exchange.IsChange op) {outcome : Outcome}
    (h : (perform depth w (m, op)).2 = .ok outcome) :
    outcome = .revision (w[m].store.revision + 1) ∧
      (perform depth w (m, op)).1[m].store.revision =
        w[m].store.revision + 1 := by
  obtain ⟨hcount, hrev⟩ := (History.start.exchange depth op).revisions (m := m) hs
  obtain ⟨revision, rfl⟩ := perform_change depth hop h
  have hone : Exchange.commits ⟨op, (perform depth w (m, op)).2⟩ = 1 := by
    rw [h]
    cases op <;> first | rfl | exact hop.elim
  rw [List.nil_append, List.map_singleton, List.sum_singleton, hone] at hcount hrev
  rw [List.flatMap_singleton, h] at hrev
  have hr : revision = w[m].store.revision + 1 := List.head_eq_of_cons_eq hrev
  exact ⟨hr ▸ rfl, hcount⟩

/-- The accounts of a model over a whole history. Its revision is the number of
commits that the answers tell of, the revisions that they claim are just those
up to it, each once and in order, and the watch shows it. A change that succeeds
now returns the next revision, and an operation that fails now has not happened. -/
theorem history_accounts {policy : Policy} (hnew : w[m] = Model.empty policy)
    (h : History m w log w') :
    w'[m].store.revision = (log.map Exchange.commits).sum ∧
      log.flatMap Exchange.revisions = List.range' 1 w'[m].store.revision ∧
      w'[m].watch = .start w'[m].store.revision ∧
      ∀ depth op,
        (∀ outcome, Exchange.IsChange op → (perform depth w' (m, op)).2 = .ok outcome →
          outcome = .revision (w'[m].store.revision + 1) ∧
            (perform depth w' (m, op)).1[m].store.revision =
              w'[m].store.revision + 1) ∧
        ∀ e, (perform depth w' (m, op)).2 = .error e →
          Untouched m w' (perform depth w' (m, op)).1 := by
  have hs := new_sound hnew
  obtain ⟨hcount, hrev⟩ := h.revisions hs
  obtain ⟨commits, hev, -, -⟩ := h.evolves hs
  have hzero : w[m].store.revision = 0 := by
    rw [hnew]
    rfl
  have hwatch : w[m].watch = .start w[m].store.revision := by
    rw [hnew]
    rfl
  rw [hzero, Nat.zero_add] at hcount hrev
  refine ⟨hcount, ?_, hev.watch hwatch, ?_⟩
  · rw [hrev, hcount]
  · intro depth op
    refine ⟨?_, ?_⟩
    · intro outcome hop hok
      exact perform_change_next (hev.sound hs) depth hop hok
    · intro e herr
      exact perform_untouched depth (hev.sound hs) herr

/-- A run in which changes, refusals and documents alternate. -/
def mixedRun : List (Operation (Listener 1)) :=
  [.add { key := "gain", value := .integer 1 },
   .add { key := "gain", value := .integer 2 },
   .update "gain" (.integer 3),
   .apply { state := [⟨"gain", .bool true⟩] },
   .apply { state := [⟨"gain", .string "4"⟩, ⟨"tone", .null⟩, ⟨"gain", .string "5"⟩] },
   .setLayout (.bool true),
   .annotate "gain" "Gain"]

theorem history_accounts_mixedRun :
    let first : World 1 := .start (.replicate 1 .ignore)
    let last := (first.converse 0 mixedRun).2
    (first.converse 0 mixedRun).1.map Exchange.commits = [1, 0, 1, 0, 2, 0, 1] ∧
      last[(0 : Fin 1)].store.revision = 5 ∧
      (first.converse 0 mixedRun).1.flatMap Exchange.revisions = [1, 2, 3, 4, 5] ∧
      last[(0 : Fin 1)].watch = .start 5 ∧
      (perform 2 last (0, .remove "gain")).1[(0 : Fin 1)].store.revision = 5 + 1 ∧
      Untouched 0 last (perform 2 last (0, .remove "tone")).1 := by
  intro first last
  have hcommits : (first.converse 0 mixedRun).1.map Exchange.commits = [1, 0, 1, 0, 2, 0, 1] := by
    with_unfolding_all decide
  have hremove : (perform 2 last (0, .remove "gain")).2 = .ok (.revision 6) := by
    with_unfolding_all decide
  have hmissing : (perform 2 last (0, .remove "tone")).2 = .error (.unknownKey "tone") := by
    with_unfolding_all decide
  have hhist : History 0 first (first.converse 0 mixedRun).1 last :=
    history_converse 0 first mixedRun
  -- nothing below needs to look into the last world
  clear_value last
  obtain ⟨hcount, hrevs, hwatch, hnext⟩ :=
    history_accounts (start_getElem (.replicate 1 .ignore) 0) hhist
  rw [hcommits] at hcount
  have hfive : last[(0 : Fin 1)].store.revision = 5 := hcount
  have hsix := ((hnext 2 (.remove "gain")).1 _ trivial hremove).2
  have huntouched := (hnext 2 (.remove "tone")).2 _ hmissing
  rw [hfive] at hsix hrevs hwatch
  exact ⟨hcommits, hfive, hrevs, hwatch, hsix, huntouched⟩

end World

end SharedState
