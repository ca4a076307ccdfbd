import SharedState.Proofs.Store.Write
import SharedState.Proofs.World.Accounting
import SharedState.Proofs.World.Application

/-!
# Writers that keep to their own keys

Several writers share a model. Each call holds the guard while it lasts, so
what they do to the model together is some interleaving of their calls. If no
two of them use the same key, none can tell from its answers that the others
are there, but for the numbers of the revisions: it gets the answers, and finds
under its keys the elements, that it would have got and found with a model of
its own. And the revisions that the calls return, taken together, are all the
revisions that the model has had, each once and in order.

A writer is followed through an interleaving by keeping the shared store next
to the one it would have alone. The two agree on its keys; its own calls do the
same in both, and the calls of the others are not seen there.
-/

namespace SharedState

/-- The call as an operation of a model. -/
def Write.operation {n : Nat} : Write → Operation (Listener n)
  | add spec => .add spec
  | update key value => .update key value
  | remove key => .remove key
  | annotate key label => .annotate key label

/-- What is one writer's of a list in which everything bears the name of a writer. -/
def shareOf {ι α : Type} [DecidableEq ι] (i : ι) (l : List (ι × α)) : List α :=
  (l.filter (·.1 = i)).map (·.2)

section shares

variable {ι α : Type} [DecidableEq ι] {i j : ι}

theorem shareOf_cons_self (i : ι) (a : α) (l : List (ι × α)) :
    shareOf i ((i, a) :: l) = a :: shareOf i l := by
  simp [shareOf]

theorem shareOf_cons_of_ne (h : j ≠ i) (a : α) (l : List (ι × α)) :
    shareOf i ((j, a) :: l) = shareOf i l := by
  simp [shareOf, h]

theorem mem_shareOf {a : α} {l : List (ι × α)} (h : (i, a) ∈ l) : a ∈ shareOf i l :=
  List.mem_map.2 ⟨(i, a), List.mem_filter.2 ⟨h, decide_eq_true rfl⟩, rfl⟩

theorem shareOf_zip_map {β : Type} (f : α → β) (names : List ι) (l : List α) :
    shareOf i (names.zip (l.map f)) = (shareOf i (names.zip l)).map f := by
  rw [shareOf, shareOf, List.zip_map_right, List.filter_map, List.map_map, List.map_map]
  rfl

theorem shareOf_zip_sublist (names : List ι) (l : List α) :
    (shareOf i (names.zip l)).Sublist l := by
  induction names generalizing l with
  | nil => exact l.nil_sublist
  | cons j rest ih =>
      cases l with
      | nil => exact .slnil
      | cons a l =>
          rw [List.zip_cons_cons]
          by_cases h : j = i
          · subst h
            rw [shareOf_cons_self]
            exact (ih l).cons_cons a
          · rw [shareOf_cons_of_ne h]
            exact (ih l).cons a

end shares

/-- What a writer gets and leaves in an interleaving is what it would get and leave in
a store that agrees on its keys, without the others. -/
theorem Store.AgreesUnder.writeAll {ι : Type} [DecidableEq ι] {i : ι} {owned : String → Prop}
    {s t : Store} (h : s.AgreesUnder owned t) (hs : s.Sound) (ht : t.Sound)
    {schedule : List (ι × Write)} (howned : ∀ x ∈ schedule, owned x.2.key ↔ x.1 = i) :
    let shared := s.writeAll (schedule.map (·.2))
    let solo := t.writeAll (shareOf i schedule)
    (shareOf i ((schedule.map (·.1)).zip shared.1)).map (·.map fun _ => ()) =
        solo.1.map (·.map fun _ => ()) ∧
      shared.2.AgreesUnder owned solo.2 := by
  induction schedule generalizing s t with
  | nil => exact ⟨rfl, h⟩
  | cons x rest ih =>
      obtain ⟨j, a⟩ := x
      have hrest := fun x hx => howned x (List.mem_cons_of_mem (j, a) hx)
      have ha : owned a.key ↔ j = i := howned (j, a) List.mem_cons_self
      -- the writer's own calls go to both stores, the others' to the shared one only
      by_cases hj : j = i
      · subst hj
        have hown := ha.2 rfl
        obtain ⟨hresults, hlast⟩ :=
          ih (h.attempt hs ht hown) (hs.attempt a) (ht.attempt a) hrest
        simp only [shareOf_cons_self, List.map_cons, Store.writeAll, List.zip_cons_cons]
        refine ⟨?_, hlast⟩
        rw [hresults, h.result_eq hs ht hown]
      · obtain ⟨hresults, hlast⟩ :=
          ih (h.attempt_other hs fun hown => hj (ha.1 hown)) (hs.attempt a) ht hrest
        simp only [shareOf_cons_of_ne hj, List.map_cons, Store.writeAll, List.zip_cons_cons]
        exact ⟨hresults, hlast⟩

namespace World

variable {n : Nat} {m : Fin n} {w : World n}

/-! ## Writes to a model -/

theorem call_write (hfree : m ∉ w.dispatching) (a : Write) :
    let result := w.call (m, a.operation)
    result.2 = ((w[m].store.write a).map (·.2.revision)).map .revision ∧
      result.1[m].store = w[m].store.attempt a ∧ result.1.dispatching = w.dispatching := by
  have hc := perform_respectsMarks (n := n) n
  have hcall : w.call (m, a.operation) =
      replyRevision (change (perform n) w m (w[m].store.write a)) := by
    rw [call, perform, answer_of_free hfree]
    cases a <;> rfl
  intro result
  refine ⟨?_, ?_, (perform_respectsMarks (n + 1)).dispatching w _⟩
  · show (w.call (m, a.operation)).2 = _
    rw [hcall]
    cases w[m].store.write a <;> rfl
  · show (w.call (m, a.operation)).1[m].store = _
    rw [hcall]
    unfold Store.attempt
    cases w[m].store.write a with
    | ok done => exact change_store hc w m done
    | error e => rfl

theorem converse_writes (hfree : m ∉ w.dispatching) (writes : List Write) :
    let run := w.converse m (writes.map (·.operation))
    run.1.map (·.reply) = (w[m].store.writeAll writes).1.map (·.map .revision) ∧
      run.2[m].store = (w[m].store.writeAll writes).2 := by
  induction writes generalizing w with
  | nil => exact ⟨rfl, rfl⟩
  | cons a rest ih =>
      obtain ⟨hreply, hstore, hdispatching⟩ := call_write hfree a
      obtain ⟨hreplies, hlast⟩ := ih (w := (w.call (m, a.operation)).1) (hdispatching ▸ hfree)
      rw [hstore] at hreplies hlast
      simp only [List.map_cons, converse, Store.writeAll]
      refine ⟨?_, hlast⟩
      rw [hreply, hreplies]

/-- The reply without the number of the revision that it may return. -/
def unnumbered (reply : Reply) : Reply :=
  reply.map fun
    | .revision _ => .revision 0
    | outcome => outcome

/-- The revision that a reply returns. -/
def returned? : Reply → Option Nat
  | .ok (.revision revision) => some revision
  | _ => none

/-- Replies that tell the same but for the numbers are the same without the numbers. -/
theorem map_unnumbered_congr {results results' : List (Except Error Nat)}
    (h : results.map (·.map fun _ => ()) = results'.map (·.map fun _ => ())) :
    (results.map (·.map .revision)).map unnumbered =
      (results'.map (·.map .revision)).map unnumbered := by
  have hone : ∀ result : Except Error Nat, unnumbered (result.map .revision) =
      (result.map fun _ => ()).map fun _ => .revision 0 := by
    intro result
    cases result <;> rfl
  have hall := congrArg (List.map (Except.map fun _ => Outcome.revision 0)) h
  simp only [List.map_map, Function.comp_def] at hall ⊢
  simp only [hone]
  exact hall

/-- The replies to writes return all revisions that there have been since, in order. -/
theorem converse_revisions (hs : w[m].store.Sound) (hfree : m ∉ w.dispatching)
    (writes : List Write) :
    let run := w.converse m (writes.map (·.operation))
    let replies := run.1.map (·.reply)
    let total := replies.countP (·.isOk)
    replies.filterMap returned? = List.range' (w[m].store.revision + 1) total ∧
      run.2[m].store.revision = w[m].store.revision + total := by
  intro run replies total
  obtain ⟨hcount, hrevisions⟩ := (history_converse m w (writes.map (·.operation))).revisions hs
  have hreplies : replies = _ := (converse_writes hfree writes).1
  have hread : ∀ x ∈ run.1, x.revisions = (returned? x.reply).toList ∧
      (returned? x.reply).isSome = x.reply.isOk := by
    intro x hx
    have hmem : x.reply ∈ replies := List.mem_map_of_mem hx
    rw [hreplies] at hmem
    obtain ⟨result, -, hresult⟩ := List.mem_map.1 hmem
    obtain ⟨op, reply⟩ := x
    subst hresult
    cases result <;> exact ⟨rfl, rfl⟩
  have hlist : run.1.flatMap Exchange.revisions = replies.filterMap returned? := by
    rw [List.filterMap_map, List.filterMap_eq_flatMap_toList]
    exact List.flatMap_congr fun x hx => (hread x hx).1
  -- the accounts count commits; there are as many revisions, and each stands for a reply
  have htotal : (run.1.map Exchange.commits).sum = total := by
    have hlen := congrArg List.length (hlist.symm.trans hrevisions)
    rw [List.length_range', List.filterMap_map, List.length_filterMap_eq_countP] at hlen
    rw [← hlen]
    show _ = (run.1.map (·.reply)).countP _
    rw [List.countP_map]
    refine List.countP_congr fun x hx => ?_
    simp only [Function.comp_apply, (hread x hx).2]
  rw [hlist, htotal] at hrevisions
  rw [htotal] at hcount
  exact ⟨hrevisions, hcount⟩

/-! ## Several writers -/

theorem owned_iff_of_disjoint {k : Nat} {scripts : Fin k → List Write}
    {schedule : List (Fin k × Write)} (hschedule : ∀ i, shareOf i schedule = scripts i)
    (hdisjoint : ∀ i j, ∀ a ∈ scripts i, ∀ b ∈ scripts j, a.key = b.key → i = j) (i : Fin k) :
    ∀ x ∈ schedule, (∃ a ∈ scripts i, a.key = x.2.key) ↔ x.1 = i := by
  intro x hx
  have hmem : x.2 ∈ scripts x.1 := hschedule x.1 ▸ mem_shareOf hx
  constructor
  · rintro ⟨a, ha, hkey⟩
    exact (hdisjoint i x.1 a ha x.2 hmem hkey).symm
  · intro hi
    exact ⟨x.2, hi ▸ hmem, rfl⟩

/-- Writers that share no key work on one model in any order. Every call gets the reply
that it gets when its writer is alone on a new model, the elements under a writer's
keys end up as they do then, and the calls that go through return the revisions of the
model, each once and in order. -/
theorem disjoint_writers {k : Nat} {scripts : Fin k → List Write}
    {schedule : List (Fin k × Write)} (hschedule : ∀ i, shareOf i schedule = scripts i)
    (hdisjoint : ∀ i j, ∀ a ∈ scripts i, ∀ b ∈ scripts j, a.key = b.key → i = j)
    {policy : Policy} (hnew : w[m].store = { policy }) (hfree : m ∉ w.dispatching) :
    let shared := w.converse m ((schedule.map (·.2)).map (·.operation))
    let replies := shared.1.map (·.reply)
    let repliesTo := fun i => shareOf i ((schedule.map (·.1)).zip replies)
    let total := replies.countP (·.isOk)
    (∀ i, ∀ {n' : Nat} (w' : World n') (m' : Fin n') (policy' : Policy),
        w'[m'].store = { policy := policy' } → m' ∉ w'.dispatching →
        let solo := w'.converse m' ((scripts i).map (·.operation))
        (repliesTo i).map unnumbered = (solo.1.map (·.reply)).map unnumbered ∧
          ∀ a ∈ scripts i,
            shared.2[m].store.content? a.key = solo.2[m'].store.content? a.key) ∧
      replies.filterMap returned? = List.range' 1 total ∧
      shared.2[m].store.revision = total ∧
      ∀ i, ((repliesTo i).filterMap returned?).Pairwise (· < ·) := by
  intro shared replies repliesTo total
  have hs : w[m].store.Sound := hnew ▸ Store.sound_empty policy
  have hzero : w[m].store.revision = 0 := by rw [hnew]
  obtain ⟨hreplies, hlast⟩ := converse_writes hfree (schedule.map (·.2))
  obtain ⟨hrevisions, hcount⟩ := converse_revisions hs hfree (schedule.map (·.2))
  rw [hzero, Nat.zero_add] at hrevisions hcount
  refine ⟨?_, hrevisions, hcount, ?_⟩
  · intro i n' w' m' policy' hnew' hfree' solo
    have hs' : w'[m'].store.Sound := hnew' ▸ Store.sound_empty policy'
    obtain ⟨hreplies', hlast'⟩ := converse_writes hfree' (scripts i)
    have hagree : w[m].store.AgreesUnder (fun key => ∃ a ∈ scripts i, a.key = key)
        w'[m'].store := by
      intro key _
      rw [hnew, hnew']
      rfl
    obtain ⟨hresults, hcontent⟩ :=
      hagree.writeAll hs hs' (owned_iff_of_disjoint hschedule hdisjoint i)
    rw [hschedule i] at hresults hcontent
    refine ⟨?_, fun a ha => ?_⟩
    · have hshare : repliesTo i = shareOf i ((schedule.map (·.1)).zip
          ((w[m].store.writeAll (schedule.map (·.2))).1.map (·.map .revision))) :=
        congrArg (fun l => shareOf i ((schedule.map (·.1)).zip l)) hreplies
      rw [hshare, shareOf_zip_map, hreplies']
      exact map_unnumbered_congr hresults
    · show shared.2[m].store.content? a.key = _
      rw [hlast, hlast']
      exact hcontent a.key ⟨a, ha, rfl⟩
  · intro i
    have hsub := (shareOf_zip_sublist (schedule.map (·.1)) replies (i := i)).filterMap returned?
    rw [hrevisions] at hsub
    exact List.Pairwise.sublist hsub List.pairwise_lt_range'

/-- A new model with a listener that calls back into it. -/
def disturbed : World 1 :=
  alone [.register (meddler (.last 0))]

/-- Two writers in turns, each refused now and then. -/
def alternating : List (Fin 2 × Write) :=
  [(0, .add { key := "gain", value := .integer 1,
              constraint := .range (.integer 0) (.integer 8) }),
   (1, .update "mode" (.string "b")),
   (1, .add { key := "mode", value := .string "a" }),
   (0, .update "gain" (.integer 7)),
   (1, .remove "mode"),
   (0, .add { key := "gain", value := .integer 2 }),
   (1, .add { key := "mode", value := .boolean true }),
   (0, .annotate "gain" "Gain")]

theorem disjoint_writers_alternating :
    let shared := disturbed.converse 0 ((alternating.map (·.2)).map (·.operation))
    let solo := (start (.replicate 1 .reject)).converse 0
      ((shareOf 1 alternating).map (·.operation))
    shared.1.map (returned? ·.reply) =
        [some 1, none, some 2, some 3, some 4, none, some 5, some 6] ∧
      solo.1.map (returned? ·.reply) = [none, some 1, some 2, some 3] ∧
      shared.2[(0 : Fin 1)].store.revision = 6 ∧
      shared.2[(0 : Fin 1)].store.content? "mode" =
        solo.2[(0 : Fin 1)].store.content? "mode" := by
  intro shared solo
  have hfree : (0 : Fin 1) ∉ disturbed.dispatching := free_alone _
  have hnew : disturbed[(0 : Fin 1)].store = { policy := .ignore } := by with_unfolding_all decide
  have hdisjoint : ∀ i j, ∀ a ∈ shareOf i alternating, ∀ b ∈ shareOf j alternating,
      a.key = b.key → i = j := by
    decide
  obtain ⟨hwriters, -, hrevision, -⟩ :=
    disjoint_writers (fun _ => rfl) hdisjoint hnew hfree
  have hempty : (start (.replicate 1 .reject))[(0 : Fin 1)] = Model.empty .reject :=
    start_getElem (.replicate 1 .reject) 0
  obtain ⟨-, hcontent⟩ :=
    hwriters 1 (start (.replicate 1 .reject)) 0 .reject (congrArg Model.store hempty)
      List.not_mem_nil
  have htotal : (shared.1.map (·.reply)).countP (·.isOk) = 6 := by with_unfolding_all decide
  refine ⟨by with_unfolding_all decide, by with_unfolding_all decide, hrevision.trans htotal, ?_⟩
  exact hcontent (.remove "mode") (by decide)

end World

end SharedState
