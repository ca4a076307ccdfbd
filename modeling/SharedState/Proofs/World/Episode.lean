import SharedState.Proofs.Store.Shown
import SharedState.Proofs.World.History

/-!
# The events of an exchange

`Episode.events` says, for an operation with its answer and the store before
and after, of which events listeners are to be told. It is the specification
of what a commit does about its listeners, and speaks of no listener.

What makes it a specification is `Episode.Told`. No event is lost because its
element was not found: the answer alone says how many events there are and of
which kinds, keys and revisions. And the snapshots say all that has happened:
whoever had the elements before and follows the events has the elements after.
`perform_told` proves both of every call.
-/

namespace SharedState

variable {n : Nat}

namespace Exchange

/-- What an answer says of the events that it stands for: the kind, the key and
the revision of each. -/
def headings (x : Exchange n) : List (EventKind × String × Nat) :=
  match x.operation, x.reply with
  | .add spec, .ok (.revision r) => [(.schemaAdded, spec.key, r), (.elementChanged, spec.key, r)]
  | .update key _, .ok (.revision r) => [(.elementChanged, key, r)]
  | .annotate key _, .ok (.revision r) => [(.schemaModified, key, r)]
  | .remove key, .ok (.revision r) => [(.schemaRemoved, key, r)]
  | _, .ok (.report report) =>
    (report.applied.zip x.revisions).map fun (key, r) => (.elementChanged, key, r)
  | _, _ => []

end Exchange

/-- An exchange with the store before it and the store after it. -/
structure Episode (n : Nat) where
  exchange : Exchange n
  before : Store
  after : Store

namespace Episode

/-- The events of an exchange. Each shows its element as the commit left it, or
as it was if the commit took it away; of a document, as each update left it. -/
def events (x : Episode n) : List Event :=
  match World.readDocument x.exchange.operation, x.exchange.reply with
  | .add spec, .ok (.revision r) => x.after.shown spec.key r [.schemaAdded, .elementChanged]
  | .update key _, .ok (.revision r) => x.after.shown key r [.elementChanged]
  | .annotate key _, .ok (.revision r) => x.after.shown key r [.schemaModified]
  | .remove key, .ok (.revision r) => x.before.shown key r [.schemaRemoved]
  | .apply doc, .ok _ => x.before.batchEvents (x.before.updatesFor doc.state)
  | _, _ => []

/-- The events are those that the answer speaks of, and whoever follows them
comes from the elements before to the elements after. -/
structure Told (x : Episode n) : Prop where
  headings : x.events.map Event.heading = x.exchange.headings
  replay : x.events.foldl Event.replay x.before.elements = x.after.elements

/-- Nothing is told of an operation that failed. -/
theorem events_error (op : Operation (Listener n)) (e : Error) (before after : Store) :
    events ⟨⟨op, .error e⟩, before, after⟩ = [] := by
  rw [events]
  cases World.readDocument op <;> rfl

theorem told_error (op : Operation (Listener n)) (e : Error) {before after : Store}
    (h : after.elements = before.elements) : Told ⟨⟨op, .error e⟩, before, after⟩ := by
  have hevents := events_error op e before after
  have hheadings : Exchange.headings ⟨op, .error e⟩ = [] := by
    cases op <;> rfl
  exact ⟨by rw [hevents, hheadings]; rfl, by rw [hevents]; exact h.symm⟩

/-- The events of a change that went through are those of its commit, and the
answer speaks of them. -/
structure Commits (x : Episode n) (done : Store × Commit) : Prop where
  events : x.events = done.2.events
  headings : done.2.events.map Event.heading = x.exchange.headings

end Episode

namespace Store

variable {s : Store} {key : String} {done : Store × Commit}

theorem add_commits {spec : Spec} (hd : s.add spec = .ok done) :
    Episode.Commits (n := n) ⟨⟨.add spec, .ok (.revision done.2.revision)⟩, s, done.1⟩ done :=
  ⟨(add_shows hd).eq_shown.symm, (add_shows hd).headings⟩

theorem Sound.update_commits (h : s.Sound) {value : Value} (hd : s.update key value = .ok done) :
    Episode.Commits (n := n) ⟨⟨.update key value, .ok (.revision done.2.revision)⟩, s, done.1⟩
      done :=
  ⟨(h.update_shows hd).eq_shown.symm, (h.update_shows hd).headings⟩

theorem Sound.annotate_commits (h : s.Sound) {label : String}
    (hd : s.annotate key label = .ok done) :
    Episode.Commits (n := n) ⟨⟨.annotate key label, .ok (.revision done.2.revision)⟩, s, done.1⟩
      done :=
  ⟨(h.annotate_shows hd).eq_shown.symm, (h.annotate_shows hd).headings⟩

theorem Sound.remove_commits (h : s.Sound) (hd : s.remove key = .ok done) :
    Episode.Commits (n := n) ⟨⟨.remove key, .ok (.revision done.2.revision)⟩, s, done.1⟩ done :=
  ⟨(h.remove_shows hd).eq_shown.symm, (h.remove_shows hd).headings⟩

end Store

namespace World

/-- An exchange as it is had in a world. -/
def episode (depth : Nat) (w : World n) (m : Fin n) (op : Operation (Listener n)) : Episode n :=
  ⟨⟨op, (perform depth w (m, op)).2⟩, w[m].store, (perform depth w (m, op)).1[m].store⟩

/-! ## The events of an exchange -/

section told

variable {call : World n → Call n → World n × Reply} {w : World n} {i : Fin n}

theorem change_told (hc : RespectsMarks call) (hs : w[i].store.Sound) (op : Operation (Listener n))
    {result : Except Error (Store × Commit)}
    (hstep : ∀ done, result = .ok done → w[i].store.Step done)
    (hcommits : ∀ done, result = .ok done →
      Episode.Commits ⟨⟨op, .ok (.revision done.2.revision)⟩, w[i].store, done.1⟩ done) :
    Episode.Told ⟨⟨op, (replyRevision (change call w i result)).2⟩, w[i].store,
      (replyRevision (change call w i result)).1[i].store⟩ := by
  cases result with
  | error e => exact Episode.told_error op e rfl
  | ok done =>
      have hafter : (replyRevision (change call w i (.ok done))).1[i].store = done.1 :=
        change_store hc w i done
      obtain ⟨hevents, hheadings⟩ := hcommits done rfl
      rw [hafter]
      exact ⟨(congrArg (List.map _) hevents).trans hheadings,
        (congrArg (List.foldl _ _) hevents).trans ((hstep done rfl).replay hs)⟩

theorem applyDocument_told (hc : RespectsMarks call) (hs : w[i].store.Sound) (doc : Document) :
    Episode.Told (n := n) ⟨⟨.apply doc, (applyDocument call w i doc).2⟩, w[i].store,
      (applyDocument call w i doc).1[i].store⟩ := by
  by_cases href : w[i].store.Refuses doc
  · obtain ⟨e, happly⟩ := applyDocument_of_refuses call hs href
    rw [happly, count_getElem, setStore_getElem_self]
    exact Episode.told_error _ e (w[i].store.afterPlanning_elements doc)
  · have ht := Store.takes_of_not_refuses href
    rw [applyDocument_store hc hs href, applyDocument_of_not_refuses hc hs href]
    refine ⟨?_, ?_⟩
    · have hfirst : ∀ count, w[i].store.revision + count + 1 - count =
          w[i].store.revision + 1 := by omega
      refine (hs.headings_batch ht).trans ?_
      simp only [Exchange.headings, Exchange.revisions, Store.reportFor, List.length_map, hfirst]
    · rw [Store.afterPlanning_elements]
      exact hs.replay_batch ht

theorem operate_told (hc : RespectsMarks call) (hs : w[i].store.Sound)
    (op : Operation (Listener n)) :
    Episode.Told ⟨⟨op, (operate call w i op).2⟩, w[i].store,
      (operate call w i op).1[i].store⟩ := by
  cases op with
  | add spec => exact change_told hc hs _ (fun _ hd => .add hd) fun _ hd => Store.add_commits hd
  | update key value =>
      exact change_told hc hs _ (fun _ hd => .update hd) fun _ hd => hs.update_commits hd
  | annotate key label =>
      exact change_told hc hs _ (fun _ hd => .annotate hd) fun _ hd => hs.annotate_commits hd
  | remove key =>
      exact change_told hc hs _ (fun _ hd => .remove hd) fun _ hd => hs.remove_commits hd
  | apply doc => exact applyDocument_told hc hs doc
  | look => exact ⟨rfl, rfl⟩
  | submit bytes => exact Episode.told_error _ _ rfl
  | setLayout | schema | full | delta =>
      simp only [operate, count_getElem, setStore_getElem_self]
      exact ⟨rfl, rfl⟩
  | register | unregister =>
      simp only [operate, modify_eq_replace, replace_getElem_self]
      exact ⟨rfl, rfl⟩

end told

variable {m : Fin n} {w : World n}

theorem readDocument_idem (op : Operation (Listener n)) :
    readDocument (readDocument op) = readDocument op := by
  cases op with
  | submit bytes =>
      cases hdoc : Document.parse? bytes <;> simp only [readDocument, hdoc]
  | _ => rfl

/-- It makes no difference to the events whether the document was read before. -/
theorem events_readDocument (op : Operation (Listener n)) (reply : Reply) (before after : Store) :
    Episode.events ⟨⟨readDocument op, reply⟩, before, after⟩ =
      Episode.events ⟨⟨op, reply⟩, before, after⟩ := by
  simp only [Episode.events, readDocument_idem]

theorem headings_readDocument (op : Operation (Listener n)) (reply : Reply) :
    Exchange.headings ⟨readDocument op, reply⟩ = Exchange.headings ⟨op, reply⟩ := by
  cases op with
  | submit bytes =>
      simp only [readDocument]
      cases Document.parse? bytes with
      | none => rfl
      | some doc =>
          rcases reply with e | outcome
          · rfl
          · cases outcome <;> rfl
  | _ => rfl

theorem perform_told (depth : Nat) (hs : w[m].store.Sound) (op : Operation (Listener n)) :
    (episode depth w m op).Told := by
  rw [episode]
  rcases perform_eq_or depth w (m, op) with hp | ⟨below, hp⟩
  · rw [hp]
    exact Episode.told_error op _ rfl
  · rw [hp]
    obtain ⟨hheadings, hreplay⟩ := operate_told (perform_respectsMarks below) hs (readDocument op)
    rw [events_readDocument] at hheadings hreplay
    exact ⟨hheadings.trans (headings_readDocument op _), hreplay⟩

end World

end SharedState
