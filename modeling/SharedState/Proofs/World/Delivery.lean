import SharedState.Proofs.World.Episode
import SharedState.Proofs.World.Reservation

/-!
# What a registration receives

A registration receives the events of the exchanges with its model from the one
that registers it to the one that unregisters it, those that it wants to hear
of, each once and in order, and nothing else. The other listeners make no
difference, whatever calls they make.

The inbox of the registration is where this can be seen, once it is its own in
the sense of `Reservation.lean`. `Delivers` says what a step adds to it, and
goes from the telling of one listener up to `perform_delivers`: a call adds the
events of its episode, if the listener is registered. An `Attended` history is
a history of the model in which nothing besides its exchanges touches the inbox,
and every run comes to one.
-/

namespace SharedState

variable {n : Nat}

namespace World

/-- An inbox whose receiver is there holds notices of these events. -/
def Received (w : World n) (inbox : Nat) (events : List Event) : Prop :=
  ∃ box, w.inboxes[inbox]? = some box ∧ box.isOpen = true ∧ box.notices.map (·.event) = events

theorem Received.post {w : World n} {inbox : Nat} {events : List Event}
    (h : w.Received inbox events) (notice : Notice) :
    (w.post (some inbox) notice).Received inbox (events ++ [notice.event]) := by
  obtain ⟨box, hbox, hopen, rfl⟩ := h
  refine ⟨{ box with notices := box.notices ++ [notice] }, ?_, hopen, ?_⟩
  · simp only [World.post, List.getElem?_modify_eq, hbox, Option.map_eq_map, Option.map_some, hopen,
      if_true]
  · rw [List.map_append]
    rfl

end World

namespace Reservation

open World

variable {ρ : Reservation n} {w w' w'' : World n} {events events' : List Event}

/-- The events are added to the inbox. -/
def Delivers (ρ : Reservation n) (events : List Event) (w w' : World n) : Prop :=
  ∀ received, w.Received ρ.inbox received → w'.Received ρ.inbox (received ++ events)

theorem Delivers.trans (h : ρ.Delivers events w w') (h' : ρ.Delivers events' w' w'') :
    ρ.Delivers (events ++ events') w w'' := by
  intro received hr
  rw [← List.append_assoc]
  exact h' _ (h received hr)

theorem Quiet.delivers (h : ρ.Quiet w w') : ρ.Delivers [] w w' := by
  intro received hr
  obtain ⟨box, hbox, hrest⟩ := hr
  rw [List.append_nil]
  exact ⟨box, h.trans hbox, hrest⟩

/-- An event is for the listener, given who is registered. -/
def hears (ρ : Reservation n) (handles : List Nat) (event : Event) : Bool :=
  decide (ρ.handle ∈ handles) && ρ.listener.interest.wants event.kind

theorem hears_of_mem {handles : List Nat} (h : ρ.handle ∈ handles) :
    ρ.hears handles = (ρ.listener.interest.wants ·.kind) := by
  funext event
  rw [hears, decide_eq_true h, Bool.true_and]

theorem hears_of_not_mem {handles : List Nat} (h : ρ.handle ∉ handles) :
    ρ.hears handles = fun _ => false := by
  funext event
  rw [hears, decide_eq_false h, Bool.false_and]

theorem filter_hears_cons {handle : Nat} {handles : List Nat}
    (h : handle = ρ.handle → ρ.handle ∉ handles) (event : Event) :
    [event].filter (ρ.hears (handle :: handles)) =
      [event].filter (ρ.hears [handle]) ++ [event].filter (ρ.hears handles) := by
  simp only [List.filter_singleton]
  by_cases heq : handle = ρ.handle
  · have hsame : ρ.hears (handle :: handles) event = ρ.hears [handle] event := by
      simp [hears, heq]
    rw [hears_of_not_mem (h heq), hsame]
    exact (List.append_nil _).symm
  · have hgone : ρ.hears [handle] event = false := by
      simp [hears, Ne.symm heq]
    have hsame : ρ.hears (handle :: handles) event = ρ.hears handles event := by
      simp [hears, Ne.symm heq]
    rw [hgone, hsame]
    rfl

/-! ## The listeners of the model -/

section told

variable {call : World n → Call n → World n × Reply}
  (hc : ∀ w c, c.2.Avoids ρ.inbox → ρ.Carries (ρ.model ∈ ·.dispatching) ρ.Quiet w (call w c).1)
include hc

/-- Telling the listener of an event puts it into the inbox. -/
theorem tell_own (event : Event) (hheld : ρ.Held w) (hm : ρ.model ∈ w.dispatching) :
    let told := World.tell call ρ.model event w ρ.listener
    ρ.Held told ∧ ρ.model ∈ told.dispatching ∧ ρ.Delivers [event] w told := by
  obtain ⟨hheld', hm', hquiet⟩ :=
    carries_callAll quiet_composes hc (ρ.calls event) w hheld hm
  refine ⟨hheld'.congr fun i => ?_, ?_, ?_⟩
  · simp only [World.tell, post_getElem]
  · simp only [World.tell, post_dispatching]
    exact hm'
  · intro received hr
    have hr' := Quiet.delivers hquiet received hr
    rw [List.append_nil] at hr'
    simp only [World.tell, ρ.writes]
    exact hr'.post _

/-- One registered listener is told of an event, if it wants to hear of it. -/
theorem tell_delivers (event : Event) {entry : Nat × Listener n}
    (hown : entry.1 = ρ.handle → entry.2 = ρ.listener)
    (hother : entry.1 ≠ ρ.handle → entry.2.Avoids ρ.inbox)
    (hheld : ρ.Held w) (hm : ρ.model ∈ w.dispatching) :
    let told := if entry.2.interest.wants event.kind then
      World.tell call ρ.model event w entry.2 else w
    ρ.Held told ∧ ρ.model ∈ told.dispatching ∧
      ρ.Delivers ([event].filter (ρ.hears [entry.1])) w told := by
  intro told
  by_cases hentry : entry.1 = ρ.handle
  · have hhears : ρ.hears [entry.1] event = entry.2.interest.wants event.kind := by
      simp [hears, hentry, hown hentry]
    simp only [List.filter_singleton, hhears, told]
    cases hwants : entry.2.interest.wants event.kind with
    | false => exact ⟨hheld, hm, Quiet.delivers rfl⟩
    | true =>
        rw [if_pos rfl, hown hentry]
        exact tell_own hc event hheld hm
  · have hhears : ρ.hears [entry.1] event = false := by
      simp [hears, Ne.symm hentry]
    have hcarried : ρ.Carries (ρ.model ∈ ·.dispatching) ρ.Quiet w told := by
      simp only [told]
      split
      · exact carries_tell quiet_composes hc event w (hother hentry)
      · exact carries_refl quiet_composes w
    obtain ⟨hheld', hm', hquiet⟩ := hcarried hheld hm
    rw [List.filter_singleton, hhears]
    exact ⟨hheld', hm', Quiet.delivers hquiet⟩

/-- Telling listeners puts the event into the inbox if one of them is the
listener of the registration, and not twice. -/
theorem foldl_tell_delivers (event : Event) {entries : List (Nat × Listener n)}
    (hordered : (entries.map (·.1)).Pairwise (· < ·))
    (hown : ∀ e ∈ entries, e.1 = ρ.handle → e.2 = ρ.listener)
    (hothers : ∀ e ∈ entries, e.1 ≠ ρ.handle → e.2.Avoids ρ.inbox)
    (hheld : ρ.Held w) (hm : ρ.model ∈ w.dispatching) :
    let told := ((entries.map (·.2)).filter (·.interest.wants event.kind)).foldl
      (World.tell call ρ.model event) w
    ρ.Held told ∧ ρ.model ∈ told.dispatching ∧
      ρ.Delivers ([event].filter (ρ.hears (entries.map (·.1)))) w told := by
  induction entries generalizing w with
  | nil => exact ⟨hheld, hm, Quiet.delivers rfl⟩
  | cons entry rest ih =>
      rw [List.map_cons, List.pairwise_cons] at hordered
      obtain ⟨hlt, hrest⟩ := hordered
      obtain ⟨hheld', hm', hfirst⟩ := tell_delivers hc event
        (hown entry List.mem_cons_self) (hothers entry List.mem_cons_self) hheld hm
      obtain ⟨hheld'', hm'', hmore⟩ := ih hrest
        (fun e he => hown e (List.mem_cons_of_mem _ he))
        (fun e he => hothers e (List.mem_cons_of_mem _ he)) hheld' hm'
      have honce : entry.1 = ρ.handle → ρ.handle ∉ rest.map (·.1) := by
        intro heq hmem
        exact Nat.lt_irrefl _ (heq ▸ hlt _ hmem)
      have hfold : (((entry :: rest).map (·.2)).filter (·.interest.wants event.kind)).foldl
            (World.tell call ρ.model event) w =
          ((rest.map (·.2)).filter (·.interest.wants event.kind)).foldl
            (World.tell call ρ.model event)
            (if entry.2.interest.wants event.kind then
              World.tell call ρ.model event w entry.2 else w) := by
        rw [List.map_cons, List.filter_cons]
        split <;> rfl
      rw [hfold, List.map_cons, filter_hears_cons honce]
      exact ⟨hheld'', hm'', hfirst.trans hmore⟩

theorem dispatch_delivers (event : Event) (hheld : ρ.Held w) :
    let told := dispatch call ρ.model w event
    ρ.Held told ∧ ρ.Delivers ([event].filter (ρ.hears w[ρ.model].registry.handles)) w told := by
  rw [dispatch_eq]
  split
  · next hnone =>
      have hhandles : w[ρ.model].registry.handles = [] := by
        rw [Registry.handles, List.isEmpty_iff.1 hnone]
        rfl
      rw [hhandles]
      exact ⟨hheld, Quiet.delivers rfl⟩
  · have hkept := hheld.here
    obtain ⟨hheld', -, hdelivers⟩ := foldl_tell_delivers hc event hkept.counted.ordered hkept.own
      hkept.others (w := w.mark ρ.model) (hheld.congr fun _ => rfl) List.mem_cons_self
    exact ⟨hheld'.congr fun _ => rfl, hdelivers⟩

variable (hm : RespectsMarks call)
include hm

theorem foldl_dispatch_delivers (events : List Event) (hheld : ρ.Held w) :
    let told := events.foldl (dispatch call ρ.model) w
    ρ.Held told ∧ ρ.Delivers (events.filter (ρ.hears w[ρ.model].registry.handles)) w told := by
  induction events generalizing w with
  | nil => exact ⟨hheld, Quiet.delivers rfl⟩
  | cons event rest ih =>
      obtain ⟨hheld', hfirst⟩ := dispatch_delivers hc event hheld
      obtain ⟨hheld'', hmore⟩ := ih hheld'
      rw [dispatch_getElem_self hm] at hmore
      refine ⟨hheld'', ?_⟩
      rw [show event :: rest = [event] ++ rest from rfl, List.filter_append]
      exact hfirst.trans hmore

/-! ## Operations on the model -/

theorem change_delivers (done : Store × Commit) (hheld : ρ.Held w) :
    let changed := (change call w ρ.model (.ok done)).1
    ρ.Held changed ∧
      ρ.Delivers (done.2.events.filter (ρ.hears w[ρ.model].registry.handles)) w changed := by
  have hstore : ρ.Held (w.replace ρ.model { w[ρ.model] with
      store := done.1, watch := w[ρ.model].watch.publish done.2.revision }) :=
    hheld.replace hheld.here
  have hpublish : ρ.Held (w.publish ρ.model done.1 done.2) := hstore.count _
  have hregistry : (w.publish ρ.model done.1 done.2)[ρ.model].registry =
      w[ρ.model].registry := by
    rw [publish, count_getElem, replace_getElem_self]
  obtain ⟨hheld', hdelivers⟩ := foldl_dispatch_delivers hc hm done.2.events hpublish
  rw [hregistry] at hdelivers
  exact ⟨hheld', hdelivers⟩

theorem updateAll_delivers {updates : List (String × Value)} (hheld : ρ.Held w)
    (hs : w[ρ.model].store.Sound) (ht : w[ρ.model].store.Takes updates) :
    let updated := w.updateAll call ρ.model updates
    ρ.Held updated ∧ ρ.Delivers ((w[ρ.model].store.batchEvents updates).filter
      (ρ.hears w[ρ.model].registry.handles)) w updated := by
  induction updates generalizing w with
  | nil => exact ⟨hheld, Quiet.delivers rfl⟩
  | cons u rest ih =>
      obtain ⟨done, hd, hs', ht'⟩ := hs.first ht
      obtain ⟨hheld', hfirst⟩ := change_delivers hc hm done hheld
      have hmodel := change_getElem_self hm w ρ.model done
      have hstore := change_store hm w ρ.model done
      obtain ⟨hheld'', hmore⟩ := ih hheld' (hstore ▸ hs') (hstore ▸ ht')
      rw [updateAll_cons hd, hs.batchEvents_cons hd, List.filter_append]
      rw [hstore, hmodel] at hmore
      exact ⟨hheld'', hfirst.trans hmore⟩

theorem replyRevision_delivers (op : Operation (Listener n))
    {result : Except Error (Store × Commit)} (hheld : ρ.Held w)
    (hcommits : ∀ done, result = .ok done →
      Episode.Commits ⟨⟨op, .ok (.revision done.2.revision)⟩, w[ρ.model].store, done.1⟩ done) :
    let changed := replyRevision (change call w ρ.model result)
    ρ.Held changed.1 ∧ ρ.Delivers ((Episode.events ⟨⟨op, changed.2⟩, w[ρ.model].store,
      changed.1[ρ.model].store⟩).filter (ρ.hears w[ρ.model].registry.handles)) w changed.1 := by
  cases result with
  | error e =>
      refine ⟨hheld, ?_⟩
      show ρ.Delivers ((Episode.events ⟨⟨op, .error e⟩, _, _⟩).filter _) w w
      rw [Episode.events_error]
      exact Quiet.delivers rfl
  | ok done =>
      obtain ⟨hheld', hdelivers⟩ := change_delivers hc hm done hheld
      refine ⟨hheld', ?_⟩
      show ρ.Delivers ((Episode.events ⟨⟨op, .ok (.revision done.2.revision)⟩, _,
        (change call w ρ.model (.ok done)).1[ρ.model].store⟩).filter _) w _
      rw [change_store hm, (hcommits done rfl).events]
      exact hdelivers

theorem applyDocument_delivers (hheld : ρ.Held w) (hs : w[ρ.model].store.Sound)
    (doc : Document) :
    let applied := applyDocument call w ρ.model doc
    ρ.Held applied.1 ∧ ρ.Delivers ((Episode.events (n := n) ⟨⟨.apply doc, applied.2⟩,
      w[ρ.model].store, applied.1[ρ.model].store⟩).filter
        (ρ.hears w[ρ.model].registry.handles)) w applied.1 := by
  by_cases href : w[ρ.model].store.Refuses doc
  · obtain ⟨e, happly⟩ := applyDocument_of_refuses call hs href
    rw [happly]
    dsimp only
    exact ⟨(hheld.setStore _).count _, Quiet.delivers rfl⟩
  · have ht := Store.takes_of_not_refuses href
    obtain ⟨hheld', hdelivers⟩ := updateAll_delivers hc hm hheld hs ht
    rw [applyDocument_of_not_refuses hm hs href]
    dsimp only
    exact ⟨(hheld'.setStore _).count _, hdelivers⟩

theorem operate_delivers {op : Operation (Listener n)} (hop : op.Avoids ρ.inbox)
    (hheld : ρ.Held w) (hs : w[ρ.model].store.Sound) :
    let result := operate call w ρ.model op
    ρ.Held result.1 ∧ ρ.Delivers ((Episode.events ⟨⟨op, result.2⟩, w[ρ.model].store,
      result.1[ρ.model].store⟩).filter (ρ.hears w[ρ.model].registry.handles)) w result.1 := by
  cases op with
  | add spec => exact replyRevision_delivers hc hm _ hheld fun _ hd => Store.add_commits hd
  | update key value =>
      exact replyRevision_delivers hc hm _ hheld fun _ hd => hs.update_commits hd
  | annotate key label =>
      exact replyRevision_delivers hc hm _ hheld fun _ hd => hs.annotate_commits hd
  | remove key => exact replyRevision_delivers hc hm _ hheld fun _ hd => hs.remove_commits hd
  | apply doc => exact applyDocument_delivers hc hm hheld hs doc
  | look => exact ⟨hheld, Quiet.delivers rfl⟩
  | setLayout | schema => exact ⟨hheld.setStore _, Quiet.delivers rfl⟩
  | full | delta => exact ⟨(hheld.setStore _).count _, Quiet.delivers rfl⟩
  | submit bytes =>
      refine ⟨hheld.count _, ?_⟩
      show ρ.Delivers ((Episode.events ⟨⟨_, .error _⟩, _, _⟩).filter _) w _
      rw [Episode.events_error]
      exact Quiet.delivers rfl
  | register l => exact ⟨hheld.replace (hheld.here.register hop), Quiet.delivers rfl⟩
  | unregister handle => exact ⟨hheld.replace (hheld.here.unregister handle), Quiet.delivers rfl⟩

end told

/-- A call to the model adds the events of its episode that are for the
listener. -/
theorem perform_delivers (depth : Nat) {op : Operation (Listener n)} (hop : op.Avoids ρ.inbox)
    (hheld : ρ.Held w) (hs : w[ρ.model].store.Sound) :
    let w' := (perform depth w (ρ.model, op)).1
    ρ.Held w' ∧ ρ.Delivers ((episode depth w ρ.model op).events.filter
      (ρ.hears w[ρ.model].registry.handles)) w w' := by
  rw [episode]
  rcases perform_eq_or depth w (ρ.model, op) with hp | ⟨below, hp⟩
  · rw [hp, Episode.events_error]
    exact ⟨hheld, Quiet.delivers rfl⟩
  · rw [hp, ← events_readDocument]
    exact operate_delivers (fun w c hc => carries_marked below w hc) (perform_respectsMarks below)
      (readDocument_avoids hop) hheld hs

end Reservation

namespace Episode

/-- The episodes until a handle is taken back. -/
def whileLive (handle : Nat) (log : List (Episode n)) : List (Episode n) :=
  log.takeWhile (! ·.exchange.ends handle)

variable {handle : Nat} {log : List (Episode n)} {x : Episode n}

theorem whileLive_of_live (h : ∀ x ∈ log, x.exchange.ends handle = false) :
    whileLive handle log = log :=
  List.takeWhile_eq_self_iff.2 fun x hx => by rw [h x hx]; rfl

theorem whileLive_concat_of_live (h : ∀ x ∈ log, x.exchange.ends handle = false) :
    whileLive handle (log ++ [x]) = log ++ whileLive handle [x] :=
  List.takeWhile_append_of_pos fun x hx => by rw [h x hx]; rfl

theorem whileLive_concat_of_ended (h : ∃ x ∈ log, x.exchange.ends handle = true) :
    whileLive handle (log ++ [x]) = whileLive handle log := by
  obtain ⟨y, hy, hends⟩ := h
  rw [whileLive, List.takeWhile_append, if_neg]
  · rfl
  · intro hlen
    have hall := List.takeWhile_eq_self_iff.1
      (List.IsPrefix.eq_of_length (List.takeWhile_prefix _) hlen) y hy
    rw [hends] at hall
    cases hall

/-- To take a handle back tells of nothing. -/
theorem events_of_ends (h : x.exchange.ends handle = true) : x.events = [] := by
  obtain ⟨⟨op, reply⟩, before, after⟩ := x
  cases op with
  | unregister ended => cases reply <;> rfl
  | _ => cases h

theorem flatMap_whileLive_singleton : (whileLive handle [x]).flatMap events = x.events := by
  rw [whileLive, List.takeWhile_cons]
  cases hends : x.exchange.ends handle with
  | true => exact (events_of_ends hends).symm
  | false => simp

end Episode

namespace World

/-- The exchanges that a model has had since a world in which nothing but the
listeners of the model writes to an inbox. -/
inductive Attended (m : Fin n) (inbox : Nat) (w : World n) : List (Episode n) → World n → Prop
  | start : Attended m inbox w [] w
  | exchange {log w'} (depth : Nat) {op : Operation (Listener n)} : Attended m inbox w log w' →
      op.Avoids inbox → (∀ i, i ≠ m → ∀ e ∈ w'[i].registry.listeners, e.2.Avoids inbox) →
      Attended m inbox w (log ++ [episode depth w' m op]) (perform depth w' (m, op)).1
  | elsewhere {log w' w''} : Attended m inbox w log w' → w''[m] = w'[m] →
      w''.inboxes[inbox]? = w'.inboxes[inbox]? → Attended m inbox w log w''

variable {m : Fin n} {inbox : Nat} {w w' w'' : World n} {log log' : List (Episode n)}

theorem Attended.trans (h : Attended m inbox w log w') (h' : Attended m inbox w' log' w'') :
    Attended m inbox w (log ++ log') w'' := by
  induction h' with
  | start => rwa [List.append_nil]
  | exchange depth _ hop hothers ih =>
      rw [← List.append_assoc]
      exact ih.exchange depth hop hothers
  | elsewhere _ heq hinbox ih => exact ih.elsewhere heq hinbox

theorem Attended.history (h : Attended m inbox w log w') :
    History m w (log.map (·.exchange)) w' := by
  induction h with
  | start => exact .start
  | exchange depth _ _ _ ih =>
      rw [List.map_append]
      exact ih.exchange depth _
  | elsewhere _ heq _ ih => exact ih.elsewhere heq

end World

namespace Reservation

open World

variable {ρ : Reservation n} {w w' : World n} {log : List (Episode n)} {received : List Event}

/-- Any call is for the model some exchanges and things aside. -/
theorem carries_attended (depth : Nat) {w : World n} {c : Call n} (h : c.2.Avoids ρ.inbox) :
    ρ.Carries (·[ρ.model].store.Sound)
      (fun w w' => ∃ log, Attended ρ.model ρ.inbox w log w') w (perform depth w c).1 := by
  have hR : ρ.Composes (·[ρ.model].store.Sound)
      fun w w' => ∃ log, Attended ρ.model ρ.inbox w log w' := by
    refine ⟨?_, ?_, ?_⟩
    · intro w w' haside hs
      rw [haside.model]
      exact hs
    · intro w w' haside
      exact ⟨[], Attended.start.elsewhere haside.model haside.inbox⟩
    · intro w w' w'' h h'
      obtain ⟨log, h⟩ := h
      obtain ⟨log', h'⟩ := h'
      exact ⟨log ++ log', h.trans h'⟩
  refine carries_perform hR ?_ depth h
  intro depth w op hop hheld hs
  have hhist : History ρ.model w _ (perform depth w (ρ.model, op)).1 :=
    History.start.exchange depth op
  exact ⟨(perform_delivers depth hop hheld hs).1, hhist.sound hs, _,
    Attended.start.exchange depth hop hheld.elsewhere⟩

theorem attended_run {calls : List (Call n)} (h : ∀ c ∈ calls, c.2.Avoids ρ.inbox)
    (hheld : ρ.Held w) (hs : w[ρ.model].store.Sound) :
    ∃ log, Attended ρ.model ρ.inbox w log (w.run calls) := by
  induction calls generalizing w with
  | nil => exact ⟨[], .start⟩
  | cons c rest ih =>
      obtain ⟨hheld', hs', log, hfirst⟩ :=
        carries_attended (n + 1) (h c List.mem_cons_self) hheld hs
      obtain ⟨log', hrest⟩ := ih (fun c hc => h c (List.mem_cons_of_mem _ hc)) hheld' hs'
      exact ⟨log ++ log', hfirst.trans hrest⟩

/-- The handle of the registration stays registered until it is taken back. -/
theorem mem_handles_perform (depth : Nat) (hs : w[ρ.model].store.Sound)
    (hgiven : ρ.handle ≤ w[ρ.model].registry.lastHandle) (op : Operation (Listener n)) :
    ρ.handle ∈ (perform depth w (ρ.model, op)).1[ρ.model].registry.handles ↔
      ρ.handle ∈ w[ρ.model].registry.handles ∧
        (episode depth w ρ.model op).exchange.ends ρ.handle = false := by
  obtain ⟨hhandles, -, hnew⟩ := perform_handles depth hs op
  have hold : ρ.handle ∉ (episode depth w ρ.model op).exchange.handle?.toList := by
    intro hmem
    simp only [episode] at hmem
    rw [hnew, List.mem_range'_1] at hmem
    omega
  rw [hhandles, List.mem_append, List.mem_filter, Bool.not_eq_true']
  exact or_iff_left hold

/-- What the inbox of a registration holds after an attended history. -/
theorem attended_delivers (h : Attended ρ.model ρ.inbox w log w') (hheld : ρ.Held w)
    (hs : w[ρ.model].store.Sound) (hlive : ρ.handle ∈ w[ρ.model].registry.handles)
    (hr : w.Received ρ.inbox received) :
    ρ.Kept w'[ρ.model].registry ∧
      (ρ.handle ∈ w'[ρ.model].registry.handles ↔
        ∀ x ∈ log, x.exchange.ends ρ.handle = false) ∧
      w'.Received ρ.inbox (received ++
        ((Episode.whileLive ρ.handle log).flatMap Episode.events).filter
          (ρ.listener.interest.wants ·.kind)) := by
  induction h with
  | start => exact ⟨hheld.here, iff_of_true hlive (by simp), by simpa [Episode.whileLive] using hr⟩
  | @exchange log w' depth op hatt hop hothers ih =>
      obtain ⟨hkept, hmem, hreceived⟩ := ih
      have hs' := hatt.history.sound hs
      have hmem' := mem_handles_perform depth hs' hkept.given op
      obtain ⟨hheld', hdelivers⟩ := perform_delivers depth hop ⟨hkept, hothers⟩ hs'
      refine ⟨hheld'.here, ?_, ?_⟩
      · rw [hmem', hmem, List.forall_mem_append, List.forall_mem_singleton]
      · have hmore := hdelivers _ hreceived
        by_cases hall : ∀ x ∈ log, x.exchange.ends ρ.handle = false
        · rw [Episode.whileLive_concat_of_live hall, List.flatMap_append,
            Episode.flatMap_whileLive_singleton, List.filter_append, ← List.append_assoc]
          rwa [hears_of_mem (hmem.2 hall), Episode.whileLive_of_live hall] at hmore
        · have hended : ∃ x ∈ log, x.exchange.ends ρ.handle = true := by
            simpa only [not_forall, Bool.not_eq_false, exists_prop] using hall
          rw [Episode.whileLive_concat_of_ended hended]
          rwa [hears_of_not_mem (hall ∘ hmem.1), List.filter_false, List.append_nil] at hmore
  | elsewhere _ heq hinbox ih =>
      obtain ⟨hkept, hmem, box, hbox, hrest⟩ := ih
      rw [heq]
      exact ⟨hkept, hmem, box, hinbox.trans hbox, hrest⟩

end Reservation

namespace World

variable {m : Fin n} {w₀ w w' : World n} {log : List (Episode n)}

/-- The snapshots of an attended history say all that has happened. -/
theorem Attended.replay {inbox : Nat} (h : Attended m inbox w log w') (hs : w[m].store.Sound) :
    (log.flatMap Episode.events).foldl Event.replay w[m].store.elements =
      w'[m].store.elements := by
  induction h with
  | start => rfl
  | exchange depth hatt _ _ ih =>
      rw [List.flatMap_append, List.flatMap_singleton, List.foldl_append, ih]
      exact (perform_told depth (hatt.history.sound hs) _).replay
  | elsewhere _ heq _ ih => rw [ih, heq]

theorem Attended.headings {inbox : Nat} (h : Attended m inbox w log w') (hs : w[m].store.Sound) :
    ∀ x ∈ log, x.events.map Event.heading = x.exchange.headings := by
  induction h with
  | start => intro x hx; cases hx
  | exchange depth hatt _ _ ih =>
      intro x hx
      rcases List.mem_append.1 hx with hx | hx
      · exact ih x hx
      · rw [List.mem_singleton.1 hx]
        exact (perform_told depth (hatt.history.sound hs) _).headings
  | elsewhere _ _ _ ih => exact ih

/-- A registration is held from its first moment on if nobody wrote to its
inbox before. -/
theorem held_register {ρ : Reservation n} (hcounted : w[ρ.model].registry.Counted)
    (hothers : ∀ i : Fin n, ∀ e ∈ w[i].registry.listeners, e.2.Avoids ρ.inbox)
    (hhandle : ρ.handle = w[ρ.model].registry.lastHandle + 1) :
    ρ.Held (w.replace ρ.model
      { w[ρ.model] with registry := (w[ρ.model].registry.register ρ.listener).1 }) := by
  refine ⟨?_, ?_⟩
  · rw [replace_getElem_self]
    refine ⟨hcounted.register _, Nat.le_of_eq hhandle, ?_, ?_⟩
    · intro e he heq
      rcases List.mem_append.1 he with he | he
      · have hle := hcounted.given e.1 (List.mem_map_of_mem he)
        omega
      · rw [List.mem_singleton.1 he]
    · intro e he hne
      rcases List.mem_append.1 he with he | he
      · exact hothers ρ.model e he
      · rw [List.mem_singleton.1 he] at hne
        exact absurd hhandle.symm hne
  · intro i hi
    rw [replace_getElem_of_ne hi]
    exact hothers i

/-- What a registration receives. The model was new at some time; its handles
have been 1, 2, 3 and so on since then, and unregistering one says whether it is
registered. Register a listener with an inbox of its own now. Whatever is then
done in the world, the inbox holds the events of the exchanges with the model
until the handle is taken back, those that the listener wants to hear of; the
answers say which events there are, and the snapshots say all that has happened
to the elements. -/
theorem attended_deliveries {policy : Policy} (hnew : w₀[m] = Model.empty policy)
    {before : List (Exchange n)} (h : History m w₀ before w) :
    (before.filterMap Exchange.handle? = List.range' 1 w[m].registry.lastHandle ∧
      ∀ depth handle outcome, (perform depth w (m, .unregister handle)).2 = .ok outcome →
        outcome = .unregistered (handle ∈ Exchange.live before)) ∧
      ∀ depth (l : Listener n) inbox handle, l.inbox = some inbox → l.CallsAvoid inbox →
        (∀ i : Fin n, ∀ e ∈ w[i].registry.listeners, e.2.Avoids inbox) → w.Received inbox [] →
        (perform depth w (m, .register l)).2 = .ok (.handle handle) →
        let w₁ := (perform depth w (m, .register l)).1
        (∀ calls : List (Call n), (∀ c ∈ calls, c.2.Avoids inbox) →
          ∃ log, Attended m inbox w₁ log (w₁.run calls)) ∧
        ∀ log w', Attended m inbox w₁ log w' →
          w'.Received inbox (((Episode.whileLive handle log).flatMap Episode.events).filter
            (l.interest.wants ·.kind)) ∧
          (∀ x ∈ log, x.events.map Event.heading = x.exchange.headings) ∧
          (l.interest = .all → (∀ x ∈ log, x.exchange.ends handle = false) →
            ∃ events, w'.Received inbox events ∧
              events.foldl Event.replay w[m].store.elements = w'[m].store.elements) := by
  obtain ⟨hcounted, hlive, hgiven⟩ := h.handles hnew
  have hs : w[m].store.Sound := by
    refine h.sound ?_
    rw [hnew]
    exact Store.sound_empty policy
  refine ⟨⟨hgiven, ?_⟩, ?_⟩
  · intro depth handle outcome hok
    rw [perform_unregister hok, ← hlive]
    exact congrArg Outcome.unregistered
      (Bool.eq_iff_iff.2 ((Registry.unregister_found _ _).trans decide_eq_true_iff.symm))
  · intro depth l inbox handle hwrites hcalls hothers hreceived hok w₁
    let ρ : Reservation n := ⟨m, handle, l, inbox, hwrites, hcalls⟩
    obtain ⟨hregister, hhandle⟩ := perform_register hok
    have hw₁ : w₁ = w.replace m { w[m] with registry := (w[m].registry.register l).1 } :=
      congrArg Prod.fst hregister
    have hheld : ρ.Held w₁ := by
      rw [hw₁]
      exact held_register hcounted hothers (Outcome.handle.inj hhandle)
    have hregistered : handle ∈ w₁[m].registry.handles := by
      rw [hw₁, replace_getElem_self, Registry.handles_register, Outcome.handle.inj hhandle]
      exact List.mem_append_right _ List.mem_cons_self
    have hstore : w₁[m].store = w[m].store := by
      rw [hw₁, replace_getElem_self]
    have hs₁ : w₁[m].store.Sound := hstore ▸ hs
    have hr₁ : w₁.Received inbox [] := by
      rw [hw₁]
      exact hreceived
    refine ⟨?_, ?_⟩
    · intro calls havoid
      exact Reservation.attended_run (ρ := ρ) havoid hheld hs₁
    · intro log w' hatt
      have hr : w'.Received inbox (((Episode.whileLive handle log).flatMap Episode.events).filter
          (l.interest.wants ·.kind)) :=
        (Reservation.attended_delivers (ρ := ρ) hatt hheld hs₁ hregistered hr₁).2.2
      refine ⟨hr, hatt.headings hs₁, ?_⟩
      intro hall hnever
      refine ⟨_, hr, ?_⟩
      have hwanted : ∀ events : List Event,
          events.filter (l.interest.wants ·.kind) = events := by
        intro events
        refine List.filter_eq_self.2 fun e _ => ?_
        rw [hall]
        cases e.kind <;> rfl
      rw [Episode.whileLive_of_live hnever, hwanted, ← hstore]
      exact hatt.replay hs₁

/-- The exchanges of `converse` with the stores before and after them. -/
def episodes (w : World n) (m : Fin n) : List (Operation (Listener n)) → List (Episode n)
  | [] => []
  | op :: rest => episode (n + 1) w m op :: episodes (w.call (m, op)).1 m rest

theorem attended_episodes {inbox : Nat} {ops : List (Operation (Listener 1))}
    (h : ∀ op ∈ ops, op.Avoids inbox) (w : World 1) :
    Attended 0 inbox w (w.episodes 0 ops) (w.converse 0 ops).2 := by
  induction ops generalizing w with
  | nil => exact .start
  | cons op rest ih =>
      have hothers : ∀ i : Fin 1, i ≠ 0 → ∀ e ∈ w[i].registry.listeners, e.2.Avoids inbox :=
        fun i hi => absurd (Subsingleton.elim i 0) hi
      exact (Attended.start.exchange 2 (h op List.mem_cons_self) hothers).trans
        (ih (fun op hop => h op (List.mem_cons_of_mem _ hop)) _)

/-- A listener that answers every event by taking a handle back. -/
def rival : Listener 1 :=
  .mk .all (fun _ => [(.last 0, .unregister 2)]) none

/-- A new model, and an inbox that nobody writes to. -/
def untold : World 1 := (start (.replicate 1 .ignore)).openInbox.1

/-- The same with a listener. -/
def overheard : World 1 := (untold.converse (.last 0) [.register rival]).2

/-- A run with a hidden element, a failure, a document and another listener. -/
def overheardRun : List (Operation (Listener 1)) :=
  [.add { key := "gain", value := .integer 1, exposed := false },
   .update "gain" (.boolean true),
   .add { key := "tone", value := .integer 1 },
   .register (.forwarder .all 1),
   .apply { state := [⟨"tone", .string "4"⟩, ⟨"gain", .string "2"⟩, ⟨"tone", .string "5"⟩] },
   .annotate "gain" "Gain",
   .remove "gain"]

theorem attended_deliveries_overheard :
    let first := (perform 2 overheard (0, .register (.forwarder .all 0))).1
    let last := (first.converse 0 overheardRun).2
    let later := (first.converse 0 (overheardRun ++
      [.unregister 2, .add { key := "late", value := .integer 1 }])).2
    (∃ events, last.Received 0 events ∧
      events.foldl Event.replay .empty = last[(0 : Fin 1)].store.elements) ∧
    ∃ events, later.Received 0 events ∧ events.map Event.heading =
      [(.schemaAdded, "gain", 1), (.elementChanged, "gain", 1), (.schemaAdded, "tone", 2),
       (.elementChanged, "tone", 2), (.elementChanged, "tone", 3), (.elementChanged, "tone", 4),
       (.schemaModified, "gain", 5), (.schemaRemoved, "gain", 6)] := by
  intro first last later
  have hrival : rival.Avoids 0 := by
    refine ⟨nofun, ?_⟩
    intro event c hc l hregister
    rw [List.mem_singleton.1 hc] at hregister
    cases hregister
  have hnew : untold[(0 : Fin 1)] = Model.empty .ignore := start_getElem (.replicate 1 .ignore) 0
  have hfirst : (perform 2 untold (0, .register rival)).2 = .ok (.handle 1) := by
    with_unfolding_all decide
  have hlisteners : overheard[(0 : Fin 1)].registry.listeners = [(1, rival)] := by
    show (perform 2 untold (0, .register rival)).1[(0 : Fin 1)].registry.listeners = _
    rw [(perform_register hfirst).1, replace_getElem_self, hnew]
    rfl
  have hothers : ∀ i : Fin 1, ∀ e ∈ overheard[i].registry.listeners, e.2.Avoids 0 := by
    intro i e he
    obtain rfl := Subsingleton.elim 0 i
    rw [hlisteners] at he
    rw [List.mem_singleton.1 he]
    exact hrival
  have hempty : overheard[(0 : Fin 1)].store.elements = .empty := by with_unfolding_all decide
  have hok : (perform 2 overheard (0, .register (.forwarder .all 0))).2 = .ok (.handle 2) := by
    with_unfolding_all decide
  have hforwarder : (Listener.forwarder .all 1 : Listener 1).Avoids 0 :=
    ⟨nofun, fun _ _ hc => nomatch hc⟩
  have havoid : ∀ op ∈ overheardRun ++
      [.unregister 2, .add { key := "late", value := .integer 1 }], op.Avoids 0 := by
    simp [overheardRun, Operation.Avoids, hforwarder]
  obtain ⟨-, hregister⟩ := attended_deliveries hnew (history_converse 0 untold [.register rival])
  obtain ⟨-, hdeliver⟩ := hregister 2 (.forwarder .all 0) 0 2 rfl (fun _ _ hc => nomatch hc)
    hothers ⟨{}, rfl, rfl, rfl⟩ hok
  refine ⟨?_, ?_⟩
  · have hnever : ∀ x ∈ first.episodes 0 overheardRun, x.exchange.ends 2 = false := by
      decide
    obtain ⟨-, -, hreplay⟩ := hdeliver _ last (attended_episodes
      (fun op hop => havoid op (List.mem_append_left _ hop)) first)
    rw [← hempty]
    exact hreplay rfl hnever
  · obtain ⟨hreceived, -, -⟩ := hdeliver _ later (attended_episodes havoid first)
    exact ⟨_, hreceived, by with_unfolding_all decide⟩

end World

end SharedState
