import SharedState.Proofs.Waiting
import SharedState.Proofs.World.Course
import SharedState.Proofs.World.History
import SharedState.Proofs.World.Nesting

/-!
# The revision outside the guard

Three numbers stand for the revision of a model: its own, the one shown to
threads, and the one shown to tasks. A commit sets them one after another, and
whoever looks meanwhile from the listeners of the commit must find them equal
already. They are equal in every world that a course can lead to, and at every
telling in between: what a listener finds is what the commit that it is told of
has published, for nobody can get at a marked model.

What a wait makes of the numbers is settled in `Waiting.lean`. Here it is read
off for the worlds that there can be, with the tokens as they have been
cancelled by then.
-/

namespace SharedState

namespace World

variable {n : Nat} {m : Fin n} {w w' w'' : World n}

/-- Every revision is shown as it is. -/
def Mirrored (w : World n) : Prop :=
  ∀ m, w.currentRevision m = w[m].store.revision ∧ w[m].watch.channel = w[m].store.revision

/-- No revision is lower in the other world, and none is shown lower. -/
def Onward (w w' : World n) : Prop :=
  ∀ m, w[m].store.revision ≤ w'[m].store.revision ∧
    w.currentRevision m ≤ w'.currentRevision m ∧ w[m].watch.channel ≤ w'[m].watch.channel

theorem Mirrored.watch (h : w.Mirrored) (m : Fin n) :
    w[m].watch = .start w[m].store.revision := by
  obtain ⟨hcurrent, hchannel⟩ := h m
  rw [currentRevision] at hcurrent
  calc w[m].watch = ⟨w[m].watch.current, w[m].watch.channel⟩ := rfl
    _ = .start w[m].store.revision := by rw [hcurrent, hchannel]; rfl

theorem mirrored_of_watch (h : ∀ m : Fin n, w[m].watch = .start w[m].store.revision) : w.Mirrored := by
  intro m
  rw [currentRevision, h m]
  exact ⟨rfl, rfl⟩

theorem mirrored_start (policies : Vector Policy n) : (start policies).Mirrored := by
  refine mirrored_of_watch fun m => ?_
  rw [start_getElem]
  rfl

theorem Onward.trans (h : w.Onward w') (h' : w'.Onward w'') : w.Onward w'' := by
  intro m
  obtain ⟨hstore, hcurrent, hchannel⟩ := h m
  obtain ⟨hstore', hcurrent', hchannel'⟩ := h' m
  exact ⟨hstore.trans hstore', hcurrent.trans hcurrent', hchannel.trans hchannel'⟩

/-! ## What everything keeps to -/

/-- If revisions are shown as they are, they go on being so, and none decreases. -/
def KeepsUp (w w' : World n) : Prop := w.Mirrored → w'.Mirrored ∧ w.Onward w'

theorem KeepsUp.trans (h : w.KeepsUp w') (h' : w'.KeepsUp w'') : w.KeepsUp w'' := by
  intro hw
  obtain ⟨hw', honward⟩ := h hw
  obtain ⟨hw'', honward'⟩ := h' hw'
  exact ⟨hw'', honward.trans honward'⟩

theorem keepsUp_of_models (h : w'.models = w.models) : w.KeepsUp w' := by
  intro hw
  have hsame := getElem_of_models h
  refine ⟨mirrored_of_watch fun m => ?_, fun m => ?_⟩
  · rw [hsame]
    exact hw.watch m
  · rw [currentRevision, currentRevision, hsame]
    exact ⟨Nat.le_refl _, Nat.le_refl _, Nat.le_refl _⟩

/-- A model that evolves shows its new revision, and the others are as they were. -/
theorem keepsUp_replace {i : Fin n} {commits : List Commit} {model : Model n}
    (hev : w[i].Evolves commits model) : w.KeepsUp (w.replace i model) := by
  intro hw
  have hrevision : w[i].store.revision ≤ model.store.revision :=
    Nat.le.intro hev.revisions.1.symm
  have hmodel := hev.watch (hw.watch i)
  refine ⟨mirrored_of_watch fun m => ?_, fun m => ?_⟩
  · by_cases hm : m = i
    · subst hm
      rw [replace_getElem_self]
      exact hmodel
    · rw [replace_getElem_of_ne hm]
      exact hw.watch m
  · rw [currentRevision, currentRevision]
    by_cases hm : m = i
    · subst hm
      rw [replace_getElem_self, hmodel, hw.watch m]
      exact ⟨hrevision, hrevision, hrevision⟩
    · rw [replace_getElem_of_ne hm]
      exact ⟨Nat.le_refl _, Nat.le_refl _, Nat.le_refl _⟩

theorem keepsUp_frame (i : Fin n) : Frame KeepsUp i where
  trans := .trans
  own := keepsUp_replace
  aside hmodels _ := keepsUp_of_models hmodels

theorem keepsUp_happen (w : World n) (x : Happening n) : w.KeepsUp (w.happen x) := by
  cases x with
  | call c => exact frame_perform keepsUp_frame (n + 1) w c
  | wait m now after timeout token =>
      exact keepsUp_of_models (wait_models w m now after timeout token)
  | waitAsync | newToken | cancel | openInbox | drain | closeInbox => exact keepsUp_of_models rfl

theorem keepsUp_course (w : World n) (happenings : List (Happening n)) :
    w.KeepsUp (w.course happenings) := by
  induction happenings generalizing w with
  | nil => exact keepsUp_of_models rfl
  | cons x rest ih => exact (keepsUp_happen w x).trans (ih (w.happen x))

/-! ## Turns -/

theorem currentRevision_of_mem_toldBy {call : World n → Call n → World n × Reply}
    (hc : RespectsMarks call) {c : Call n} {t : Telling n} (h : t ∈ toldBy call w c) :
    t.world.currentRevision t.model = t.event.revision := by
  obtain ⟨-, s, done, hstep, htells⟩ := tellsCommit_of_mem_toldBy hc h
  rw [currentRevision, htells.model, htells.watch,
    hstep.events_revision t.event htells.event]
  rfl

/-- What calls keep to is kept to from the first turn to each of the turns under it, and
through each of them. -/
theorem frame_of_mem_turns {R : World n → World n → Prop} (hR : ∀ i, Frame R i) {depth : Nat}
    {nest : List (Fin n)} {c : Call n} {x : Turn n} (h : x ∈ turns depth nest w c) :
    R w x.before ∧ R x.before x.after ∧ ∀ t ∈ x.told, R x.before t.world := by
  induction depth generalizing nest w c with
  | zero =>
      cases List.mem_singleton.1 h
      exact ⟨(hR c.1).aside rfl rfl, (hR c.1).aside rfl rfl,
        fun _ ht => absurd ht List.not_mem_nil⟩
  | succ depth ih =>
      have hc := frame_perform hR depth
      rcases mem_turns_succ.1 h with rfl | ⟨t, ht, a, ha, h⟩
      · exact ⟨(hR c.1).aside rfl rfl, frame_perform hR (depth + 1) w c,
          fun t ht => frame_of_mem_toldBy (hR c.1) hc ht⟩
      · obtain ⟨hbefore, hrest⟩ := ih h
        have htold := frame_of_mem_toldBy (hR c.1) hc ht
        have hasked := frame_of_mem_asked (hR c.1) hc ha
        exact ⟨(hR c.1).trans ((hR c.1).trans htold hasked) hbefore, hrest⟩

theorem told_of_mem_turns {depth : Nat} {nest : List (Fin n)} {c : Call n} {x : Turn n}
    (h : x ∈ turns depth nest w c) :
    x.told = [] ∨ ∃ below, x.told = toldBy (perform below) x.before x.call := by
  induction depth generalizing nest w c with
  | zero =>
      cases List.mem_singleton.1 h
      exact .inl rfl
  | succ depth ih =>
      rcases mem_turns_succ.1 h with rfl | ⟨t, -, a, -, h⟩
      · exact .inr ⟨depth, rfl⟩
      · exact ih h

/-! ## Waits -/

/-- How waits on a model end while nothing is committed and nothing is cancelled. Whether the
token has been cancelled before is `spent`. -/
structure AnswersWaits (w : World n) (m : Fin n) (token : Nat) (spent : Prop) : Prop where
  advanced : ∀ now after timeout revision,
    (w.wait m now after timeout token).2 = some (.advanced revision) ↔
      revision = w[m].store.revision ∧ after < w[m].store.revision
  cancelled : ∀ now after timeout, (w.wait m now after timeout token).2 = some .cancelled ↔
    ¬ after < w[m].store.revision ∧ spent
  timedOut : ∀ now after timeout, (w.wait m now after timeout token).2 = some .timedOut ↔
    ¬ after < w[m].store.revision ∧ ¬ spent ∧ (Watch.deadline? now timeout).isSome
  /-- Being woken for nothing makes no difference to a thread. -/
  blocked : ∀ now after timeout wakings,
    let found : Watch.Glance := ⟨w.currentRevision m, w.isCancelled token⟩
    (∀ waking ∈ wakings, waking = found) →
      Watch.block after ((Watch.deadline? now timeout).map fun _ => w.currentRevision m) found
        wakings = (w.wait m now after timeout token).2
  /-- Being polled for nothing makes no difference to a task. -/
  attended : ∀ after timeout polls, (∀ poll ∈ polls, poll = w[m].watch.channel) →
    Watch.attend after w[m].watch.channel polls = (w.waitAsync m after timeout).2
  /-- A task waits as a thread does whose wait has a deadline and is not cancelled. -/
  task : ¬ spent → ∀ now after timeout, (Watch.deadline? now timeout).isSome →
    (w.wait m now after timeout token).2 = some (w.waitAsync m after timeout).2

theorem answersWaits (hwatch : w[m].watch = .start w[m].store.revision) (token : Nat) :
    AnswersWaits w m token (w.isCancelled token = true) where
  advanced now after timeout revision := by
    rw [wait_snd, Watch.wait_eq_advanced_iff, hwatch]
    rfl
  cancelled now after timeout := by
    rw [wait_snd, Watch.wait_eq_cancelled_iff, hwatch]
    rfl
  timedOut now after timeout := by
    rw [wait_snd, Watch.wait_eq_timedOut_iff, hwatch, Bool.not_eq_true]
    rfl
  blocked now after timeout wakings := by
    intro found hquiet
    rw [Watch.block_of_quiet hquiet, wait_snd]
    rfl
  attended after timeout polls hquiet := by
    rw [Watch.attend_of_quiet hquiet]
    exact (Watch.waitAsync_eq w[m].watch after timeout).symm
  task hlive now after timeout hdeadline := by
    have hshown : w[m].watch.current = w[m].watch.channel := by
      rw [hwatch]
      rfl
    rw [wait_snd, Bool.eq_false_iff.2 hlive, Watch.wait_eq_waitAsync hshown hdeadline]
    rfl

/-- In all that can come of a new world, revisions are shown to threads and to tasks as they
are, and none decreases, not even on the way from one call to the next that a listener makes.
Whoever is told of an event finds its revision shown already. And waits end by what is shown:
at once if it is newer, otherwise by the token if that has been cancelled since it was made,
otherwise at the deadline if there is one. -/
theorem revision_shown (policies : Vector Policy n) :
    (∀ past, let w := (start policies).course past
      w.Mirrored ∧ (∀ later, w.Onward (w.course later)) ∧
      ∀ c, ∀ x ∈ turns (n + 1) w.dispatching w c,
        x.before.Mirrored ∧ w.Onward x.before ∧ x.after.Mirrored ∧ x.before.Onward x.after ∧
        ∀ t ∈ x.told, t.world.Mirrored ∧ x.before.Onward t.world ∧
          t.world.currentRevision t.model = t.event.revision) ∧
    ∀ past later m, let made := ((start policies).course past).newToken
      AnswersWaits (made.1.course later) m made.2 (.cancel made.2 ∈ later) := by
  have hpast : ∀ past, ((start policies).course past).Mirrored :=
    fun past => (keepsUp_course _ past (mirrored_start policies)).1
  constructor
  · intro past w
    have hw : w.Mirrored := hpast past
    refine ⟨hw, fun later => (keepsUp_course w later hw).2, fun c x hx => ?_⟩
    obtain ⟨hbefore, hafter, htold⟩ := frame_of_mem_turns keepsUp_frame hx
    obtain ⟨hmirrored, honward⟩ := hbefore hw
    obtain ⟨hmirrored', honward'⟩ := hafter hmirrored
    refine ⟨hmirrored, honward, hmirrored', honward', fun t ht => ?_⟩
    obtain ⟨hmirrored'', honward''⟩ := htold t ht hmirrored
    refine ⟨hmirrored'', honward'', ?_⟩
    rcases told_of_mem_turns hx with hnone | ⟨below, hsome⟩
    · rw [hnone] at ht
      cases ht
    · rw [hsome] at ht
      exact currentRevision_of_mem_toldBy (perform_respectsMarks below) ht
  · intro past later m made
    have hmade : made.1.Mirrored := (keepsUp_of_models rfl (hpast past)).1
    have hlater := (keepsUp_course made.1 later hmade).1
    have hwaits := answersWaits (hlater.watch m) made.2
    rwa [isCancelled_newToken] at hwaits

/-- An element is added to a new model, and a listener that only listens. -/
def prepared : List (Happening 1) :=
  [.call (.last 0, .add { key := "gain", value := .integer 1 }),
   .call (.last 0, .register (.mk .all (fun _ => []) none))]

/-- The prepared world with a token, and the token. -/
def tokenMade : World 1 × Nat := ((start (.replicate 1 .ignore)).course prepared).newToken

theorem revision_shown_tokenMade :
    let live := tokenMade.1
    let spent := live.course [.cancel tokenMade.2]
    (live.wait 0 5 1 ⟨0⟩ tokenMade.2).2 = some .timedOut ∧
      (live.waitAsync 0 1 ⟨0⟩).2 = .timedOut ∧
      (spent.wait 0 5 0 ⟨0⟩ tokenMade.2).2 = some (.advanced 1) ∧
      (spent.wait 0 5 1 .longest tokenMade.2).2 = some .cancelled ∧
      ∀ x ∈ turns 2 live.dispatching live (0, .remove "gain"), ∀ t ∈ x.told,
        t.world.currentRevision t.model = t.event.revision := by
  intro live spent
  obtain ⟨hshown, hwaits⟩ := revision_shown (.replicate 1 .ignore)
  have hlive : AnswersWaits live 0 tokenMade.2 (Happening.cancel tokenMade.2 ∈ []) :=
    hwaits prepared [] 0
  have hspent := hwaits prepared [.cancel tokenMade.2] 0
  have hrevision : live[(0 : Fin 1)].store.revision = 1 := by with_unfolding_all decide
  have hrevision' : spent[(0 : Fin 1)].store.revision = 1 := by with_unfolding_all decide
  have hdeadline : (Watch.deadline? 5 ⟨0⟩).isSome := by decide
  have htimedOut : (live.wait 0 5 1 ⟨0⟩ tokenMade.2).2 = some .timedOut := by
    rw [hlive.timedOut, hrevision]
    exact ⟨by omega, List.not_mem_nil, hdeadline⟩
  have htask := hlive.task List.not_mem_nil 5 1 ⟨0⟩ hdeadline
  refine ⟨htimedOut, Option.some.inj (htask.symm.trans htimedOut), ?_, ?_, ?_⟩
  · refine (hspent.advanced 5 0 ⟨0⟩ 1).2 ⟨hrevision'.symm, ?_⟩
    exact hrevision'.symm ▸ Nat.zero_lt_one
  · refine (hspent.cancelled 5 1 .longest).2 ⟨?_, List.mem_cons_self⟩
    exact hrevision'.symm ▸ Nat.lt_irrefl 1
  · intro x hx t ht
    obtain ⟨-, -, htold⟩ := hshown (prepared ++ [.newToken])
    obtain ⟨-, -, -, -, hfound⟩ := htold _ x hx
    exact (hfound t ht).2.2

end World

end SharedState
