import SharedState.Http.Service
import SharedState.Proofs.Json.Value
import SharedState.Proofs.Store.Offence
import SharedState.Proofs.World.Description
import SharedState.Proofs.World.Emission

/-!
# How submissions are answered

A client that submits bytes learns from the status whose fault it is if they
are not applied, and from the content which key is to blame. Both can be said
in advance from the bytes and the store: `Store.offender?` names the first
offender of a document, and its offence has a status. Nothing else is ever
answered. The errors that would be answered otherwise are raised by functions
that applying a document does call, but never in a situation in which it calls
them.
-/

namespace SharedState

namespace Http

/-- The key that the content of an answer blames, as a client reads it. -/
def Response.blamed? (response : Response) : Option Json :=
  match Json.parse? response.body.toUTF8 with
  | some (.object members) => Json.member? "key" members
  | _ => none

theorem Response.blamed?_refusal (error : Error) :
    (Response.refusal error).blamed? = some ((error.key?.map Json.string).getD .null) := by
  have hkey : ((error.key?.map Json.string).getD .null).depth = 0 ∧
      ((error.key?.map Json.string).getD .null).canonical =
        (error.key?.map Json.string).getD .null := by
    cases error.key? <;> exact ⟨rfl, rfl⟩
  have hflat : ∀ member ∈ [("success", Json.bool false), ("error", .string error.message),
      ("key", (error.key?.map Json.string).getD .null)],
      member.2.depth ≤ 0 ∧ member.2.canonical = member.2 := by
    simp only [List.forall_mem_cons]
    exact ⟨⟨Nat.le_refl 0, rfl⟩, ⟨Nat.le_refl 0, rfl⟩, ⟨Nat.le_of_eq hkey.1, hkey.2⟩, nofun⟩
  have hdepth := Json.depth_ofMembers_le fun member hm => (hflat member hm).1
  rw [blamed?, refusal, json, Json.parse?_render, if_pos (hdepth.trans (by decide)),
    Json.canonical_ofMembers fun member hm => (hflat member hm).2]
  simp [Json.ofMembers, Json.member?, KeyMap.lookup_insertEntry]

/-- The refusal for an offence tells whose fault it is. -/
theorem Response.refusal_of_raises {offence : Offence} {key : String} {error : Error}
    (h : offence.Raises key error) :
    (Response.refusal error).status = offence.status ∧
      (Response.refusal error).blamed? = some (.string key) := by
  refine ⟨h.status_eq, ?_⟩
  rw [blamed?_refusal, h.key?_eq]
  rfl

end Http

namespace World

variable {n : Nat} {m : Fin n} {w : World n} {doc : Document}
  {call : World n → Call n → World n × Reply}

/-- A document is applied unless there is an offender, and refused for that. -/
theorem applyDocument_endsFor (hc : RespectsMarks call) (hs : w[m].store.Sound)
    (doc : Document) :
    match w[m].store.offender? doc with
    | none => (applyDocument call w m doc).2 = .ok (.report (w[m].store.reportFor doc))
    | some (offence, key) => ∃ error, offence.Raises key error ∧
        (applyDocument call w m doc).2 = .error error := by
  have hplan := hs.plan_endsFor doc
  rw [applyDocument_reply hc hs]
  split
  · next hoffender =>
    rw [hoffender] at hplan
    obtain ⟨plan, hplan⟩ := hplan
    rw [hplan]
    rfl
  · next hoffender =>
    rw [hoffender] at hplan
    obtain ⟨error, hplan, hraises⟩ := hplan
    rw [hplan]
    exact ⟨error, hraises, rfl⟩

/-- A request to submit updates is answered as the submission is. -/
theorem answer_updates {settings : Settings} {request : Http.Request}
    (hpost : request.method = "POST") (hpath : request.path = Http.Route.updates.path)
    (hsize : request.body.size ≤ settings.maxDocumentBytes) (w : World n) (m : Fin n) :
    Http.answer settings w m request = Http.answerCall w (m, .submit request.body) := by
  have hroute : Http.Route.ofPath? Http.Route.updates.path = some .updates := by decide
  have hmethod : ¬ "POST" = "OPTIONS" := by decide
  have hsame : "POST" = Http.Route.updates.method := rfl
  simp only [Http.answer, hpost, hpath, hroute, if_neg hmethod, if_pos hsame, Http.answerAt,
    if_neg (Nat.not_lt.2 hsize)]

/-- If the submission fails, so does the request, and nothing has happened. -/
theorem answer_updates_of_error (hs : w[m].store.Sound) {settings : Settings}
    {request : Http.Request} (hpost : request.method = "POST")
    (hpath : request.path = Http.Route.updates.path)
    (hsize : request.body.size ≤ settings.maxDocumentBytes) {error : Error}
    (herror : (w.call (m, .submit request.body)).2 = .error error) :
    (Http.answer settings w m request).2 = some (.refusal error) ∧
      Untouched m w (Http.answer settings w m request).1 := by
  rw [answer_updates hpost hpath hsize]
  refine ⟨?_, perform_untouched (n + 1) hs herror⟩
  show some (Http.Response.ofReply (w.call (m, .submit request.body)).2) = _
  rw [herror]
  rfl

/-- However a document came, an application that fails fails for the first offender. -/
theorem offender_of_error (hs : w[m].store.Sound) (hfree : m ∉ w.dispatching) {depth : Nat}
    {op : Operation (Listener n)} {error : Error} (hread : readDocument op = .apply doc)
    (herror : (perform (depth + 1) w (m, op)).2 = .error error) :
    ∃ offence key, w[m].store.offender? doc = some (offence, key) ∧ offence.Raises key error := by
  have hends := applyDocument_endsFor (perform_respectsMarks depth) hs doc
  rw [perform_of_readDocument hfree hread] at herror
  split at hends
  · rw [hends] at herror
    cases herror
  · next offence key hoffender =>
    obtain ⟨error', hraises, herror'⟩ := hends
    rw [herror'] at herror
    cases herror
    exact ⟨offence, key, hoffender, hraises⟩

/-- A submission that is not too long is answered, and with one of three statuses. If it is
not applied, nothing has happened. It is not applied if the bytes are no document, which
blames no key, or if there is an offender in the document, and then the first one is blamed,
with the status that belongs to its offence. No application fails in another way. -/
theorem submission_answered (hr : Reachable m w) (hfree : m ∉ w.dispatching)
    {settings : Settings} {request : Http.Request} (hpost : request.method = "POST")
    (hpath : request.path = Http.Route.updates.path)
    (hsize : request.body.size ≤ settings.maxDocumentBytes) :
    let s := w[m].store
    let result := Http.answer settings w m request
    (∃ response, result.2 = some response ∧ response.status ∈ [200, 400, 409] ∧
      (response.status ≠ 200 → Untouched m w result.1) ∧
      match Document.parse? request.body with
      | none => response = .refusal .malformedDocument ∧ response.status = 400 ∧
          response.blamed? = some .null
      | some doc =>
        match s.offender? doc with
        | none => response = .json 200 (Http.reportText (s.reportFor doc))
        | some (offence, key) => ∃ error, offence.Raises key error ∧
            response = .refusal error ∧ response.status = offence.status ∧
            response.blamed? = some (.string key)) ∧
      ∀ depth op doc error, readDocument op = .apply doc →
        (perform (depth + 1) w (m, op)).2 = .error error →
        ∃ offence key, s.offender? doc = some (offence, key) ∧ offence.Raises key error := by
  intro s result
  have hs : s.Sound := hr.sound
  have hrefused : ∀ error, (w.call (m, .submit request.body)).2 = .error error →
      result.2 = some (.refusal error) ∧ Untouched m w result.1 :=
    fun _ => answer_updates_of_error hs hpost hpath hsize
  refine ⟨?_, fun _ _ _ _ hread herror => offender_of_error hs hfree hread herror⟩
  cases hdoc : Document.parse? request.body with
  | none =>
      obtain ⟨hanswer, huntouched⟩ := hrefused _ (submit_of_not_parse hfree hdoc)
      exact ⟨_, hanswer, by decide, fun _ => huntouched, rfl, rfl,
        Http.Response.blamed?_refusal .malformedDocument⟩
  | some doc =>
      have happly : w.call (m, .submit request.body) = applyDocument (perform n) w m doc :=
        submit_of_parse hfree hdoc
      have hends := applyDocument_endsFor (perform_respectsMarks n) hs doc
      rw [← happly] at hends
      simp only
      cases hoffender : s.offender? doc with
      | none =>
          rw [hoffender] at hends
          have hanswer : result.2 = some (.json 200 (Http.reportText (s.reportFor doc))) := by
            show (Http.answer settings w m request).2 = _
            rw [answer_updates hpost hpath hsize]
            exact congrArg (some ∘ Http.Response.ofReply) hends
          exact ⟨_, hanswer, List.mem_cons_self, fun h => absurd rfl h, rfl⟩
      | some offender =>
          obtain ⟨offence, key⟩ := offender
          rw [hoffender] at hends
          obtain ⟨error, hraises, herror⟩ := hends
          obtain ⟨hanswer, huntouched⟩ := hrefused error herror
          obtain ⟨hstatus, hblamed⟩ := Http.Response.refusal_of_raises hraises
          refine ⟨_, hanswer, ?_, fun _ => huntouched, error, hraises, rfl, hstatus, hblamed⟩
          rw [hstatus]
          cases offence <;> decide

/-- A model that lets no unknown key pass. -/
def strict : World 1 :=
  ((start (.replicate 1 .reject)).converse (.last 0)
    [.add { key := "gain", value := .integer 1, constraint := .range (.integer 0) (.integer 8) },
     .add { key := "mode", value := .string "a", exposed := false },
     .add { key := "tone", value := .boolean true }]).2

/-- The request to submit a document. -/
def submission (doc : Document) : Http.Request :=
  { method := "POST", target := "/updateState".toList, body := doc.toBytes }

/-- Documents with several things wrong in them, and one with a hidden key. -/
def misdeclared : Document :=
  { schema := some ⟨[⟨"mode", .float, none, none⟩, ⟨"tone", .string, none, none⟩]⟩,
    state := [⟨"gain", .string "9"⟩] }

def overdone : Document :=
  { state := [⟨"tone", .bool false⟩, ⟨"gain", .string "9"⟩, ⟨"tone", .null⟩] }

def secretive : Document :=
  { state := [⟨"mode", .string "b"⟩, ⟨"gain", .string "9"⟩] }

theorem submission_answered_strict :
    let blame doc := (Http.answer {} strict 0 (submission doc)).2.map fun response =>
      (response.status, response.blamed?)
    blame misdeclared = some (409, some (.string "tone")) ∧
      blame overdone = some (409, some (.string "gain")) ∧
      blame secretive = some (400, some (.string "mode")) := by
  intro blame
  have hr : Reachable 0 strict :=
    ⟨_, start (.replicate 1 .reject), start_getElem _ 0, _, history_converse _ _ _⟩
  have hfree : (0 : Fin 1) ∉ strict.dispatching :=
    free_converse (.last 0) _ List.not_mem_nil
  have hpath : ∀ doc, (submission doc).path = Http.Route.updates.path := by
    intro doc
    with_unfolding_all rfl
  have hfits : ∀ doc ∈ [misdeclared, overdone, secretive], doc.Fits := by
    simp [Document.Fits, Schema.Fits, Shape.Fits, misdeclared, overdone, secretive, Text.maxWord]
  have hread : ∀ doc ∈ [misdeclared, overdone, secretive],
      doc.canonical = doc ∧ doc.toNode.depth ≤ Json.maxDepth := by
    decide
  -- Only the kernel gets through the bytes of the documents in good time.
  have hsize : ∀ doc ∈ [misdeclared, overdone, secretive],
      doc.toBytes.size ≤ ({} : Settings).maxDocumentBytes := by
    decide +kernel
  have hblame : ∀ doc ∈ [misdeclared, overdone, secretive], ∀ offence key,
      strict[(0 : Fin 1)].store.offender? doc = some (offence, key) →
      blame doc = some (offence.status, some (.string key)) := by
    intro doc hdoc offence key hoffender
    have hparse : Document.parse? doc.toBytes = some doc := by
      rw [Document.parse?_toBytes (hfits doc hdoc), if_pos (hread doc hdoc).2, (hread doc hdoc).1]
    obtain ⟨⟨response, hanswer, -, -, hmatch⟩, -⟩ :=
      submission_answered hr hfree (rfl : (submission doc).method = "POST") (hpath doc)
        (hsize doc hdoc)
    simp only [submission, hparse, hoffender] at hmatch
    obtain ⟨error, -, -, hstatus, hblamed⟩ := hmatch
    simp only [blame, hanswer, Option.map_some, hstatus, hblamed]
  refine ⟨hblame misdeclared (by simp) .shape "tone" ?_,
    hblame overdone (by simp) .inadmissible "gain" ?_,
    hblame secretive (by simp) .unknown "mode" ?_⟩ <;> with_unfolding_all decide

end World

end SharedState
