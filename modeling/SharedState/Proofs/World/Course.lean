import SharedState.Proofs.World.Frame

/-!
# What can happen in a world

A world is used from outside by calls, and besides by waits, by tokens for
cancelling waits and by inboxes. A course is any sequence of these. No call knows
of tokens, whatever its listeners do, so a token is cancelled in a course
exactly if the course says so.
-/

namespace SharedState

/-- What can happen in a world from outside. -/
inductive Happening (n : Nat)
  | call (c : Call n)
  | wait (m : Fin n) (now after : Nat) (timeout : Duration) (token : Nat)
  | waitAsync (m : Fin n) (after : Nat) (timeout : Duration)
  | newToken
  | cancel (token : Nat)
  | openInbox
  | drain (inbox : Nat)
  | closeInbox (inbox : Nat)

namespace World

variable {n : Nat} {w : World n} {token : Nat}

def happen (w : World n) : Happening n → World n
  | .call c => (w.call c).1
  | .wait m now after timeout token => (w.wait m now after timeout token).1
  | .waitAsync m after timeout => (w.waitAsync m after timeout).1
  | .newToken => w.newToken.1
  | .cancel token => w.cancel token
  | .openInbox => w.openInbox.1
  | .drain inbox => (w.drain inbox).1
  | .closeInbox inbox => w.closeInbox inbox

def course (w : World n) (happenings : List (Happening n)) : World n :=
  happenings.foldl happen w

theorem wait_models (w : World n) (m : Fin n) (now after : Nat) (timeout : Duration)
    (token : Nat) : (w.wait m now after timeout token).1.models = w.models := by
  rw [wait]
  split <;> rfl

theorem wait_tokens (w : World n) (m : Fin n) (now after : Nat) (timeout : Duration)
    (token : Nat) : (w.wait m now after timeout token).1.tokens = w.tokens := by
  rw [wait]
  split <;> rfl

theorem wait_snd (w : World n) (m : Fin n) (now after : Nat) (timeout : Duration) (token : Nat) :
    (w.wait m now after timeout token).2 =
      w[m].watch.wait now after timeout (w.isCancelled token) := by
  rw [wait]
  split <;> next h => exact h.symm

/-! ## Tokens -/

theorem tokens_frame (i : Fin n) : Frame (fun w w' => w'.tokens = w.tokens) i where
  trans h h' := h'.trans h
  own _ := rfl
  aside _ htokens := htokens

theorem perform_tokens (depth : Nat) (w : World n) (c : Call n) :
    (perform depth w c).1.tokens = w.tokens :=
  frame_perform tokens_frame depth w c

/-- What happens makes tokens or cancels one of them. -/
theorem happen_tokens (w : World n) (x : Happening n) :
    (w.happen x).tokens =
      match x with
      | .newToken => w.tokens ++ [false]
      | .cancel token => w.tokens.modify token fun _ => true
      | _ => w.tokens := by
  cases x with
  | call c => exact perform_tokens (n + 1) w c
  | wait m now after timeout token => exact wait_tokens w m now after timeout token
  | waitAsync | newToken | cancel | openInbox | drain | closeInbox => rfl

/-- A token that there is becomes cancelled by being cancelled, and in no other way. -/
theorem isCancelled_happen (htoken : token < w.tokens.length) (x : Happening n) :
    token < (w.happen x).tokens.length ∧
      ((w.happen x).isCancelled token = true ↔
        w.isCancelled token = true ∨ x = .cancel token) := by
  rw [isCancelled, isCancelled, happen_tokens]
  cases x with
  | newToken =>
      rw [List.getElem?_append_left htoken, List.length_append]
      exact ⟨by omega, by simp⟩
  | cancel other =>
      rw [List.length_modify, List.getElem?_modify]
      refine ⟨htoken, ?_⟩
      by_cases h : other = token
      · subst h
        simp [htoken]
      · simp [h]
  | call | wait | waitAsync | openInbox | drain | closeInbox => exact ⟨htoken, by simp⟩

theorem isCancelled_course (htoken : token < w.tokens.length) (happenings : List (Happening n)) :
    (w.course happenings).isCancelled token = true ↔
      w.isCancelled token = true ∨ .cancel token ∈ happenings := by
  induction happenings generalizing w with
  | nil => simp [course]
  | cons x rest ih =>
      obtain ⟨hlater, hfirst⟩ := isCancelled_happen htoken x
      show ((w.happen x).course rest).isCancelled token = true ↔ _
      rw [ih hlater, hfirst, List.mem_cons, or_assoc, eq_comm (a := x)]

/-- A new token is cancelled exactly if it is cancelled afterwards. -/
theorem isCancelled_newToken (w : World n) (happenings : List (Happening n)) :
    (w.newToken.1.course happenings).isCancelled w.newToken.2 = true ↔
      .cancel w.newToken.2 ∈ happenings := by
  have htoken : w.newToken.2 < w.newToken.1.tokens.length := by
    simp [newToken]
  have hlive : w.newToken.1.isCancelled w.newToken.2 = false := by
    simp [newToken, isCancelled]
  rw [isCancelled_course htoken, hlive]
  simp

end World

end SharedState
