import SessionCapture.Proofs.InPlace

/-!
# Events that leave no trace

An event that fails leaves the context as it found it, and so does every event
that is neither a reset nor a challenge.  Such events can be deleted from a
history: the others are answered as before, and the context after all of them is
the same.
-/

namespace SessionCapture

/-- What is left of a list when the elements at some positions are deleted. -/
def without {α : Type} (deleted : Nat → Bool) (items : List α) : List α :=
  (items.zipIdx.filter fun (_, index) => !deleted index).map (·.1)

section Without

variable {α β : Type} {deleted : Nat → Bool}

private theorem filter_zipIdx_one (items : List α) :
    ((items.zipIdx 1).filter fun (_, index) => !deleted index).map (·.1) =
      without (fun index => deleted (index + 1)) items := by
  rw [without, List.zipIdx_succ, List.filter_map, List.map_map]
  rfl

theorem without_cons_of_deleted (first : deleted 0 = true) (item : α)
    (items : List α) :
    without deleted (item :: items) =
      without (fun index => deleted (index + 1)) items := by
  rw [without, List.zipIdx_cons, List.filter_cons_of_neg (by simp [first])]
  exact filter_zipIdx_one items

theorem without_cons_of_kept (first : deleted 0 = false) (item : α)
    (items : List α) :
    without deleted (item :: items) =
      item :: without (fun index => deleted (index + 1)) items := by
  rw [without, List.zipIdx_cons, List.filter_cons_of_pos (by simp [first]),
    List.map_cons]
  exact congrArg (item :: ·) (filter_zipIdx_one items)

theorem map_without (f : α → β) (items : List α) :
    (without deleted items).map f = without deleted (items.map f) := by
  induction items generalizing deleted with
  | nil => rfl
  | cons item items induction =>
      rw [List.map_cons]
      cases first : deleted 0 with
      | true =>
          rw [without_cons_of_deleted first, without_cons_of_deleted first,
            induction]
      | false =>
          rw [without_cons_of_kept first, without_cons_of_kept first,
            List.map_cons, induction]

end Without

/-- An event that has failed, or could not have changed a context. -/
def EventInput.Traceless (event : EventInput)
    (answer : Except InterpretError (List Remark)) : Prop :=
  (∃ error, answer = .error error) ∨
    event.1 ≠ .controlReset ∧ event.1 ≠ .newChallenge

namespace Context

variable {context : Context}

theorem step_of_traceless {event : EventInput}
    (traceless : event.Traceless (context.step event.1 event.2).1) :
    (context.step event.1 event.2).2 = context := by
  rcases traceless with ⟨error, failed⟩ | ⟨noReset, noChallenge⟩
  · rw [InPlace.step_eq_settle] at failed ⊢
    cases interpreted : context.interpret event.1 event.2 with
    | ok reached =>
        rw [interpreted] at failed
        cases failed
    | error found => rfl
  · exact context.step_of_stateless noReset noChallenge event.2

/-- Without events that leave no trace a run is what it was, less the answers to
them. -/
theorem run_without {deleted : Nat → Bool} {events : List EventInput}
    (traceless : ∀ index event answer, deleted index = true →
      events[index]? = some event → (context.run events)[index]? = some answer →
      event.Traceless answer.1) :
    context.run (without deleted events) =
        without deleted (context.run events) ∧
      context.after (without deleted events) = context.after events := by
  induction events generalizing context deleted with
  | nil => exact ⟨rfl, rfl⟩
  | cons event later induction =>
      let next := (context.step event.1 event.2).2
      have rest : next.run (without (fun index => deleted (index + 1)) later) =
            without (fun index => deleted (index + 1)) (next.run later) ∧
          next.after (without (fun index => deleted (index + 1)) later) =
            next.after later := by
        apply induction
        intro index found answer chosen listed answered
        exact traceless (index + 1) found answer chosen listed answered
      have ran : context.run (event :: later) =
          context.step event.1 event.2 :: next.run later := rfl
      have left : context.after (event :: later) = next.after later := rfl
      rw [ran, left]
      cases first : deleted 0 with
      | true =>
          have kept : next = context :=
            step_of_traceless (traceless 0 event _ first rfl rfl)
          rw [without_cons_of_deleted first, without_cons_of_deleted first]
          rw [kept] at rest ⊢
          exact rest
      | false =>
          rw [without_cons_of_kept first, without_cons_of_kept first,
            ← rest.1, ← rest.2]
          exact ⟨rfl, rfl⟩

end Context

namespace InPlace

/-- Deleting events that failed, or that are neither resets nor challenges, from
what an interpreter is given leaves all other answers and the final context as
they are, and the contexts in between too. -/
theorem traceless_events_deletable (registry : Registry)
    (events : List EventInput) (deleted : Nat → Bool)
    (traceless : ∀ index event answer, deleted index = true →
      events[index]? = some event →
      (answers events (.fresh registry)).1[index]? = some answer →
      event.Traceless answer) :
    answers (without deleted events) (.fresh registry) =
        (without deleted (answers events (.fresh registry)).1,
          (answers events (.fresh registry)).2) ∧
      (Context.fresh registry).run (without deleted events) =
        without deleted ((Context.fresh registry).run events) := by
  rw [answers_eq_run] at traceless
  have each : ∀ index event answer, deleted index = true →
      events[index]? = some event →
      ((Context.fresh registry).run events)[index]? = some answer →
      event.Traceless answer.1 := by
    intro index event answer chosen listed answered
    apply traceless index event answer.1 chosen listed
    rw [List.getElem?_map, answered]
    rfl
  obtain ⟨ran, left⟩ := Context.run_without each
  refine ⟨?_, ran⟩
  rw [answers_eq_run, answers_eq_run, ran, left, map_without]

/-- A reset to pairs of attributes. -/
def pairs : ControlReset :=
  ⟨⟨2, 9, 1⟩, "grid", "random", ControlReset.defaultGeometry⟩

/-- A challenge that does not split into pairs, a secret and a reset without a
value size are deleted around a challenge that is stored and the response to it.
-/
theorem ragged_challenge_deletable :
    let ragged : EventInput := (.newChallenge, [7])
    let secret : EventInput := (.newSecret, [1, 4])
    let unread : EventInput := (.controlReset, [2, 0])
    let kept : List EventInput :=
      [(.controlReset, pairs.payload), (.newChallenge, [3, 5]),
        (.submit, [1, 0])]
    let events : List EventInput :=
      [(.controlReset, pairs.payload), ragged, (.newChallenge, [3, 5]), secret,
        unread, (.submit, [1, 0])]
    let deleted := fun index => index == 1 || index == 3 || index == 4
    let whole := answers events (.fresh .builtin)
    whole.1[1]? = some (.error (.malformed .newChallenge (.ragged 1 2))) ∧
    whole.1[4]? = some (.error (.malformed .controlReset (.zero "valSize"))) ∧
    answers kept (.fresh .builtin) = (without deleted whole.1, whole.2) := by
  intro ragged secret unread kept events deleted whole
  have second : whole.1[1]? =
      some (.error (.malformed .newChallenge (.ragged 1 2))) := by
    change (answers events (.fresh .builtin)).1[1]? = _
    rw [answers_eq_run]
    decide
  have fifth : whole.1[4]? =
      some (.error (.malformed .controlReset (.zero "valSize"))) := by
    change (answers events (.fresh .builtin)).1[4]? = _
    rw [answers_eq_run]
    decide
  have same := traceless_events_deletable .builtin events deleted (by
    intro index event answer chosen listed answered
    have position : index = 1 ∨ index = 3 ∨ index = 4 := by
      simpa [deleted, or_assoc] using chosen
    rcases position with rfl | rfl | rfl
    · cases second.symm.trans answered
      exact .inl ⟨_, rfl⟩
    · cases listed
      exact .inr ⟨nofun, nofun⟩
    · cases fifth.symm.trans answered
      exact .inl ⟨_, rfl⟩)
  exact ⟨second, fifth, same.1⟩

end InPlace

end SessionCapture
