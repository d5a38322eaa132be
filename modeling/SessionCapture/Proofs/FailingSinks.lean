import SessionCapture.Proofs.LiveDecode

/-!
# Sinks that fail

A sink that takes so many lines and fails from then on is left with as many
lines of the transcript as it takes.  The line it fails at is the next one, and
the last one it is handed: the decode ends there, with the sink's error.
-/

namespace SessionCapture

section Receivers

variable {ε σ : Type} {emit : Line → ExceptT ε (StateM σ) Unit}
  {line : Line} {state next : σ}

theorem run_forM_of_ok (taken : (emit line).run.run state = (.ok (), next))
    (lines : List Line) :
    ((line :: lines).forM emit).run.run state =
      (lines.forM emit).run.run next := by
  change (emit line >>= fun _ => lines.forM emit).run.run state = _
  rw [ExceptT.run_bind, StateT.run_bind, taken]
  rfl

theorem run_forM_of_error {error : ε}
    (refused : (emit line).run.run state = (.error error, next))
    (lines : List Line) :
    ((line :: lines).forM emit).run.run state = (.error error, next) := by
  change (emit line >>= fun _ => lines.forM emit).run.run state = _
  rw [ExceptT.run_bind, StateT.run_bind, refused]
  rfl

/-- The report follows if all lines are taken. -/
theorem Transcript.run_emitTo {transcript : Transcript}
    {result : Except ε PUnit}
    (ran : (transcript.lines.forM emit).run.run state = (result, next)) :
    (transcript.emitTo emit).run.run state =
      (result.map fun _ => transcript.report, next) := by
  unfold Transcript.emitTo
  rw [ExceptT.run_bind, StateT.run_bind, ran]
  cases result <;> rfl

end Receivers

/-- What such a sink has taken, and all it was handed, taken or not. -/
structure FailingSink where
  held : List Line
  offered : List Line

namespace FailingSink

variable {ε : Type} {limit room : Nat} {failure : Line → ε}
  {line : Line}

def empty : FailingSink :=
  ⟨[], []⟩

/-- Takes `limit` lines.  The error may depend on the line that is refused. -/
def emit (limit : Nat) (failure : Line → ε) (line : Line) :
    ExceptT ε (StateM FailingSink) Unit := fun sink =>
  let offered := sink.offered ++ [line]
  if sink.held.length < limit then
    (.ok (), ⟨sink.held ++ [line], offered⟩)
  else
    (.error (failure line), ⟨sink.held, offered⟩)

theorem run_emit_of_room {sink : FailingSink}
    (roomy : sink.held.length < limit) :
    (emit limit failure line).run.run sink =
      (.ok (), ⟨sink.held ++ [line], sink.offered ++ [line]⟩) :=
  if_pos roomy

theorem run_emit_of_full {sink : FailingSink}
    (full : sink.held.length = limit) :
    (emit limit failure line).run.run sink =
      (.error (failure line), ⟨sink.held, sink.offered ++ [line]⟩) :=
  if_neg (Nat.not_lt.mpr (Nat.le_of_eq full.symm))

theorem run_forM (sink : FailingSink)
    (roomy : sink.held.length + room = limit) (lines : List Line) :
    (lines.forM (emit limit failure)).run.run sink =
      (if more : room < lines.length then .error (failure lines[room])
        else .ok (),
        ⟨sink.held ++ lines.take room,
          sink.offered ++ lines.take (room + 1)⟩) := by
  induction lines generalizing sink room with
  | nil => simp; rfl
  | cons line lines induction =>
      cases room with
      | zero =>
          rw [run_forM_of_error (run_emit_of_full roomy)]
          simp
      | succ room =>
          have less : (sink.held ++ [line]).length + room = limit := by
            simp only [List.length_append, List.length_singleton]
            omega
          rw [run_forM_of_ok (run_emit_of_room (by omega)),
            induction ⟨sink.held ++ [line], sink.offered ++ [line]⟩ less]
          simp

theorem run_emitTo (limit : Nat) (transcript : Transcript) :
    (transcript.emitTo (emit limit failure)).run.run .empty =
      (if more : limit < transcript.lines.length then
          .error (failure transcript.lines[limit])
        else .ok transcript.report,
        ⟨transcript.lines.take limit,
          transcript.lines.take (limit + 1)⟩) := by
  rw [Transcript.run_emitTo
    (run_forM .empty (Nat.zero_add limit) transcript.lines)]
  split <;> rfl

end FailingSink

namespace LimitedSink

variable {room : Nat} {held : Array Line}

theorem run_emit_zero (line : Line) :
    (emit line).run.run ⟨0, held⟩ = (.error .brokenPipe, ⟨0, held⟩) := rfl

theorem run_emit_succ (line : Line) :
    (emit line).run.run ⟨room + 1, held⟩ =
      (.ok (), ⟨room, held.push line⟩) := rfl

theorem run_forM (room : Nat) (held : Array Line) (lines : List Line) :
    (lines.forM emit).run.run ⟨room, held⟩ =
      (if room < lines.length then .error .brokenPipe else .ok (),
        ⟨room - lines.length, held ++ (lines.take room).toArray⟩) := by
  induction lines generalizing room held with
  | nil => simp; rfl
  | cons line lines induction =>
      cases room with
      | zero =>
          rw [run_forM_of_error (run_emit_zero line)]
          simp
      | succ room =>
          rw [run_forM_of_ok (run_emit_succ line), induction]
          simp

theorem receive_eq (limit : Nat) (transcript : Transcript) :
    receive limit transcript =
      (if limit < transcript.lines.length then .error .brokenPipe
        else .ok transcript.report, transcript.lines.take limit) := by
  rw [receive, Transcript.run_emitTo (run_forM limit #[] transcript.lines)]
  by_cases more : limit < transcript.lines.length <;>
    simp [more, Except.map]

end LimitedSink

/-- A sink that takes `limit` lines ends up with as many lines of the
transcript, and is handed one more at most.  The decode ends with its report if
those are all the lines, and else with the error of the sink. -/
theorem failing_sink_sees_prefix {ε : Type} (failure : Line → ε)
    (limit : Nat) (format : Format) (options : Options)
    (input : List UInt8) :
    let transcript := decode format options input
    let lines := transcript.lines
    (decodeTo (FailingSink.emit limit failure) format options
        input).run.run .empty =
      (if more : limit < lines.length then .error (failure lines[limit])
        else .ok transcript.report,
        ⟨lines.take limit, lines.take (limit + 1)⟩) ∧
    LimitedSink.receive limit transcript =
      (if limit < lines.length then .error .brokenPipe
        else .ok transcript.report, lines.take limit) := by
  intro transcript lines
  refine ⟨?_, LimitedSink.receive_eq limit transcript⟩
  rw [decodeTo_eq_emitTo]
  exact FailingSink.run_emitTo limit transcript

end SessionCapture
