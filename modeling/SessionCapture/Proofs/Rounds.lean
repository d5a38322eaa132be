import SessionCapture.Proofs.LongerInput
import SessionCapture.Proofs.Responses

/-!
# Rounds of challenge and response

A round is a challenge that can be drawn and a correct response that names
digits of it.  A configured interpreter shows both grids, the response from the
cells of this challenge, whatever it was told before; and it stays configured
for the next round.
-/

namespace SessionCapture

/-- The lines of an event and of the texts that say what it means. -/
def Event.told (event : Event) (texts : List String) : List Line :=
  event.lines ++ texts.map (.human (some event.header.timestamp))

theorem Event.eq_header_of_mem_told {event : Event} {texts : List String}
    {header : EventHeader} (member : .event header ∈ event.told texts) :
    header = event.header := by
  rcases List.mem_append.mp member with own | described
  · rcases List.mem_cons.mp own with same | word
    · exact Line.event.inj same
    · obtain ⟨_, _, impossible⟩ := List.mem_map.mp word
      cases impossible
  · obtain ⟨_, _, impossible⟩ := List.mem_map.mp described
    cases impossible

/-- The events of a round and the lines that tell of them. -/
inductive Configuration.TellsRound (configuration : Configuration) :
    List Event → List Line → Prop where
  | drawn {challenge response : Event} {digits : List UInt16}
      {asked answered : List String} :
      challenge.header.kind = .newChallenge →
      response.header.kind = .submit →
      response.payload = 1 :: digits →
      (∀ digit ∈ digits,
        digit.toNat < challenge.payload.length / configuration.keySize) →
      configuration.render challenge.payload
        configuration.layout.gridX.toNat = .ok asked →
      configuration.render
        (responseCells configuration.keySize challenge.payload digits)
        digits.length = .ok answered →
      TellsRound configuration [challenge, response]
        (challenge.told ("Valid challenge generated:" :: asked) ++
          response.told ("Correct response submitted:" :: answered))

namespace Presentation

variable {supported : UInt16} {human : Bool}

theorem ofItems_of_texts {context next : Context} {event : Event}
    {texts : List String}
    (stepped : context.step event.header.kind event.payload =
      (.ok (texts.map .text), next)) (rest : List Item) :
    ofItems ⟨supported, true, human⟩ context (.event event :: rest) =
      followedBy ⟨event.told texts, { events := 1 }, none⟩
        (ofItems ⟨supported, true, human⟩ next rest) := by
  have noNote : (texts.map Remark.text).countP Remark.isNote = 0 := by
    rw [List.countP_map]
    exact congrFun List.countP_false texts
  have shown : ofItem ⟨supported, true, human⟩ context (.event event) =
      (⟨event.told texts, { events := 1 }, none⟩, next) := by
    change ofEvent ⟨supported, true, human⟩ context event = _
    rw [ofEvent, if_pos rfl, stepped]
    dsimp only [ofOutcome]
    rw [noNote, List.map_map]
    rfl
  rw [ofItems_cons, shown]

end Presentation

namespace Configuration

variable {configuration : Configuration}

/-- Digits of a challenge that can be drawn can be drawn too. -/
theorem exists_tellsRound {challenge response : Event} {digits : List UInt16}
    (challenges : challenge.header.kind = .newChallenge)
    (responds : response.header.kind = .submit)
    (names : response.payload = 1 :: digits)
    (drawable : configuration.grid.Drawable challenge.payload
      configuration.layout.gridX.toNat)
    (held : ∀ digit ∈ digits,
      digit.toNat < challenge.payload.length / configuration.keySize)
    (nonempty : digits ≠ []) :
    ∃ lines, configuration.TellsRound [challenge, response] lines := by
  obtain ⟨asked, challengeDrawn⟩ := drawable.exists_render
  obtain ⟨answered, responseDrawn⟩ :=
    (drawable.responseCells held nonempty).exists_render
  exact ⟨_, .drawn challenges responds names held
    (render_eq_ok_iff.mpr challengeDrawn)
    (render_eq_ok_iff.mpr responseDrawn)⟩

variable (supported : UInt16) (human : Bool) {context : Context}
  (configured : context.state = .configured configuration)

include configured

/-- A round is told in its own lines, and the configuration is kept. -/
theorem TellsRound.ofItems {events : List Event} {lines : List Line}
    (told : configuration.TellsRound events lines) :
    ∃ next : Context, next.state = .configured configuration ∧
      ∀ rest, Presentation.ofItems ⟨supported, true, human⟩ context
          (events.map .event ++ rest) =
        Presentation.followedBy ⟨lines, { events := 2 }, none⟩
          (.ofItems ⟨supported, true, human⟩ next rest) := by
  cases told with
  | @drawn challenge response digits asked answered challenges responds names
      held challengeDrawn responseDrawn =>
      have drawable := (Grid.render_eq_ok_iff_drawing.mp
        (render_eq_ok_iff.mp challengeDrawn)).1
      have whole := Nat.mod_eq_zero_of_dvd drawable.whole
      let next := context.storeChallenge challenge.payload
        configuration.keySize
      have asks : context.step challenge.header.kind challenge.payload =
          (.ok (("Valid challenge generated:" :: asked).map .text), next) := by
        rw [challenges, Context.step_newChallenge configured whole,
          challengeDrawn]
        rfl
      have kept : next.state = .configured configuration := configured
      have resolved : digits.mapM next.resolveDigit = .ok _ :=
        Context.resolveDigits_of_held drawable.someKeys whole held
      have answers : next.step response.header.kind response.payload =
          (.ok (("Correct response submitted:" :: answered).map .text),
            next) := by
        rw [responds, names, Context.step_submit,
          Context.responseGrid_of_resolved kept resolved]
        change (Except.ok (_ :: gridRemarks (configuration.render
          (responseCells configuration.keySize challenge.payload digits)
          digits.length)), _) = _
        rw [responseDrawn]
        rfl
      refine ⟨next, kept, ?_⟩
      intro rest
      rw [List.map_cons, List.map_singleton, List.cons_append,
        List.singleton_append, Presentation.ofItems_of_texts asks,
        Presentation.ofItems_of_texts answers,
        ← Presentation.followedBy_assoc]
      rfl

/-- Rounds are told one after another. -/
theorem ofItems_rounds {Round : Type} {events : Round → List Event}
    {lines : Round → List Line}
    (told : ∀ round, configuration.TellsRound (events round) (lines round))
    (rounds : List Round) :
    ∃ next : Context, next.state = .configured configuration ∧
      ∀ rest, Presentation.ofItems ⟨supported, true, human⟩ context
          ((rounds.flatMap events).map .event ++ rest) =
        Presentation.followedBy
          ⟨rounds.flatMap lines, { events := 2 * rounds.length }, none⟩
          (.ofItems ⟨supported, true, human⟩ next rest) := by
  induction rounds generalizing context with
  | nil =>
      refine ⟨context, configured, ?_⟩
      intro rest
      exact Presentation.ofItems_append _ context [] rest
  | cons round rounds induction =>
      obtain ⟨middle, stillConfigured, first⟩ :=
        (told round).ofItems supported human configured
      obtain ⟨next, atEnd, later⟩ := induction stillConfigured
      refine ⟨next, atEnd, ?_⟩
      intro rest
      rw [List.flatMap_cons, List.map_append, List.append_assoc, first, later,
        ← Presentation.followedBy_assoc]
      have counts : ({ events := 2 } : Counts) +
          { events := 2 * rounds.length } =
            { events := 2 * (round :: rounds).length } := by
        rw [List.length_cons, Nat.mul_succ, Nat.add_comm]
        rfl
      rw [← counts]
      rfl

end Configuration

end SessionCapture
