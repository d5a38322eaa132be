import SessionCapture.Proofs.RecordItems
import SessionCapture.Proofs.WalkPrinciple

/-!
# What holds of every item met

A property of notes, of the ends of buffers and sections, and of the items of
records holds of every item of a trace, wherever the walk stops.  In particular
every event met has as many payload words as its header says.
-/

namespace SessionCapture

namespace Walk

variable {α β : Type} {property : Item → Prop}

/-- Every item that the walk meets, on any span, has the property. -/
def Meets (property : Item → Prop) (walk : Walk α) : Prop :=
  ∀ span, ∀ item ∈ (walk.run span).items, property item

theorem Meets.bind {walk : Walk α} {next : α → Walk β}
    (first : walk.Meets property)
    (later : ∀ value, (next value).Meets property) :
    (walk >>= next).Meets property := by
  intro span item member
  cases ran : walk.run span with
  | mk items result =>
      have met : ∀ item ∈ items, property item := by
        intro item member
        apply first span item
        rw [ran]
        exact member
      cases result with
      | error fatal =>
          rw [run_bind_of_error ran] at member
          exact met item member
      | ok reached =>
          rw [run_bind_of_ok ran, Trace.items_after] at member
          rcases List.mem_append.mp member with before | after
          · exact met item before
          · exact later reached.1 reached.2 item after

theorem Meets.pure (value : α) :
    (Pure.pure value : Walk α).Meets property := by
  intro span item member
  cases member

theorem Meets.stop (fatal : Fatal) :
    (stop fatal : Walk α).Meets property := by
  intro span item member
  cases member

theorem Meets.peek (look : Span → α) : (peek look).Meets property := by
  intro span item member
  cases member

theorem Meets.read (reader : Span → Except Truncation (α × Span)) :
    (read reader).Meets property := by
  intro span item member
  cases found : reader span with
  | ok reached =>
      rw [run_read_of_ok found] at member
      cases member
  | error truncation =>
      rw [run_read_of_error found] at member
      cases member

theorem Meets.emit {items : List Item} (each : ∀ item ∈ items, property item) :
    (emit items).Meets property := by
  intro span item member
  exact each item member

theorem Meets.emit_singleton {item : Item} (has : property item) :
    (Walk.emit [item]).Meets property := by
  apply Meets.emit
  intro other member
  rw [List.mem_singleton.mp member]
  exact has

theorem Meets.composes : Composes fun _ _ _ walk => walk.Meets property where
  pure _ value := .pure value
  bind := .bind

section Records

variable (bufferEnd : property .bufferEnd)
  (records : ∀ {index kind region items},
    recordItems? index kind region = some items →
      ∀ item ∈ items, property item)

include bufferEnd records

theorem Meets.ofRegion (index : Nat) (tag : UInt16) (size : Nat) :
    (ofRegion index tag size).Meets property := by
  intro span
  have became := regionTrace index tag size span
  generalize (Walk.ofRegion index tag size).run span = trace at became ⊢
  cases became with
  | unknown _ => exact fun _ => nofun
  | cutOff known _ => exact records known
  | passed known _ =>
      exact List.forall_mem_append.mpr
        ⟨records known, List.forall_mem_singleton.mpr bufferEnd⟩

variable (notes : ∀ found, property (.note found))

include notes

theorem Meets.carriesBody :
    CarriesBody fun _ _ _ walk => walk.Meets property := by
  have note (found : Note) : (Walk.note found).Meets property :=
    .emit_singleton (notes found)
  have keeps : Keeps fun _ walk => walk.Meets property :=
    ⟨.pure, .bind, .read _, .read _, fun _ => note _⟩
  have offset (index : Nat) : (announce index).Meets property :=
    .bind (.peek _) fun _ => note _
  have buffer := keeps.carriesBuffer offset (fun _ _ => note _)
    (fun _ _ => note _) (Meets.ofRegion bufferEnd records)
  exact keeps.carriesBody buffer.ofBuffer

theorem Meets.carries (sectionEnd : property .sectionEnd) :
    Carries fun _ _ _ walk => walk.Meets property where
  toCarriesBody := Meets.carriesBody bufferEnd records notes
  sectionEnd := .emit_singleton sectionEnd
  otherVersion _ _ := .stop _

end Records

end Walk

/-- Every event met has as many payload words as its header says. -/
theorem Format.counted_of_mem_items {format : Format} {supported : UInt16}
    {input : List UInt8} {event : Event}
    (member : .event event ∈ (format.trace supported input).items) :
    event.Counted := by
  have records {index : Nat} {kind : BufferKind} {region : List UInt8}
      {items : List Item}
      (found : recordItems? index kind region = some items) :
      ∀ item ∈ items, ∀ event, item = .event event → event.Counted := by
    intro item among event same
    exact (ofRecord_of_mem_recordItems? found item among).counted same
  have carries := Walk.Meets.carries nofun records (fun _ => nofun) nofun
  rw [Format.trace_eq] at member
  exact carries.ofFormat format supported _ _ member event rfl

end SessionCapture
