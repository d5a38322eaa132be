import Mathlib.Algebra.BigOperators.Group.List.Basic
import Mathlib.Algebra.GroupWithZero.Nat
import SessionCapture.Proofs.WalkPrinciple

/-!
# What walks can afford

If items have a cost, and each byte that a walk reads pays for some of it, the
length of the input bounds what can be met.  What is met before its bytes are
read is paid for in advance: at each stage a walk has a credit, and a budget
says that the credit and the bytes read suffice up to the next stage.
-/

namespace SessionCapture

namespace Walk

variable {α β : Type} {cost : Item → Nat} {rate before between after : Nat}

/-- What can still be paid for when a walk has come to its end: `rate` for each
byte that it leaves, and `after`.  One that is stopped pays for nothing more. -/
def balance (rate after : Nat) : Except Fatal (α × Span) → Nat
  | .ok (_, left) => rate * left.remaining + after
  | .error _ => 0

/-- With a credit of `before` the walk pays for all it meets, and a credit of
`after` is left when it comes to its end. -/
def Affords (cost : Item → Nat) (rate before after : Nat) (walk : Walk α) :
    Prop :=
  ∀ span, ((walk.run span).items.map cost).sum +
    balance rate after (walk.run span).result ≤ rate * span.remaining + before

theorem Affords.pure (value : α) :
    Affords cost rate before before (Pure.pure value : Walk α) := by
  intro span
  exact Nat.le_of_eq (Nat.zero_add _)

theorem Affords.stop (fatal : Fatal) :
    Affords cost rate before after (stop fatal : Walk α) := by
  intro span
  exact Nat.zero_le _

theorem Affords.peek (look : Span → α) :
    Affords cost rate before before (peek look) := by
  intro span
  exact Nat.le_of_eq (Nat.zero_add _)

theorem Affords.emit_singleton {item : Item}
    (paid : cost item + after ≤ before) :
    Affords cost rate before after (emit [item]) := by
  intro span
  change cost item + 0 + (rate * span.remaining + after) ≤ _
  omega

/-- A read pays with what it takes. -/
theorem Affords.read {size : Nat}
    {reader : Span → Except Truncation (α × Span)}
    (takes : ∀ {span value left}, reader span = .ok (value, left) →
      left.remaining + size = span.remaining)
    (enough : after ≤ before + rate * size) :
    Affords cost rate before after (read reader) := by
  intro span
  cases found : reader span with
  | ok reached =>
      rw [run_read_of_ok found, ← takes found, Nat.mul_add]
      change 0 + (rate * reached.2.remaining + after) ≤ _
      omega
  | error truncation =>
      rw [run_read_of_error found]
      exact Nat.zero_le _

theorem Affords.word (enough : after ≤ before + rate * 2) :
    Affords cost rate before after word := by
  refine .read ?_ enough
  intro span value left success
  unfold Span.word at success
  split at success
  · next begins =>
      cases success
      simp [Span.remaining, begins]
  · cases success

theorem Affords.dword (enough : after ≤ before + rate * 4) :
    Affords cost rate before after dword := by
  refine .read ?_ enough
  intro span value left success
  unfold Span.dword at success
  split at success
  · next begins =>
      cases success
      simp [Span.remaining, begins]
  · cases success

theorem Affords.bind {walk : Walk α} {next : α → Walk β}
    (first : Affords cost rate before between walk)
    (rest : ∀ value, Affords cost rate between after (next value)) :
    Affords cost rate before after (walk >>= next) := by
  intro span
  have paid := first span
  cases ran : walk.run span with
  | mk items result =>
      rw [ran] at paid
      cases result with
      | error fatal =>
          rw [run_bind_of_error ran]
          exact paid
      | ok reached =>
          have later := rest reached.1 reached.2
          rw [run_bind_of_ok ran, Trace.items_after, Trace.result_after,
            List.map_append, List.sum_append]
          change (items.map cost).sum +
            (rate * reached.2.remaining + between) ≤ _ at paid
          omega

theorem Affords.composes (credit : Stage → Nat) :
    Composes fun _ first last walk =>
      Affords cost rate (credit first) (credit last) walk where
  pure _ value := .pure value
  bind := .bind

/-- A field pays for the note that tells of it. -/
theorem Affords.told_word {tell : UInt16 → Note}
    (paid : ∀ value,
      cost (.note (tell value)) + after ≤ before + rate * 2) :
    Affords cost rate before after (told Walk.word tell) :=
  .bind (.word (Nat.le_refl _)) fun value =>
    .bind (.emit_singleton (paid value)) fun _ => .pure value

theorem Affords.told_dword {tell : UInt32 → Note}
    (paid : ∀ value,
      cost (.note (tell value)) + after ≤ before + rate * 4) :
    Affords cost rate before after (told Walk.dword tell) :=
  .bind (.dword (Nat.le_refl _)) fun value =>
    .bind (.emit_singleton (paid value)) fun _ => .pure value

/-- The bytes of a region pay for its records, also if there are fewer of them
than its length declares. -/
theorem Affords.ofRegion
    (records : ∀ {index kind region items},
      recordItems? index kind region = some items →
        (items.map cost).sum ≤ rate * region.length)
    (bufferEnd : cost .bufferEnd + after ≤ before) (index : Nat)
    (tag : UInt16) (size : Nat) :
    Affords cost rate before after (ofRegion index tag size) := by
  intro span
  have split : span.remaining =
      (span.window size).bytes.length + (span.drop size).remaining := by
    change _ = (span.bytes.take size).length + (span.bytes.drop size).length
    rw [← List.length_append, List.take_append_drop]
    rfl
  rw [split, Nat.mul_add]
  have became := regionTrace index tag size span
  generalize (Walk.ofRegion index tag size).run span = trace at became ⊢
  cases became with
  | unknown _ => exact Nat.zero_le _
  | cutOff known _ =>
      have paid := records known
      simp only [balance]
      omega
  | passed known _ =>
      have paid := records known
      simp only [List.map_append, List.sum_append, List.map_singleton,
        List.sum_singleton, balance]
      omega

end Walk

open Walk in
/-- At each stage the credit and the bytes read up to the next stage pay for
what is met. -/
structure Budget (cost : Item → Nat) (rate : Nat) (credit : Stage → Nat) :
    Prop where
  outside : ∀ {found : Note}, found.isOfBuffer = false →
    cost (.note found) ≤ rate * 2
  bufferCount : ∀ count,
    cost (.note (.bufferCount count)) + credit .buffers ≤
      credit .between + rate * 4
  offset : ∀ index offset,
    cost (.note (.bufferOffset index offset)) + credit .announced ≤
      credit .buffers
  tag : ∀ index tag,
    cost (.note (.bufferTag index tag)) + credit .tagged ≤
      credit .announced + rate * 2
  length : ∀ index words,
    cost (.note (.bufferLength index words)) + credit .region ≤
      credit .tagged + rate * 4
  records : ∀ {index kind region items},
    recordItems? index kind region = some items →
      (items.map cost).sum ≤ rate * region.length
  bufferEnd : cost .bufferEnd + credit .buffers ≤ credit .region
  sectionEnd : cost .sectionEnd + credit .between ≤ credit .buffers

namespace Budget

open Walk

variable {cost : Item → Nat} {rate : Nat} {credit : Stage → Nat}
  (budget : Budget cost rate credit)

include budget

theorem carriesBuffer : CarriesBuffer fun _ first last walk =>
    Affords cost rate (credit first) (credit last) walk where
  toComposes := Affords.composes credit
  offset index :=
    .bind (.peek _) fun offset => .emit_singleton (budget.offset index offset)
  tag index := .told_word (budget.tag index)
  length index := .told_dword (budget.length index)
  region := .ofRegion budget.records budget.bufferEnd

theorem carries : Carries fun _ first last walk =>
    Affords cost rate (credit first) (credit last) walk where
  toComposes := Affords.composes credit
  reserved := .word (Nat.le_add_right _ _)
  word outside := by
    apply Affords.told_word
    intro value
    have paid := budget.outside (outside value)
    omega
  dword outside := by
    apply Affords.told_dword
    intro value
    have paid := budget.outside (outside value)
    omega
  bufferCount := .told_dword budget.bufferCount
  buffer := budget.carriesBuffer.ofBuffer
  sectionEnd := .emit_singleton budget.sectionEnd
  otherVersion _ _ := .stop _

/-- The bytes of an input pay for all that is met in it. -/
theorem sum_trace_le (format : Format) (supported : UInt16)
    (input : List UInt8) :
    ((format.trace supported input).items.map cost).sum ≤
      rate * input.length + credit .between := by
  rw [Format.trace_eq]
  exact Nat.le_trans (Nat.le_add_right _ _)
    (budget.carries.ofFormat format supported ⟨0, input⟩)

end Budget

end SessionCapture
