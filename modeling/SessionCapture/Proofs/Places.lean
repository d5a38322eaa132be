import SessionCapture.Proofs.LongerInput

/-!
# Where items stand

A walk opens a buffer with the note of its length and closes it at its end.
Records stand in open buffers only, and that a buffer's events cannot be
followed is told right after the event that is cut short.  A place says how far
in this order a walk is, and every trace goes from place to place.
-/

namespace SessionCapture

/-- Whether an item opens a buffer. -/
def Item.opensBuffer : Item → Bool
  | .note (.bufferLength _ _) => true
  | _ => false

/-- Whether an item tells that a buffer's events cannot be followed. -/
def Item.isDesync : Item → Bool
  | .desync _ _ => true
  | _ => false

/-- Where a walk is among the buffers. -/
inductive Place where
  | outside
  | inside
  /-- Inside, right after an event that is cut short. -/
  | atBreach
  /-- Inside, after it was told that the events cannot be followed. -/
  | abandoned
deriving DecidableEq, Repr

namespace Place

/-- The place after an item, if the item can stand here. -/
def next : Place → Item → Option Place
  | outside, .note (.bufferLength _ _) => some inside
  | outside, .note _ => some outside
  | outside, .sectionEnd => some outside
  | inside, .movement _ => some inside
  | inside, .click _ => some inside
  | inside, .event _ => some inside
  | inside, .corrupt fragment =>
      some (if fragment.kind = .event then atBreach else inside)
  | inside, .bufferEnd => some outside
  | atBreach, .desync _ _ => some abandoned
  | abandoned, .bufferEnd => some outside
  | _, _ => none

/-- The place after items, if each can stand where it does. -/
def after (place : Place) (items : List Item) : Option Place :=
  items.foldlM next place

/-- How many buffers are open. -/
def opened : Place → Nat
  | outside => 0
  | inside | atBreach | abandoned => 1

/-- How many open buffers can still be told to be desynchronized. -/
def unbroken : Place → Nat
  | outside | abandoned => 0
  | inside | atBreach => 1

theorem after_nil (place : Place) : place.after [] = some place := rfl

theorem after_append (place : Place) (front back : List Item) :
    place.after (front ++ back) =
      (place.after front).bind fun middle => middle.after back :=
  List.foldlM_append

theorem after_cons {place middle : Place} {item : Item}
    (stands : place.next item = some middle) (items : List Item) :
    place.after (item :: items) = middle.after items := by
  unfold after
  rw [List.foldlM_cons, stands]
  rfl

theorem after_singleton (place : Place) (item : Item) :
    place.after [item] = place.next item :=
  bind_pure (place.next item)

theorem exists_of_after_append {place last : Place} {front back : List Item}
    (stand : place.after (front ++ back) = some last) :
    ∃ middle, place.after front = some middle ∧
      middle.after back = some last := by
  rw [after_append] at stand
  exact Option.bind_eq_some_iff.mp stand

/-- Items each of which leaves the place as it is. -/
theorem after_of_forall {place : Place} {items : List Item}
    (stays : ∀ item ∈ items, place.next item = some place) :
    place.after items = some place := by
  induction items with
  | nil => rfl
  | cons item items induction =>
      rw [after_cons (stays item List.mem_cons_self)]
      apply induction
      intro other member
      exact stays other (List.mem_cons_of_mem item member)

/-! ## What a place tells of the items before it -/

/-- What each item keeps holds of all items that can stand after one another. -/
theorem after_induction {last : Place} (holds : Place → List Item → Prop)
    (nil : holds last [])
    (cons : ∀ {place middle item items}, place.next item = some middle →
      holds middle items → holds place (item :: items))
    {place : Place} {items : List Item}
    (stand : place.after items = some last) : holds place items := by
  induction items generalizing place with
  | nil =>
      cases stand
      exact nil
  | cons item items induction =>
      rw [← List.singleton_append] at stand
      obtain ⟨middle, first, rest⟩ := exists_of_after_append stand
      rw [after_singleton] at first
      exact cons first (induction rest)

/-- An item that opens a buffer makes one more open, and one that ends a buffer
one less. -/
theorem opened_next {place later : Place} {item : Item}
    (stands : place.next item = some later) :
    [item].countP Item.opensBuffer + place.opened =
      [item].count .bufferEnd + later.opened := by
  cases place with
  | outside =>
      cases item with
      | note found => cases found <;> cases stands <;> rfl
      | _ => cases stands <;> rfl
  | inside =>
      cases item with
      | corrupt fragment =>
          rw [next] at stands
          split at stands <;> cases stands <;> rfl
      | _ => cases stands <;> rfl
  | atBreach =>
      cases item <;> cases stands
      rfl
  | abandoned =>
      cases item <;> cases stands
      rfl

/-- The buffers opened are those ended and those still open. -/
theorem opened_after {place later : Place} {items : List Item}
    (stand : place.after items = some later) :
    items.countP Item.opensBuffer + place.opened =
      items.count .bufferEnd + later.opened := by
  refine after_induction (fun place items =>
    items.countP Item.opensBuffer + place.opened =
      items.count .bufferEnd + later.opened) ?nil ?cons stand
  case nil => rfl
  case cons =>
    intro place middle item items first rest
    have step := opened_next first
    rw [← List.singleton_append, List.countP_append, List.count_append]
    omega

/-- That a buffer's events cannot be followed is told once at most. -/
theorem unbroken_next {place later : Place} {item : Item}
    (stands : place.next item = some later) :
    [item].countP Item.isDesync + later.unbroken ≤
      [item].countP Item.opensBuffer + place.unbroken := by
  cases place with
  | outside =>
      cases item with
      | note found => cases found <;> cases stands <;> exact Nat.le_refl _
      | _ => cases stands <;> exact Nat.le_refl _
  | inside =>
      cases item with
      | corrupt fragment =>
          rw [next] at stands
          split at stands <;> cases stands <;> exact Nat.le_refl _
      | bufferEnd =>
          cases stands
          exact Nat.zero_le _
      | _ => cases stands <;> exact Nat.le_refl _
  | atBreach =>
      cases item <;> cases stands
      exact Nat.le_refl _
  | abandoned =>
      cases item <;> cases stands
      exact Nat.le_refl _

/-- No more buffers are told to be desynchronized than were opened. -/
theorem unbroken_after {place later : Place} {items : List Item}
    (stand : place.after items = some later) :
    items.countP Item.isDesync + later.unbroken ≤
      items.countP Item.opensBuffer + place.unbroken := by
  refine after_induction (fun place items =>
    items.countP Item.isDesync + later.unbroken ≤
      items.countP Item.opensBuffer + place.unbroken) ?nil ?cons stand
  case nil => exact Nat.le_refl _
  case cons =>
    intro place middle item items first rest
    have step := unbroken_next first
    rw [← List.singleton_append, List.countP_append, List.countP_append]
    omega

theorem corrupt_of_next_atBreach {place : Place} {item : Item}
    (stands : place.next item = some .atBreach) :
    ∃ fragment, item = .corrupt fragment ∧ fragment.kind = .event := by
  cases place with
  | outside =>
      cases item with
      | note found => cases found <;> cases stands
      | _ => cases stands
  | inside =>
      cases item with
      | corrupt fragment =>
          rw [next] at stands
          split at stands
          · next event => exact ⟨fragment, rfl, event⟩
          · cases stands
      | _ => cases stands
  | atBreach => cases item <;> cases stands
  | abandoned => cases item <;> cases stands

/-- That a buffer's events cannot be followed is told right after an event that
is cut short. -/
theorem exists_corrupt_before_desync {last : Place} {before later : List Item}
    {buffer : Nat} {reason : Desync}
    (stand : outside.after (before ++ .desync buffer reason :: later) =
      some last) :
    ∃ earlier fragment, before = earlier ++ [.corrupt fragment] ∧
      fragment.kind = .event := by
  obtain ⟨place, reached, rest⟩ := exists_of_after_append stand
  have breach : place = .atBreach := by
    cases place with
    | atBreach => rfl
    | outside => cases rest
    | inside => cases rest
    | abandoned => cases rest
  subst breach
  rcases List.eq_nil_or_concat before with rfl | ⟨earlier, item, rfl⟩
  · cases reached
  · rw [List.concat_eq_append] at reached
    obtain ⟨middle, _, stands⟩ := exists_of_after_append reached
    rw [after_singleton] at stands
    obtain ⟨fragment, rfl, event⟩ := corrupt_of_next_atBreach stands
    exact ⟨earlier, fragment, List.concat_eq_append, event⟩

end Place

/-! ## The places of records -/

private theorem FixedForm.next_item {α : Type} (form : FixedForm α)
    {tell : α → Item} (noEvent : form.kind ≠ .event)
    (whole : ∀ record, Place.inside.next (tell record) = some .inside)
    (region : List UInt8) :
    Place.inside.next (form.item tell region) = some .inside := by
  rcases form.item_cases tell region with ⟨record, told⟩ | ⟨_, kind, told⟩
  · rw [told, whole record]
  · rw [told, Place.next, kind, if_neg noEvent]

private theorem after_eventItems (buffer : Nat) (region : List UInt8) :
    Place.inside.after (eventItems buffer region ++ [.bufferEnd]) =
      some .outside := by
  cases found : Event.readAll region with
  | mk events breach =>
      have whole : Place.inside.after (events.map .event) = some .inside := by
        apply Place.after_of_forall
        intro item member
        obtain ⟨event, _, rfl⟩ := List.mem_map.mp member
        rfl
      simp only [eventItems, found]
      rw [List.append_assoc, Place.after_append, whole, Option.bind_some]
      cases breach with
      | none => rfl
      | some breach =>
          have kind : breach.fragment.kind = .event :=
            Event.kind_of_readAll (congrArg Prod.snd found)
          have breaks : Place.inside.next (.corrupt breach.fragment) =
              some .atBreach := by
            rw [Place.next, if_pos kind]
          exact Place.after_cons breaks _

/-- Records stand inside a buffer, and its end after them. -/
theorem after_recordItems? {buffer : Nat} {kind : BufferKind}
    {region : List UInt8} {items : List Item}
    (found : recordItems? buffer kind region = some items) :
    Place.inside.after (items ++ [.bufferEnd]) = some .outside := by
  have fixed {items : List Item}
      (stays : ∀ item ∈ items, Place.inside.next item = some .inside) :
      Place.inside.after (items ++ [.bufferEnd]) = some .outside := by
    rw [Place.after_append, Place.after_of_forall stays]
    rfl
  cases kind with
  | telemetry =>
      cases found
      apply fixed
      intro item member
      obtain ⟨piece, _, rfl⟩ := List.mem_map.mp member
      exact FixedForm.movement.next_item (by decide) (fun _ => rfl) piece
  | action =>
      cases found
      apply fixed
      intro item member
      obtain ⟨piece, _, rfl⟩ := List.mem_map.mp member
      exact FixedForm.click.next_item (by decide) (fun _ => rfl) piece
  | event =>
      cases found
      exact after_eventItems buffer region
  | unknown tag => cases found

/-! ## The places of walks -/

/-- The items can stand one after another from a place on, and if the trace
comes to its end they lead to `last`. -/
def Trace.Leads {α : Type} (trace : Trace α) (first last : Place) : Prop :=
  ∃ place, first.after trace.items = some place ∧
    ∀ value, trace.result = .ok value → place = last

namespace Walk

variable {α β : Type} {first middle last place : Place}

/-- The traces of a walk, on any span, lead from one place to another. -/
def Leads (first last : Place) (walk : Walk α) : Prop :=
  ∀ span, (walk.run span).Leads first last

theorem Leads.bind {walk : Walk α} {next : α → Walk β}
    (begins : walk.Leads first middle)
    (goesOn : ∀ value, (next value).Leads middle last) :
    (walk >>= next).Leads first last := by
  intro span
  obtain ⟨reached, stand, complete⟩ := begins span
  cases ran : walk.run span with
  | mk items result =>
      rw [ran] at stand complete
      cases result with
      | error fatal =>
          rw [run_bind_of_error ran]
          exact ⟨reached, stand, nofun⟩
      | ok value =>
          obtain rfl := complete value rfl
          obtain ⟨place, rest, ending⟩ := goesOn value.1 value.2
          rw [run_bind_of_ok ran]
          refine ⟨place, ?_, ending⟩
          rw [Trace.items_after, Place.after_append, stand]
          exact rest

theorem Leads.pure (value : α) :
    (Pure.pure value : Walk α).Leads place place :=
  fun _ => ⟨place, rfl, fun _ _ => rfl⟩

theorem Leads.stop (fatal : Fatal) :
    (stop fatal : Walk α).Leads first last :=
  fun _ => ⟨first, rfl, nofun⟩

theorem Leads.peek (look : Span → α) : (peek look).Leads place place :=
  fun _ => ⟨place, rfl, fun _ _ => rfl⟩

theorem Leads.read (reader : Span → Except Truncation (α × Span)) :
    (read reader).Leads place place := by
  intro span
  cases found : reader span with
  | ok reached =>
      rw [run_read_of_ok found]
      exact ⟨place, rfl, fun _ _ => rfl⟩
  | error truncation =>
      rw [run_read_of_error found]
      exact ⟨place, rfl, nofun⟩

theorem Leads.emit {items : List Item}
    (stand : first.after items = some last) : (emit items).Leads first last :=
  fun _ => ⟨last, stand, fun _ _ => rfl⟩

theorem Leads.ofRegion (index : Nat) (tag : UInt16) (size : Nat) :
    (ofRegion index tag size).Leads .inside .outside := by
  intro span
  have became := regionTrace index tag size span
  generalize (Walk.ofRegion index tag size).run span = trace at became ⊢
  cases became with
  | unknown _ => exact ⟨.inside, rfl, nofun⟩
  | cutOff known _ =>
      obtain ⟨place, records, _⟩ :=
        Place.exists_of_after_append (after_recordItems? known)
      exact ⟨place, records, nofun⟩
  | passed known _ =>
      exact ⟨.outside, after_recordItems? known, fun _ _ => rfl⟩

end Walk

/-- Where the items of a walk stand at a stage. -/
def Walk.Stage.place : Walk.Stage → Place
  | .region => .inside
  | _ => .outside

namespace Walk

theorem Leads.composes :
    Composes fun _ first last walk => walk.Leads first.place last.place where
  pure _ value := .pure value
  bind := .bind

theorem Leads.carriesBuffer : CarriesBuffer fun _ first last walk =>
    walk.Leads first.place last.place where
  toComposes := Leads.composes
  offset _ := .bind (.peek _) fun _ => .emit rfl
  tag _ := Leads.composes.told (.read _) fun _ => .emit rfl
  length _ := Leads.composes.told (.read _) fun _ => .emit rfl
  region := .ofRegion

theorem Leads.note_of_outside {found : Note}
    (outside : found.isOfBuffer = false) :
    (note found).Leads .outside .outside := by
  apply Leads.emit
  cases found with
  | bufferLength index words => cases outside
  | _ => rfl

theorem Leads.carries : Carries fun _ first last walk =>
    walk.Leads first.place last.place where
  toComposes := Leads.composes
  reserved := .read _
  word outside := Leads.composes.told (.read _)
    fun value => .note_of_outside (outside value)
  dword outside := Leads.composes.told (.read _)
    fun value => .note_of_outside (outside value)
  bufferCount := Leads.composes.told (.read _) fun _ => .emit rfl
  buffer := Leads.carriesBuffer.ofBuffer
  sectionEnd := .emit rfl
  otherVersion _ _ := .stop _

end Walk

/-- Every trace leads from outside to outside, if it comes to its end. -/
theorem Format.leads_trace (format : Format) (supported : UInt16)
    (input : List UInt8) :
    (format.trace supported input).Leads .outside .outside := by
  have walked : ((format.walk supported).run ⟨0, input⟩).Leads .outside
      .outside :=
    Walk.Leads.carries.ofFormat format supported _
  obtain ⟨place, stand, complete⟩ := walked
  rw [Format.trace_eq]
  refine ⟨place, stand, ?_⟩
  intro left ended
  cases ran : ((format.walk supported).run ⟨0, input⟩).result with
  | ok reached => exact complete reached ran
  | error fatal =>
      rw [ran] at ended
      cases ended

end SessionCapture
