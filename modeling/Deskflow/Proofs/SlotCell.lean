import Deskflow.Proofs.SlotJams

/-!
# The slot as a cell

Seen from outside, the slot of a conversation is a cell that holds one suspension or none: what was
put there last is what is found there, until it is taken. That it lies among other fields of the
metadata, which are written anew as a whole each time, is seen by nobody.

The uses of the cell are `save`, `get` and `take`.

* `Suspension.read?_record_eq`: what a suspension that was stored is read as.
* `Slot.Cell`: a conversation whose slot stands for a cell.
* `Slot.Cell.look`, `Slot.Cell.save`, `Slot.Cell.take`: what a use of the slot answers and leaves.
* `Slot.Cell.run`: what any uses one after another do.

## The result

* `Slot.round_trips`: a suspension that was saved is found and taken as it was, once; whatever is
  done with the slot, it answers as a cell does, and the other fields of the metadata keep their
  values.
-/

namespace Deskflow

/-- What is found of a suspension that was stored: without a step it is not taken for one. -/
def Suspension.kept (p : Suspension) : Option Suspension := if p.stepId = "" then none else some p

theorem Suspension.kept_of_ne_empty {p : Suspension} (h : p.stepId ≠ "") : p.kept = some p :=
  if_neg h

theorem Suspension.read?_record_eq (p : Suspension) : read? (.object p.record) = .ok p.kept := by
  unfold kept
  split
  · exact read?_record_of_empty ‹_›
  · exact read?_record ‹_›

/-- A field of the metadata of a conversation, if it has it. -/
def Store.noted? (s : Store) (c : Int) (name : String) : Option Value :=
  (s.find? Conversation c).bind fun k => k.metadata.fields.get? name

namespace Slot

open Transaction Suspension

/-! ## Uses of a slot -/

/-- What can be done with a slot. -/
inductive Use where
  | look
  | save (p : Suspension)
  | take

namespace Use

/-- Uses the slot of a conversation. -/
def perform (c : Int) : Use → Transaction (Option Suspension)
  | look => Slot.get? c
  | save p => do
    Slot.save c p
    return none
  | take => Slot.take c

/-- What a cell answers that holds this. -/
def answer (held : Option Suspension) : Use → Option Suspension
  | look => held
  | save _ => none
  | take => held

/-- What it holds then. -/
def next (held : Option Suspension) : Use → Option Suspension
  | look => held
  | save p => p.kept
  | take => none

end Use

/-- What a cell answers to uses one after another. -/
def answers : Option Suspension → List Use → List (Option Suspension)
  | _, [] => []
  | held, u :: rest => u.answer held :: answers (u.next held) rest

/-! ## Conversations whose slot is a cell -/

/-- What the slot among some fields stands for, where it is empty or the desk wrote into it. -/
inductive Shows (fields : Record) : Option Suspension → Prop
  | empty : fields.get? slotField = none → Shows fields none
  | full (p : Suspension) : fields.get? slotField = some (.object p.record) → Shows fields p.kept

/-- A conversation is there, as `k` is but for its metadata, and has these fields as metadata. -/
def Loads (c : Int) (k : Conversation) (fields : Record) (s : Store) : Prop :=
  (load Conversation c).run s = .ok (some { k with metadata := .object fields }, s)

/-- A conversation, as `k` is but for its metadata, whose slot stands for a cell that holds this.
Without the slot its metadata are `rest`. -/
def Cell (c : Int) (k : Conversation) (rest : Record) (s : Store) (held : Option Suspension) :
    Prop :=
  ∃ fields, Loads c k fields s ∧ fields.erase slotField = rest ∧ Shows fields held

section

variable {c : Int} {k : Conversation} {fields rest : Record} {s : Store}
  {held : Option Suspension}

theorem Loads.find? (h : Loads c k fields s) :
    s.find? Conversation c = some { k with metadata := .object fields } :=
  (run_load_eq_ok h).1.symm

theorem Loads.noted? (h : Loads c k fields s) (name : String) :
    s.noted? c name = fields.get? name := by
  rw [Store.noted?, h.find?]
  rfl

theorem Loads.slot? (h : Loads c k fields s) : s.slot? c = fields.get? slotField := by
  rw [Store.slot?_of_some h.find?]
  unfold held? withoutSlot
  rw [Value.toRecord_object]
  simp only [bind, Except.bind, pure, Except.pure]
  cases fields.get? slotField <;> rfl

/-- It is still there when its metadata change. -/
theorem Loads.withMetadata (h : Loads c k fields s) (other : Record) :
    Loads c k other (s.withMetadata c other) := by
  obtain ⟨hfind, -, hfit⟩ := run_load_eq_ok h
  have htable : s.absent.contains .conversations = false := by
    unfold Loads at h
    rw [run_load] at h
    split at h
    · cases h
    · exact Bool.not_eq_true _ ▸ ‹_›
  have hthere : (s.withMetadata c other).find? Conversation c
      = some { k with metadata := .object other } := by
    rw [Store.find?_withMetadata_self, ← hfind]
    rfl
  unfold Loads
  rw [← hthere]
  exact run_load_of_fits htable hfit

/-! ## One use -/

theorem Shows.slotIn_eq (h : Shows fields held) : slotIn (.object fields) = .ok held := by
  have hfield : slotIn (.object fields) = read? (fields.getD slotField) := by
    rw [slotIn, Value.field_object]
    rfl
  rw [hfield, Record.getD]
  cases h with
  | empty hslot =>
    rw [hslot]
    rfl
  | full p hslot =>
    rw [hslot]
    exact read?_record_eq p

/-- Looking at a cell changes nothing. -/
theorem Cell.look (h : Cell c k rest s held) : (Slot.get? c).run s = .ok (held, s) := by
  obtain ⟨fields, hload, -, hshows⟩ := h
  rw [run_get_of_load hload, hshows.slotIn_eq]
  rfl

/-- What is saved takes the place of what was held. -/
theorem Cell.save (h : Cell c k rest s held) (p : Suspension) :
    ∃ s', (Slot.save c p).run s = .ok ((), s') ∧ Cell c k rest s' p.kept := by
  obtain ⟨fields, hload, hrest, hshows⟩ := h
  -- what was held is asked for its automation, which an object or nothing can be asked for
  have hasked : ∃ x, (fields.getD slotField).field "automation_id" = .ok x := by
    rw [Record.getD]
    cases hshows with
    | empty hslot => exact ⟨.null, by rw [hslot]; rfl⟩
    | full q hslot => exact ⟨_, by rw [hslot]; exact Value.field_object _ _⟩
  obtain ⟨x, hx⟩ := hasked
  have hfill : fillSlot (.object fields) (.ok p.record)
      = .ok (fields.put slotField (.object p.record)) := by
    rw [fillSlot, Value.toRecord_object]
    simp only [bind, Except.bind, hx]
    rfl
  refine ⟨s.withMetadata c (fields.put slotField (.object p.record)), ?_, _, hload.withMetadata _,
    ?_, .full p (Record.get?_put_self _ _ _)⟩
  · rw [Slot.save, run_fill_of_load hload, hfill]
    rfl
  · rw [Record.erase_put_self, hrest]

/-- What is taken is what was held, and nothing is held then. -/
theorem Cell.take (h : Cell c k rest s held) :
    ∃ s', (Slot.take c).run s = .ok (held, s') ∧ Cell c k rest s' none ∧ s'.slot? c = none := by
  obtain ⟨fields, hload, hrest, hshows⟩ := h
  have hslot : withoutSlot (.object fields)
      = .ok ((fields.get? slotField).map fun v => (v, fields.erase slotField)) := by
    rw [withoutSlot, Value.toRecord_object]
    rfl
  cases hshows with
  | empty hempty =>
    rw [hempty] at hslot
    exact ⟨s, run_take_of_load_empty hload hslot, ⟨fields, hload, hrest, .empty hempty⟩,
      hload.slot?.trans hempty⟩
  | full p hfull =>
    rw [hfull] at hslot
    have hleft := hload.withMetadata (fields.erase slotField)
    have hempty := Record.get?_erase_self fields slotField
    refine ⟨s.withMetadata c (fields.erase slotField), ?_, ⟨_, hleft, ?_, .empty hempty⟩,
      hleft.slot?.trans hempty⟩
    · rw [run_take_of_load hload hslot, read?_record_eq]
      rfl
    · rw [Record.erase_eq_self hempty, hrest]

/-! ## Any uses -/

/-- A use is answered as a cell answers it, and leaves what a cell holds then. -/
theorem Cell.step (h : Cell c k rest s held) (u : Use) :
    ∃ s', (u.perform c).run s = .ok (u.answer held, s') ∧ Cell c k rest s' (u.next held) := by
  cases u with
  | look => exact ⟨s, h.look, h⟩
  | save p =>
    obtain ⟨s', hrun, hcell⟩ := h.save p
    exact ⟨s', run_bind_eq_ok.mpr ⟨(), s', hrun, rfl⟩, hcell⟩
  | take =>
    obtain ⟨s', hrun, hcell, -⟩ := h.take
    exact ⟨s', hrun, hcell⟩

/-- So are uses one after another. -/
theorem Cell.run (h : Cell c k rest s held) (uses : List Use) :
    ∃ s', (uses.mapM (Use.perform c)).run s = .ok (answers held uses, s')
      ∧ Cell c k rest s' (uses.foldl Use.next held) := by
  induction uses generalizing s held with
  | nil => exact ⟨s, rfl, h⟩
  | cons u us ih =>
    obtain ⟨m, hfirst, hcell⟩ := h.step u
    obtain ⟨s', hlater, hend⟩ := ih hcell
    refine ⟨s', ?_, hend⟩
    rw [List.mapM_cons]
    exact run_bind_eq_ok.mpr ⟨_, m, hfirst, run_bind_eq_ok.mpr ⟨_, s', hlater, rfl⟩⟩

/-! ## What lies beside the slot -/

/-- Between two stores nothing of a conversation changed but its slot. -/
structure Beside (c : Int) (s s' : Store) : Prop where
  /-- It is there with the same columns, and an object as its metadata. -/
  columns : ∃ (k : Conversation) (r r' : Record),
    s.find? Conversation c = some { k with metadata := .object r }
      ∧ s'.find? Conversation c = some { k with metadata := .object r' }
  /-- The other fields of the metadata have their values. -/
  others : ∀ name, name ≠ slotField → s'.noted? c name = s.noted? c name
  /-- A conversation without a slot before and after is as it was. -/
  restored : s.slot? c = none → s'.slot? c = none →
    s'.find? Conversation c = s.find? Conversation c

theorem Cell.noted? (h : Cell c k rest s held) {name : String} (hname : name ≠ slotField) :
    s.noted? c name = rest.get? name := by
  obtain ⟨fields, hload, rfl, -⟩ := h
  rw [hload.noted?, Record.get?_erase_ne _ hname]

theorem Cell.find?_of_empty (h : Cell c k rest s held) (hempty : s.slot? c = none) :
    s.find? Conversation c = some { k with metadata := .object rest } := by
  obtain ⟨fields, hload, rfl, -⟩ := h
  rw [hload.slot?] at hempty
  rw [Record.erase_eq_self hempty, hload.find?]

theorem Cell.beside {s' : Store} {held' : Option Suspension} (h : Cell c k rest s held)
    (h' : Cell c k rest s' held') : Beside c s s' where
  columns := by
    obtain ⟨r, hload, -⟩ := h
    obtain ⟨r', hload', -⟩ := h'
    exact ⟨k, r, r', hload.find?, hload'.find?⟩
  others name hname := by rw [h.noted? hname, h'.noted? hname]
  restored hs hs' := by rw [h.find?_of_empty hs, h'.find?_of_empty hs']

/-- A slot that is empty or holds what the desk wrote is a cell. -/
theorem exists_cell (hload : (load Conversation c).run s = .ok (some k, s))
    (hfields : k.metadata = .object fields) (hwritten : s.Written c) :
    ∃ held, Cell c k (fields.erase slotField) s held := by
  have hk : { k with metadata := .object fields } = k := by rw [← hfields]
  have hload : Loads c k fields s := by
    unfold Loads
    rw [hk]
    exact hload
  cases hslot : fields.get? slotField with
  | none => exact ⟨none, fields, hload, rfl, .empty hslot⟩
  | some v =>
    obtain ⟨p, rfl⟩ := hwritten v (hload.slot?.trans hslot)
    exact ⟨p.kept, fields, hload, rfl, .full p hslot⟩

end

/-! ## The result -/

/-- A suspension is saved in the slot of a conversation, looked at, taken, and asked for again. -/
structure RoundTrip (c : Int) (p : Suspension) (s saved taken : Store) : Prop where
  save : (Slot.save c p).run s = .ok ((), saved)
  /-- It is found as it was, -/
  look : (Slot.get? c).run saved = .ok (some p, saved)
  /-- and taken as it was; -/
  take : (Slot.take c).run saved = .ok (some p, taken)
  /-- then the slot is gone, -/
  gone : taken.slot? c = none
  /-- and nothing is found or taken any more. -/
  nothing : (Slot.get? c).run taken = .ok (none, taken)
    ∧ (Slot.take c).run taken = .ok (none, taken)
  /-- The rest of the conversation stays as it was throughout. -/
  filled : Beside c s saved
  emptied : Beside c s taken

theorem Cell.roundTrip {c : Int} {k : Conversation} {rest : Record} {s : Store}
    {held : Option Suspension} (h : Cell c k rest s held) {p : Suspension} (hp : p.stepId ≠ "") :
    ∃ saved taken, RoundTrip c p s saved taken := by
  obtain ⟨saved, hsave, hsaved⟩ := h.save p
  rw [kept_of_ne_empty hp] at hsaved
  obtain ⟨taken, htake, htaken, hgone⟩ := hsaved.take
  obtain ⟨fields, hload, -, hshows⟩ := id htaken
  have hempty : fields.get? slotField = none := hload.slot?.symm.trans hgone
  have hagain : (Slot.take c).run taken = .ok (none, taken) := by
    refine run_take_of_load_empty hload ?_
    rw [withoutSlot, Value.toRecord_object]
    simp only [bind, Except.bind, hempty]
    rfl
  exact ⟨saved, taken,
    { save := hsave
      look := hsaved.look
      take := htake
      gone := hgone
      nothing := ⟨htaken.look, hagain⟩
      filled := h.beside hsaved
      emptied := h.beside htaken }⟩

/-- **A suspension goes through a slot and back.** What is stored of one that names a step is read
as what it was. In a conversation whose slot is empty or was written by the desk, it is found and
taken as it was saved, and only once; and whatever is done with the slot, in whatever order, the
answers are those of a cell, and the rest of the conversation stays as it was. -/
theorem round_trips :
    (∀ p : Suspension, p.stepId ≠ "" → read? (.object p.record) = .ok (some p))
      ∧ ∀ (s : Store) (c : Int) (k : Conversation) (fields : Record),
        (load Conversation c).run s = .ok (some k, s) → k.metadata = .object fields →
          s.Written c →
            (∀ p : Suspension, p.stepId ≠ "" → ∃ saved taken, RoundTrip c p s saved taken)
              ∧ ∃ held, (Slot.get? c).run s = .ok (held, s) ∧ ∀ uses : List Use, ∃ s',
                (uses.mapM (Use.perform c)).run s = .ok (answers held uses, s')
                  ∧ Beside c s s' := by
  refine ⟨fun p hp => read?_record hp, fun s c k fields hload hfields hwritten => ?_⟩
  obtain ⟨held, hcell⟩ := exists_cell hload hfields hwritten
  refine ⟨fun p hp => hcell.roundTrip hp, held, hcell.look, fun uses => ?_⟩
  obtain ⟨s', hrun, hend⟩ := hcell.run uses
  exact ⟨s', hrun, hcell.beside hend⟩

/-! ### A regular -/

/-- A conversation that was marked by somebody else. -/
def regular : Conversation where
  id := 1
  channelId := 1
  clientId := none
  operatorId := none
  status := "open"
  metadata := .object [("telegram_chat_id", .int 7), ("regular", .bool true)]
  unreadCount := 0
  lastMessageAt := none

/-- An automation that waits for an answer. -/
def waiting : Suspension :=
  ⟨3, "ask", 12, [("condition_type", .str "message_contains"), ("condition_value", .str "yes")]⟩

/-- The mark is there while the automation waits, and the conversation is as it was afterwards. -/
theorem round_trips_regular :
    (load Conversation 1).run { conversations := [regular] }
        = .ok (some regular, { conversations := [regular] })
      ∧ Store.Written { conversations := [regular] } 1
      ∧ ∃ saved taken, RoundTrip 1 waiting { conversations := [regular] } saved taken
        ∧ saved.noted? 1 "regular" = some (.bool true)
        ∧ taken.find? Conversation 1 = some regular := by
  have hwritten : Store.Written { conversations := [regular] } 1 := by
    intro v hv
    cases hv
  obtain ⟨-, hstores⟩ := round_trips
  obtain ⟨hsaved, -⟩ := hstores { conversations := [regular] } 1 regular _ rfl rfl hwritten
  obtain ⟨saved, taken, h⟩ := hsaved waiting (by decide)
  refine ⟨rfl, hwritten, saved, taken, h, ?_, ?_⟩
  · exact h.filled.others "regular" (by decide)
  · exact h.emptied.restored rfl h.gone

end Slot

end Deskflow
