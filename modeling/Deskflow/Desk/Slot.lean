import Deskflow.Desk.Transaction
import Deskflow.Suspension

/-!
# The slot of a conversation

Reading, filling and emptying the slot in which a conversation keeps a suspended automation. It is
emptied before what it held is looked at, so that a suspension is looked at once.

`Store.slot?` is what the slot of a conversation holds.

Models `get`, `save` and `take` of `PausedExecutionStore`; its locks are in `Lock`.

* `Slot.save_eq_ok`: a suspension that is saved is what the slot holds then.
* `Slot.take_eq_ok`: what is taken is what the slot held, and the slot is empty then.
* `Slot.run_take_of_empty`: nothing is taken from metadata without a slot.
-/

namespace Deskflow

namespace Slot

open Transaction

/-- The suspension that a conversation keeps, if there is one (`get`). -/
def get? (conversationId : Int) : Transaction (Option Suspension) := do
  let some conversation ← load Conversation conversationId | return none
  Suspension.slotIn conversation.metadata

/-- Fills the slot of a conversation, whatever it held. -/
def fill (conversationId : Int) (content : Except Fault Record) : Transaction Unit := do
  let some conversation ← load Conversation conversationId | return ()
  let fields ← Suspension.fillSlot conversation.metadata content
  edit Conversation conversationId fun c => { c with metadata := .object fields }

/-- Puts a suspension into the slot of a conversation (`save`). -/
def save (conversationId : Int) (suspension : Suspension) : Transaction Unit :=
  fill conversationId (.ok suspension.record)

/-- Empties the slot of a conversation, and tells the suspension it held (`take`). -/
def take (conversationId : Int) : Transaction (Option Suspension) := do
  let some conversation ← load Conversation conversationId | return none
  let some (held, fields) ← Suspension.withoutSlot conversation.metadata | return none
  edit Conversation conversationId fun c => { c with metadata := .object fields }
  Suspension.read? held

end Slot

/-- What metadata holds in the slot, if it has one. -/
def Suspension.held? (metadata : Value) : Option Value :=
  match withoutSlot metadata with
  | .ok (some (v, _)) => some v
  | _ => none

/-- What the slot of a conversation holds, if it has one. -/
def Store.slot? (s : Store) (conversationId : Int) : Option Value :=
  (s.find? Conversation conversationId).bind fun c => Suspension.held? c.metadata

/-- The store with other metadata in a conversation. -/
def Store.withMetadata (s : Store) (conversationId : Int) (fields : Record) : Store :=
  s.modify Conversation conversationId fun c => { c with metadata := .object fields }

/-! ## Lemmas -/

namespace Suspension

theorem held?_put (r : Record) (v : Value) : held? (.object (r.put slotField v)) = some v := by
  simp [held?, withoutSlot, bind, Except.bind, pure, Except.pure]

theorem held?_erase (r : Record) : held? (.object (r.erase slotField)) = none := by
  simp [held?, withoutSlot, bind, Except.bind, pure, Except.pure]

theorem held?_of_fillSlot {metadata : Value} {content fields : Record}
    (h : fillSlot metadata (.ok content) = .ok fields) :
    held? (.object fields) = some (.object content) := by
  obtain ⟨r, -, h⟩ := Fault.bind_eq_ok.mp h
  obtain ⟨_, -, h⟩ := Fault.bind_eq_ok.mp h
  cases h
  exact held?_put r _

/-- The rest of the metadata stays when the slot is filled, -/
theorem field_of_fillSlot {metadata v : Value} {content : Except Fault Record} {fields : Record}
    {name : String} (h : fillSlot metadata content = .ok fields) (hname : name ≠ slotField)
    (hv : metadata.field name = .ok v) : (Value.object fields).field name = .ok v := by
  obtain ⟨r, hr, h⟩ := Fault.bind_eq_ok.mp h
  obtain ⟨_, -, h⟩ := Fault.bind_eq_ok.mp h
  obtain ⟨_, -, h⟩ := Fault.bind_eq_ok.mp h
  cases h
  rw [Value.field_object, Record.getD, Record.get?_put_ne r _ hname, ← Record.getD,
    Value.getD_of_toRecord hr hv]

/-- and when it is emptied. -/
theorem field_of_withoutSlot {metadata held v : Value} {fields : Record} {name : String}
    (h : withoutSlot metadata = .ok (some (held, fields))) (hname : name ≠ slotField)
    (hv : metadata.field name = .ok v) : (Value.object fields).field name = .ok v := by
  obtain ⟨r, hr, h⟩ := Fault.bind_eq_ok.mp h
  obtain ⟨_, -, hfields⟩ := Option.map_eq_some_iff.mp (Except.ok.inj h)
  cases hfields
  rw [Value.field_object, Record.getD, Record.get?_erase_ne r hname, ← Record.getD,
    Value.getD_of_toRecord hr hv]

theorem held?_of_withoutSlot {metadata v : Value} {fields : Record}
    (h : withoutSlot metadata = .ok (some (v, fields))) :
    held? metadata = some v ∧ held? (.object fields) = none := by
  refine ⟨by simp [held?, h], ?_⟩
  obtain ⟨r, -, h⟩ := Fault.bind_eq_ok.mp h
  obtain ⟨_, -, hfields⟩ := Option.map_eq_some_iff.mp (Except.ok.inj h)
  cases hfields
  exact held?_erase r

end Suspension

namespace Store

theorem slot?_of_none {s : Store} {c : Int} (h : s.find? Conversation c = none) :
    s.slot? c = none := by
  simp [slot?, h]

theorem slot?_of_some {s : Store} {c : Int} {k : Conversation}
    (h : s.find? Conversation c = some k) : s.slot? c = Suspension.held? k.metadata := by
  simp [slot?, h]

theorem find?_withMetadata_self (s : Store) (c : Int) (fields : Record) :
    (s.withMetadata c fields).find? Conversation c =
      (s.find? Conversation c).map fun k => { k with metadata := .object fields } :=
  find?_modify_self s c _ fun _ => rfl

/-- Where a conversation is not there, its metadata cannot change. -/
theorem withMetadata_of_none {s : Store} {c : Int} (h : s.find? Conversation c = none)
    (fields : Record) : s.withMetadata c fields = s := by
  have hrows : (s.conversations.map fun k : Conversation =>
      if Row.id k == c then { k with metadata := .object fields } else k) = s.conversations := by
    refine (List.map_congr_left fun k hk => ?_).trans (List.map_id _)
    exact if_neg (List.find?_eq_none.mp h k hk)
  exact congrArg (fun rows => { s with conversations := rows }) hrows

theorem slot?_withMetadata_self {s : Store} {c : Int} {k : Conversation}
    (h : s.find? Conversation c = some k) (fields : Record) :
    (s.withMetadata c fields).slot? c = Suspension.held? (.object fields) := by
  rw [slot?, find?_withMetadata_self, h]
  rfl

theorem slot?_withMetadata_ne (s : Store) {c other : Int} (fields : Record) (h : other ≠ c) :
    (s.withMetadata c fields).slot? other = s.slot? other := by
  unfold slot? withMetadata
  rw [find?_modify_ne]
  · exact fun _ => rfl
  · exact h

end Store

namespace Slot

open Transaction

/-- The slot of a conversation that is there is filled; for one that is not, nothing is done. -/
theorem fill_eq_ok {c : Int} {content : Except Fault Record} {s s' : Store}
    (h : (fill c content).run s = .ok ((), s')) :
    (s.find? Conversation c = none ∧ s' = s) ∨
      ∃ k fields, s.find? Conversation c = some k
        ∧ Suspension.fillSlot k.metadata content = .ok fields
        ∧ s' = s.withMetadata c fields := by
  unfold fill at h
  obtain ⟨found, s₁, h₁, h⟩ := run_bind_eq_ok.mp h
  obtain ⟨rfl, rfl, -⟩ := run_load_eq_ok h₁
  cases hk : s₁.find? Conversation c with
  | none =>
    rw [hk] at h
    cases h
    exact .inl ⟨rfl, rfl⟩
  | some k =>
    rw [hk] at h
    obtain ⟨fields, s₂, h₂, h⟩ := run_bind_eq_ok.mp h
    obtain ⟨hf, rfl⟩ := lift_eq_ok h₂
    cases h
    exact .inr ⟨k, fields, rfl, hf, rfl⟩

/-- A suspension is saved in a conversation that is there; for one that is not, nothing is done. -/
theorem save_eq_ok {c : Int} {suspension : Suspension} {s s' : Store}
    (h : (save c suspension).run s = .ok ((), s')) :
    (s.find? Conversation c = none ∧ s' = s) ∨
      ∃ k fields, s.find? Conversation c = some k
        ∧ Suspension.held? (.object fields) = some (.object suspension.record)
        ∧ s' = s.withMetadata c fields := by
  rcases fill_eq_ok h with hnone | ⟨k, fields, hk, hf, rfl⟩
  · exact .inl hnone
  · exact .inr ⟨k, fields, hk, Suspension.held?_of_fillSlot hf, rfl⟩

/-- What is taken is read from what the slot held, which is erased. -/
theorem erased_of_take {c : Int} {taken : Option Suspension} {s s' : Store}
    (h : (take c).run s = .ok (taken, s')) :
    (taken = none ∧ s' = s) ∨
      ∃ k held fields, s.find? Conversation c = some k
        ∧ Suspension.withoutSlot k.metadata = .ok (some (held, fields))
        ∧ Suspension.read? held = .ok taken
        ∧ s' = s.withMetadata c fields := by
  unfold take at h
  obtain ⟨found, s₁, h₁, h⟩ := run_bind_eq_ok.mp h
  obtain ⟨rfl, rfl, -⟩ := run_load_eq_ok h₁
  cases hk : s₁.find? Conversation c with
  | none =>
    rw [hk] at h
    cases h
    exact .inl ⟨rfl, rfl⟩
  | some k =>
    rw [hk] at h
    obtain ⟨slot, s₂, h₂, h⟩ := run_bind_eq_ok.mp h
    obtain ⟨hslot, rfl⟩ := lift_eq_ok h₂
    cases slot with
    | none =>
      cases h
      exact .inl ⟨rfl, rfl⟩
    | some p =>
      obtain ⟨held, fields⟩ := p
      obtain ⟨_, s₃, h₃, h⟩ := run_bind_eq_ok.mp h
      cases h₃
      obtain ⟨hread, rfl⟩ := lift_eq_ok h
      exact .inr ⟨k, held, fields, rfl, hslot, hread, rfl⟩

/-- What is taken is read from what the slot held, and the slot is empty then. -/
theorem take_eq_ok {c : Int} {taken : Option Suspension} {s s' : Store}
    (h : (take c).run s = .ok (taken, s')) :
    (taken = none ∧ s' = s) ∨
      ∃ k held fields, s.find? Conversation c = some k
        ∧ Suspension.held? k.metadata = some held
        ∧ Suspension.held? (.object fields) = none
        ∧ Suspension.read? held = .ok taken
        ∧ s' = s.withMetadata c fields := by
  rcases erased_of_take h with hnone | ⟨k, held, fields, hk, hslot, hread, rfl⟩
  · exact .inl hnone
  · obtain ⟨hheld, hempty⟩ := Suspension.held?_of_withoutSlot hslot
    exact .inr ⟨k, held, fields, hk, hheld, hempty, hread, rfl⟩

section

variable {c : Int} {k : Conversation} {s : Store}

/-- What the slot of a conversation that is there holds is read, -/
theorem run_get_of_load (h : (load Conversation c).run s = .ok (some k, s)) :
    (get? c).run s = (Suspension.slotIn k.metadata).map fun p => (p, s) := by
  rw [get?, StateT.run_bind, h]
  show (liftM (Suspension.slotIn k.metadata) : Transaction _).run s = _
  cases Suspension.slotIn k.metadata <;> rfl

/-- the slot is filled, -/
theorem run_fill_of_load (h : (load Conversation c).run s = .ok (some k, s))
    (content : Except Fault Record) :
    (fill c content).run s
      = (Suspension.fillSlot k.metadata content).map fun fields =>
          ((), s.withMetadata c fields) := by
  rw [fill, StateT.run_bind, h]
  simp only [bind, Except.bind]
  cases Suspension.fillSlot k.metadata content <;> rfl

/-- and what is taken from it is read once it is empty. -/
theorem run_take_of_load {held : Value} {fields : Record}
    (h : (load Conversation c).run s = .ok (some k, s))
    (hslot : Suspension.withoutSlot k.metadata = .ok (some (held, fields))) :
    (take c).run s = (Suspension.read? held).map fun p => (p, s.withMetadata c fields) := by
  rw [take, StateT.run_bind, h]
  simp only [bind, Except.bind]
  rw [hslot]
  show (liftM (Suspension.read? held) : Transaction _).run (s.withMetadata c fields) = _
  cases Suspension.read? held <;> rfl

/-- From an empty slot nothing is taken. -/
theorem run_take_of_load_empty (h : (load Conversation c).run s = .ok (some k, s))
    (hslot : Suspension.withoutSlot k.metadata = .ok none) : (take c).run s = .ok (none, s) := by
  refine run_bind_eq_ok.mpr ⟨some k, s, h, ?_⟩
  exact run_bind_eq_ok.mpr ⟨none, s, run_lift_ok hslot s, rfl⟩

end

theorem run_take_of_empty {conversationId : Int} {s : Store} {c : Conversation}
    (hTable : s.absent.contains .conversations = false) (hFit : fits conversationId = true)
    (hc : s.find? Conversation conversationId = some c)
    (hEmpty : Suspension.withoutSlot c.metadata = .ok none) :
    (take conversationId).run s = .ok (none, s) :=
  run_take_of_load_empty (hc ▸ run_load_of_fits hTable hFit) hEmpty

end Slot

end Deskflow
