import Deskflow.Proofs.ResumeOnce

/-!
# What jams a slot

A slot may hold any value. Two kinds of values stop the desk: what has the shape of a suspension but
for a number that is none cannot be read (`Suspension.Jams`), so that it is never taken either, and
what is no object cannot be written over (`Suspension.Blocks`). Anything else is read, taken and
written over, and what the engine itself writes is of neither kind.

The slot is read in `get` and `take` by `from_dict`, and written over in `save`.

* `Suspension.read?_eq_error_iff`: what cannot be read.
* `Slot.Holds.run_get`, `Slot.Holds.run_take`, `Slot.Holds.run_save`: what the three operations do,
  whatever the slot holds.
* `written_handleIncoming`: a slot that was taken holds only what the engine writes from then on.
* `jams_exactly`: the result.
-/

namespace Deskflow

namespace Suspension

/-- Fields that cannot be read: they name an infinite automation; or they name an automation and a
step, and with them a run that is no number. -/
def JamsIn (fields : Record) : Prop :=
  ∃ automation, fields.get? "automation_id" = some automation
    ∧ (automation.toInt = .error .infiniteNumber
      ∨ (∃ n, automation.toInt = .ok n) ∧ (fields.getD "step_id").givenText ≠ ""
        ∧ storedRun fields ≠ .null ∧ ∀ n, (storedRun fields).toInt ≠ .ok n)

/-- What cannot be read: an object with such fields. -/
def Jams : Value → Prop
  | .object fields => JamsIn fields
  | _ => False

/-- What cannot be written over: what counts as given, and is no object. -/
def Blocks (v : Value) : Prop := v.isGiven = true ∧ v.kind ≠ .object

/-- **Exactly what jams cannot be read.** -/
theorem readFields?_eq_error_iff (fields : Record) :
    (∃ fault, readFields? fields = .error fault) ↔ JamsIn fields := by
  unfold readFields? JamsIn
  cases hauto : fields.get? "automation_id" with
  | none => simp [pure, Except.pure]
  | some automation =>
    cases hint : automation.toInt with
    | error fault =>
      by_cases hfault : fault = .infiniteNumber
      · subst hfault
        simp [Value.toInt?, hint, bind, Except.bind]
      · simp [Value.toInt?, hint, bind, Except.bind, pure, Except.pure, hfault]
    | ok n =>
      by_cases hstep : (fields.getD "step_id").givenText = ""
      · simp [Value.toInt?, hint, bind, Except.bind, pure, Except.pure, hstep]
      · simp only [Value.toInt?, hint, bind, Except.bind, pure, Except.pure, hstep, if_false]
        generalize storedRun fields = run
        by_cases hnull : run = .null
        · subst hnull
          simp [hint]
        · cases hrun : run.toInt with
          | error fault => simp [hint, hstep, hnull, hrun]
          | ok m => simp [hint, hrun]

theorem read?_eq_error_iff (v : Value) : (∃ fault, read? v = .error fault) ↔ Jams v := by
  cases v with
  | object fields => exact readFields?_eq_error_iff fields
  | _ => simp [read?, Jams]

theorem exists_read? {v : Value} (h : ¬Jams v) : ∃ p, read? v = .ok p := by
  cases hread : read? v with
  | error fault => exact absurd ((read?_eq_error_iff v).mp ⟨fault, hread⟩) h
  | ok p => exact ⟨p, rfl⟩

/-- A suspension that is read, but makes the desk stumble once it is looked at: no table can hold
the id of its automation, or it waits for an infinite tag. -/
def Trips (t : Suspension) : Prop :=
  Transaction.fits t.automationId = false
    ∨ t.condition.getD "condition_type" = .str "has_tag"
      ∧ (t.condition.getD "condition_value").toInt = .error .infiniteNumber

/-- Any other condition can be judged, whatever is known. -/
theorem evaluate_of_not_trips {t : Suspension} (h : ¬Trips t) (facts : Facts) :
    ∃ holds, Condition.evaluate facts (t.condition.getD "condition_type")
      (t.condition.getD "condition_value") = .ok holds := by
  unfold Condition.evaluate
  split
  · rename_i hkind
    cases hint : (t.condition.getD "condition_value").toInt? with
    | error fault => exact absurd (.inr ⟨hkind, (Value.toInt?_eq_error hint).1⟩) h
    | ok id => cases id <;> exact ⟨_, rfl⟩
  · cases facts.latestText <;> exact ⟨_, rfl⟩
  · exact ⟨_, rfl⟩
  · exact ⟨_, rfl⟩
  · exact ⟨_, rfl⟩

/-- What the engine writes can be read, and written over. -/
theorem record_sound (t : Suspension) : ¬Jams (.object t.record) ∧ ¬Blocks (.object t.record) := by
  constructor
  · rintro ⟨automation, hauto, hinfinite | ⟨-, -, -, hrun⟩⟩
    · obtain rfl : Value.int t.automationId = automation := Option.some.inj hauto
      simp at hinfinite
    · exact hrun t.runId rfl
  · exact fun h => h.2 rfl

end Suspension

namespace Slot

open Transaction Suspension

variable {s : Store} {c : Int} {r : Record} {v : Value}

/-- A conversation has a record as its metadata, with a value in its slot. -/
structure Holds (s : Store) (c : Int) (r : Record) (v : Value) : Prop where
  tables : s.absent = []
  fits : fits c = true
  there : ∃ k, s.find? Conversation c = some k ∧ k.metadata = .object r
  slot : r.get? slotField = some v

theorem Holds.load (h : Holds s c r v) :
    ∃ k, (load Conversation c).run s = .ok (some k, s) ∧ k.metadata = .object r := by
  obtain ⟨k, hk, hr⟩ := h.there
  refine ⟨k, ?_, hr⟩
  rw [← hk]
  exact run_load_of_fits (by simp [h.tables]) h.fits

/-- What a slot holds is read. -/
theorem Holds.run_get (h : Holds s c r v) : (get? c).run s = (read? v).map fun p => (p, s) := by
  obtain ⟨k, hload, hr⟩ := h.load
  have hslot : slotIn k.metadata = read? v := by
    simp [slotIn, hr, Record.getD, h.slot, bind, Except.bind]
  rw [run_get_of_load hload, hslot]

/-- What a slot holds is read, and the slot emptied, if it can be read. -/
theorem Holds.run_take (h : Holds s c r v) :
    (take c).run s = (read? v).map fun p => (p, s.withMetadata c (r.erase slotField)) := by
  obtain ⟨k, hload, hr⟩ := h.load
  have hslot : withoutSlot k.metadata = .ok (some (v, r.erase slotField)) := by
    simp [withoutSlot, hr, h.slot, bind, Except.bind, pure, Except.pure]
  exact run_take_of_load hload hslot

/-- A slot is filled, if what it holds can be written over. -/
theorem Holds.run_save (h : Holds s c r v) (t : Suspension) :
    (¬Blocks v → (save c t).run s
        = .ok ((), s.withMetadata c (r.put slotField (.object t.record))))
      ∧ (Blocks v → (save c t).run s = .error (.noField v.kind "get")) := by
  obtain ⟨k, hload, hr⟩ := h.load
  have hfill : fillSlot k.metadata (.ok t.record) = (do
      let _ ← v.field "automation_id"
      return r.put slotField (.object t.record)) := by
    simp [fillSlot, hr, Record.getD, h.slot, bind, Except.bind]
  rw [save, run_fill_of_load hload, hfill]
  constructor
  · intro hfree
    have hfield : ∃ x, v.field "automation_id" = .ok x := by
      unfold Value.field
      by_cases hgiven : v.isGiven = true
      · have hkind : v.kind = .object := by
          by_contra hkind
          exact hfree ⟨hgiven, hkind⟩
        cases v with
        | object fields => exact ⟨_, by rw [if_pos hgiven]⟩
        | _ => cases hkind
      · exact ⟨_, by rw [if_neg hgiven]⟩
    obtain ⟨x, hx⟩ := hfield
    rw [hx]
    rfl
  · rintro ⟨hgiven, hkind⟩
    have hfield : v.field "automation_id" = .error (.noField v.kind "get") := by
      unfold Value.field
      rw [if_pos hgiven]
      cases v with
      | object fields => exact absurd rfl hkind
      | _ => rfl
    rw [hfield]
    rfl

end Slot

/-- What the slot of a conversation holds, if anything, was put there by the engine. -/
def Store.Written (s : Store) (c : Int) : Prop :=
  ∀ x, s.slot? c = some x → ∃ t : Suspension, x = .object t.record

namespace Engine

open Work World

variable {settings : Settings} {onTags : TagHandler} {c : Int}

/-! ## What the engine puts into slots -/

/-- A slot that holds only what the engine puts there does so still. -/
def Mends (c : Int) (w v : World) : Prop := w.store.Written c → v.store.Written c

instance : Std.Refl (Mends c) := ⟨fun _ h => h⟩

instance : IsTrans World (Mends c) := ⟨fun _ _ _ h k hw => k (h hw)⟩

theorem Mends.of_aside {w v : World} (h : Aside w v) : Mends c w v :=
  fun hw x hx => hw x (h.slot? hx)

theorem mends_awaitCondition (ctx : Context) (stepId : String) (cond : Condition) :
    Work.Keeps (Mends c) (awaitCondition ctx stepId cond) := by
  refine keeps_awaitCondition fun w facts s _ hs hw x hx => ?_
  rcases Slot.slot?_of_save hs hx with hx | ⟨-, rfl⟩
  · exact hw x hx
  · exact ⟨_, rfl⟩

theorem runwork_mends (settings : Settings) (c : Int) : Runwork settings c (Mends c) where
  executes := keeps_execute (fun _ _ h => h) (fun _ _ h => h) (.of_aside settings Mends.of_aside)
    mends_awaitCondition
  remembers _ _ h := h

/-! ## Messages -/

variable {w : World} {r : Record} {v : Value}

/-- What cannot be read stops every message, and stays where it is. -/
theorem handleIncoming_of_error (h : Slot.Holds w.store c r v) {fault : Fault}
    (hread : Suspension.read? v = .error fault) {receipt : Receipt}
    (hnew : receipt.duplicate = false) (hc : receipt.conversationId = c) :
    (handleIncoming settings receipt).runOn w = (.error fault, w) := by
  subst hc
  have hresume : (resume settings receipt.conversationId).runOn w = (.error fault, w) := by
    unfold resume
    rw [runOn_bind, query, run_transact, h.run_take, hread]
    rfl
  unfold handleIncoming
  rw [if_neg (by simp [hnew]), runOn_bind, hresume]

/-- What is no suspension is dropped, and then a message is handled as if it had not been there. -/
theorem handleIncoming_of_none (h : Slot.Holds w.store c r v)
    (hread : Suspension.read? v = .ok none) {receipt : Receipt}
    (hnew : receipt.duplicate = false) (hc : receipt.conversationId = c) :
    (handleIncoming settings receipt).runOn w = (handleIncoming settings receipt).runOn
      { w with store := w.store.withMetadata c (r.erase Suspension.slotField) } := by
  subst hc
  have hheld : (resume settings receipt.conversationId).runOn w = (.ok none, { w with
      store := w.store.withMetadata receipt.conversationId (r.erase Suspension.slotField) }) := by
    unfold resume
    rw [runOn_bind, query, run_transact, h.run_take, hread]
    rfl
  have hempty : (resume settings receipt.conversationId).runOn { w with
      store := w.store.withMetadata receipt.conversationId (r.erase Suspension.slotField) }
        = (.ok none, { w with
          store := w.store.withMetadata receipt.conversationId
            (r.erase Suspension.slotField) }) := by
    obtain ⟨k, hk, -⟩ := h.there
    have hfind := Store.find?_withMetadata_self w.store receipt.conversationId
      (r.erase Suspension.slotField)
    rw [hk] at hfind
    have htables : (w.store.withMetadata receipt.conversationId
        (r.erase Suspension.slotField)).absent.contains .conversations = false := by
      show w.store.absent.contains .conversations = false
      simp [h.tables]
    unfold resume
    rw [runOn_bind, query, run_transact, Slot.run_take_of_empty htables h.fits hfind
      (by simp [Suspension.withoutSlot, bind, Except.bind, pure, Except.pure])]
    rfl
  unfold handleIncoming
  rw [if_neg (by simp [hnew]), runOn_bind, runOn_bind, hheld, hempty]

/-- **What was taken from a slot does not come back**: from then on the slot holds only what the
engine puts there, whatever else becomes of the message. -/
theorem written_handleIncoming (h : Slot.Holds w.store c r v) (hfree : ¬Suspension.Jams v)
    {receipt : Receipt} (hnew : receipt.duplicate = false) (hc : receipt.conversationId = c) :
    ((handleIncoming settings receipt).runOn w).2.store.Written c := by
  subst hc
  obtain ⟨p, hread⟩ := Suspension.exists_read? hfree
  have htaken : (Slot.take receipt.conversationId).run w.store = .ok (p,
      w.store.withMetadata receipt.conversationId (r.erase Suspension.slotField)) := by
    rw [h.run_take, hread]
    rfl
  have emptied : ∀ t s, (Slot.take receipt.conversationId).run w.store = .ok (t, s) →
      s.Written receipt.conversationId := by
    intro t s htake x hx
    rw [htaken] at htake
    cases htake
    obtain ⟨k, hk, -⟩ := h.there
    rw [Store.slot?_withMetadata_self hk, Suspension.held?_erase] at hx
    cases hx
  have work := runwork_mends settings receipt.conversationId
  refine handleIncoming_induct (P := fun v => v.store.Written receipt.conversationId)
    (fun hdup => ?_) (resume_induct (P := fun v => v.store.Written receipt.conversationId)
      (fun fault htake => ?_) emptied ?_)
    fun event hevent v hv => work.dispatch hevent v hv
  · rw [hnew] at hdup
    cases hdup
  · rw [htaken] at htake
    cases htake
  · intro t s flow remaining hyields
    exact work.executes work.chained flow _ _ _ (emptied _ s hyields.taken)

/-- A suspension of an automation whose id no table can hold stops one message, and is gone. -/
theorem handleIncoming_of_unfit (h : Slot.Holds w.store c r v) {t : Suspension}
    (hread : Suspension.read? v = .ok (some t)) (hfit : Transaction.fits t.automationId = false)
    {receipt : Receipt} (hnew : receipt.duplicate = false) (hc : receipt.conversationId = c) :
    (handleIncoming settings receipt).runOn w = (.error .integerRange, { w with
      store := w.store.withMetadata c (r.erase Suspension.slotField) }) := by
  subst hc
  have hload : (Flow.load? t.automationId).run (w.store.withMetadata receipt.conversationId
      (r.erase Suspension.slotField)) = .error .integerRange := by
    have htables : (w.store.withMetadata receipt.conversationId
        (r.erase Suspension.slotField)).absent = [] := h.tables
    rw [Flow.load?, StateT.run_bind, Transaction.run_load, htables, hfit]
    rfl
  have hresume : (resume settings receipt.conversationId).runOn w = (.error .integerRange, { w with
      store := w.store.withMetadata receipt.conversationId (r.erase Suspension.slotField) }) := by
    unfold resume
    rw [runOn_bind, query, run_transact, h.run_take, hread]
    simp only [Except.map]
    rw [runOn_bind, query, run_transact, hload]
  unfold handleIncoming
  rw [if_neg (by simp [hnew]), runOn_bind, hresume]

/-- Where its id fits, the automation of a suspension can be looked for. -/
theorem exists_load {s : Store} (htables : s.absent = []) {id : Int}
    (hfit : Transaction.fits id = true) : ∃ flow, (Flow.load? id).run s = .ok (flow, s) := by
  have hload : (Transaction.load Automation id).run s = .ok (s.find? Automation id, s) :=
    Transaction.run_load_of_fits (by simp [htables]) hfit
  cases hfind : s.find? Automation id with
  | none => exact ⟨none, Transaction.run_bind_eq_ok.mpr ⟨none, s, hfind ▸ hload, rfl⟩⟩
  | some automation =>
    refine ⟨some (Flow.ofAutomation s automation), ?_⟩
    refine Transaction.run_bind_eq_ok.mpr ⟨some automation, s, hfind ▸ hload, ?_⟩
    exact Transaction.run_bind_eq_ok.mpr
      ⟨(), s, by rw [Transaction.run_need, htables]; rfl, rfl⟩

/-! ## The result -/

/-- What becomes of a value that the slot of a conversation holds. -/
structure Fate (settings : Settings) (w : World) (c : Int) (r : Record) (v : Value) : Prop where
  /-- It cannot be read exactly if it jams, -/
  unreadable : (∃ fault, (Slot.get? c).run w.store = .error fault) ↔ Suspension.Jams v
  /-- and then it cannot be taken, -/
  untakable : (∃ fault, (Slot.take c).run w.store = .error fault) ↔ Suspension.Jams v
  /-- so that every message fails, and leaves all as it was for the next one. -/
  stuck : Suspension.Jams v → ∃ fault, ∀ receipt : Receipt, receipt.duplicate = false →
    receipt.conversationId = c → (handleIncoming settings receipt).runOn w = (.error fault, w)
  /-- Anything else is read and taken, -/
  taken : ¬Suspension.Jams v → ∃ p, Suspension.read? v = .ok p
    ∧ (Slot.get? c).run w.store = .ok (p, w.store)
    ∧ (Slot.take c).run w.store
      = .ok (p, w.store.withMetadata c (r.erase Suspension.slotField))
  /-- and does not come back, whatever becomes of the message. -/
  gone : ¬Suspension.Jams v → ∀ receipt : Receipt, receipt.duplicate = false →
    receipt.conversationId = c →
      ((handleIncoming settings receipt).runOn w).2.store.Written c
  /-- What is no suspension is dropped, as if it had not been there. -/
  dropped : Suspension.read? v = .ok none → ∀ receipt : Receipt, receipt.duplicate = false →
    receipt.conversationId = c → (handleIncoming settings receipt).runOn w
      = (handleIncoming settings receipt).runOn
        { w with store := w.store.withMetadata c (r.erase Suspension.slotField) }
  /-- What is a suspension is looked at without a fault of its own if it does not trip; -/
  sound : ∀ t, Suspension.read? v = .ok (some t) → ¬Suspension.Trips t →
    (∃ flow, (Flow.load? t.automationId).run
        (w.store.withMetadata c (r.erase Suspension.slotField))
      = .ok (flow, w.store.withMetadata c (r.erase Suspension.slotField)))
    ∧ ∀ facts, ∃ holds, Condition.evaluate facts (t.condition.getD "condition_type")
      (t.condition.getD "condition_value") = .ok holds
  /-- and an automation's id that fits no table stops one message. -/
  unfit : ∀ t, Suspension.read? v = .ok (some t) → Transaction.fits t.automationId = false →
    ∀ receipt : Receipt, receipt.duplicate = false → receipt.conversationId = c →
      (handleIncoming settings receipt).runOn w = (.error .integerRange, { w with
        store := w.store.withMetadata c (r.erase Suspension.slotField) })
  /-- It cannot be written over exactly if it blocks; -/
  unwritable : ∀ t, (∃ fault, (Slot.save c t).run w.store = .error fault) ↔ Suspension.Blocks v
  /-- anything else is. -/
  written : ¬Suspension.Blocks v → ∀ t, (Slot.save c t).run w.store
    = .ok ((), w.store.withMetadata c (r.put Suspension.slotField (.object t.record)))
  /-- Other fields of the metadata stay as they are. -/
  others : ∀ name, name ≠ Suspension.slotField →
    (r.erase Suspension.slotField).get? name = r.get? name
      ∧ ∀ x, (r.put Suspension.slotField x).get? name = r.get? name

/-- **What jams a slot.** Whatever the slot of a conversation holds, it is read, taken and written
over, and stops no message for good, except for exactly what jams and what blocks; and nothing that
the engine writes does. -/
theorem jams_exactly (settings : Settings) (h : Slot.Holds w.store c r v) :
    Fate settings w c r v
      ∧ ∀ t : Suspension, ¬Suspension.Jams (.object t.record)
        ∧ ¬Suspension.Blocks (.object t.record) := by
  have unreadable : ∀ {α : Type} (f : Option Suspension → α),
      (∃ fault, (Suspension.read? v).map f = .error fault) ↔ Suspension.Jams v := by
    intro α f
    rw [← Suspension.read?_eq_error_iff]
    cases Suspension.read? v <;> simp [Except.map]
  have jammed : Suspension.Jams v → ∃ fault, Suspension.read? v = .error fault :=
    (Suspension.read?_eq_error_iff v).mpr
  refine ⟨?_, Suspension.record_sound⟩
  exact
    { unreadable := h.run_get ▸ unreadable _
      untakable := h.run_take ▸ unreadable _
      stuck := fun hjams => by
        obtain ⟨fault, hread⟩ := jammed hjams
        exact ⟨fault, fun receipt hnew hc => handleIncoming_of_error h hread hnew hc⟩
      taken := fun hfree => by
        obtain ⟨p, hread⟩ := Suspension.exists_read? hfree
        exact ⟨p, hread, by rw [h.run_get, hread]; rfl, by rw [h.run_take, hread]; rfl⟩
      gone := fun hfree receipt hnew hc => written_handleIncoming h hfree hnew hc
      dropped := fun hread receipt hnew hc => handleIncoming_of_none h hread hnew hc
      sound := fun t hread hfree => by
        have hfit : Transaction.fits t.automationId = true := by
          by_contra hfit
          exact hfree (.inl (by simpa using hfit))
        have htables : (w.store.withMetadata c (r.erase Suspension.slotField)).absent = [] :=
          h.tables
        exact ⟨exists_load htables hfit, Suspension.evaluate_of_not_trips hfree⟩
      unfit := fun t hread hfit receipt hnew hc => handleIncoming_of_unfit h hread hfit hnew hc
      unwritable := fun t => by
        obtain ⟨hfree, hblocks⟩ := h.run_save t
        constructor
        · rintro ⟨fault, hfault⟩
          by_contra hnot
          rw [hfree hnot] at hfault
          cases hfault
        · exact fun hb => ⟨_, hblocks hb⟩
      written := fun hfree t => (h.run_save t).1 hfree
      others := fun name hname =>
        ⟨Record.get?_erase_ne r hname, fun x => Record.get?_put_ne r x hname⟩ }

/-! ### Two slots -/

/-- The metadata of a conversation with a value in its slot. -/
def lodgings (v : Value) : Record :=
  [("telegram_chat_id", .int 7), (Suspension.slotField, v)]

/-- A desk with one conversation, which has a value in its slot. -/
def lodge (v : Value) : World :=
  { store :=
      { conversations :=
          [{ id := 1, channelId := 1, clientId := none, operatorId := none, status := "open",
             metadata := .object (lodgings v), unreadCount := 0, lastMessageAt := none }] } }

theorem lodge_holds (v : Value) : Slot.Holds (lodge v).store 1 (lodgings v) v where
  tables := rfl
  fits := rfl
  there := ⟨_, rfl, rfl⟩
  slot := rfl

/-- A text in a slot is taken, but not written over. -/
theorem jams_exactly_lodge :
    Slot.Holds (lodge (.str "stale")).store 1 (lodgings (.str "stale")) (.str "stale")
      ∧ (Slot.take 1).run (lodge (.str "stale")).store
        = .ok (none, (lodge (.str "stale")).store.withMetadata 1 [("telegram_chat_id", .int 7)])
      ∧ ∀ t, ∃ fault, (Slot.save 1 t).run (lodge (.str "stale")).store = .error fault := by
  obtain ⟨fate, -⟩ := jams_exactly {} (lodge_holds (.str "stale"))
  obtain ⟨p, hread, -, htake⟩ := fate.taken id
  obtain rfl : none = p := Except.ok.inj hread
  exact ⟨lodge_holds _, htake, fun t => (fate.unwritable t).mpr ⟨by decide, by decide⟩⟩

/-- A suspension whose run is no number. -/
def wedge : Value :=
  .object [("automation_id", .int 99), ("step_id", .str "s1"), ("log_id", .str "abc")]

/-- A message in the conversation. -/
def knock : Receipt :=
  { conversationId := 1, messageId := 1, clientId := 1, channelId := 1, content := "Hello",
    isNewConversation := false, clientHasOtherChannels := false, automationsDisabled := false }

/-- What a slot holds can stop every message for good, and the engine from writing over it. -/
theorem not_always_cleared :
    ¬(∀ (w : World) (r : Record) (v : Value), Slot.Holds w.store 1 r v →
      (∃ p, (Slot.take 1).run w.store
          = .ok (p, w.store.withMetadata 1 (r.erase Suspension.slotField)))
        ∧ (∀ t, ∃ s, (Slot.save 1 t).run w.store = .ok ((), s))
        ∧ (handleIncoming {} knock).runOn w ≠ (.error (.malformedNumeral "abc"), w)) := by
  intro h
  have hread : Suspension.read? wedge = .error (.malformedNumeral "abc") := by decide
  obtain ⟨-, -, hanswer⟩ := h (lodge wedge) _ _ (lodge_holds wedge)
  exact hanswer (handleIncoming_of_error (lodge_holds wedge) hread rfl rfl)

end Engine

end Deskflow
