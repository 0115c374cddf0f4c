import Deskflow.Desk.Column

/-!
# Histories

The messages of a conversation: what the desk sent, what it noted for the operators, and what came
in. Notes say what an automation did; they stand in the history and are never sent.

Models `add_outgoing_message`, `add_system_message`, `mark_edited`, `latest_incoming_text` and
`get_messages`.

* `run_addOutgoing`: a message that the desk sent is added under the next id.
* `pageSize_bounds`: a page holds between 1 and 200 entries.
-/

namespace Deskflow

/-- A message that the desk sent. -/
structure Outgoing where
  content : String
  kind : String := "text"
  attachments : Value := .null
  providerMessageId : Option Int := none
  metadata : Record := []
deriving DecidableEq, Repr

namespace History

open Transaction

/-- A message that the desk sent, as it is stored. Its metadata say who sent it, unless they are
given another sender. -/
def outgoingRow (now : Moment) (c : Conversation) (o : Outgoing) : Message :=
  { id := 0
    conversationId := c.id
    channelId := c.channelId
    clientId := none
    operatorId := none
    direction := "outgoing"
    kind := o.kind
    content := some o.content
    status := "sent"
    attachments := o.attachments.kept
    providerMessageId := o.providerMessageId
    metadata := .object (Record.merge [("sent_by", .str "automation")] o.metadata)
    createdAt := some now }

/-- Adds a message that the desk sent (`add_outgoing_message`); tells its id. -/
def addOutgoing (now : Moment) (c : Conversation) (o : Outgoing) : Transaction Int := do
  need .messages
  fit? o.providerMessageId
  return (← add (outgoingRow now c o)).id

/-- The note of an action of an automation (`add_system_message`). -/
def note (content action : String) (details : Record) : Outgoing :=
  { content
    metadata := Record.merge [("system_action", .str action)] details }

/-- Whether a message came in with an id of the messaging service. -/
def isIncoming (conversationId providerMessageId : Int) (m : Message) : Bool :=
  m.conversationId == conversationId && m.direction == "incoming"
    && m.providerMessageId == some providerMessageId

/-- The message that came in with an id of the messaging service. -/
def incoming? (conversationId providerMessageId : Int) : Transaction (Option Message) := do
  let messages ← rows Message
  fit conversationId
  fit providerMessageId
  return messages.find? (isIncoming conversationId providerMessageId)

/-- Replaces the content of a message that came in, and marks it as edited (`mark_edited`); tells
whether there is such a message. -/
def markEdited (conversationId providerMessageId : Int) (content : String) : Transaction Bool := do
  let some message ← incoming? conversationId providerMessageId | return false
  let fields ← match message.metadata.orElse (.object []) with
    | .object fields => pure fields
    | v => throw (.notMapping v.kind)
  edit Message message.id fun m =>
    { m with
      content := some content
      metadata := .object (Record.put fields "edited" (.bool true)) }
  return true

/-- Whether a message was made before another one, by time and then by id. -/
def precedes (a b : Message) : Bool :=
  Moment.isBefore a.createdAt b.createdAt || (a.createdAt = b.createdAt && a.id ≤ b.id)

/-- The messages of a conversation, the oldest first. -/
def messagesOf (messages : List Message) (conversationId : Int) : List Message :=
  sortBy precedes (messages.filter fun m => m.conversationId == conversationId)

/-- The text that came in last, if any did (`latest_incoming_text`); empty if it had no content. -/
def latestText (conversationId : Int) : Transaction (Option String) := do
  let messages ← rows Message
  fit conversationId
  let received := (messagesOf messages conversationId).filter fun m => m.direction == "incoming"
  return received.getLast?.map fun m => m.content.getD ""

/-- The number of entries that a request for `limit` of them gets: 50 if it names none, and at
least 1 and at most 200. -/
def pageSize (limit : Value) : Except Fault Nat := do
  let wanted ← (limit.orElse (.int 50)).toInt
  return (max 1 (min wanted 200)).toNat

/-- The oldest messages of a conversation, up to a limit (`get_messages`). -/
def oldest (conversationId limit : Value) : Transaction (List Message) := do
  let size ← pageSize limit
  let id ← conversationId.toInt
  let messages ← rows Message
  fit id
  return (messagesOf messages id).take size

/-! ## Lemmas -/

theorem run_addOutgoing (now : Moment) (c : Conversation) (o : Outgoing) (s : Store)
    (hTable : s.absent.contains .messages = false)
    (hFit : ∀ n, o.providerMessageId = some n → fits n = true) :
    (addOutgoing now c o).run s =
      .ok (s.nextId Message, s.insert { outgoingRow now c o with id := s.nextId Message }) := by
  have hTable' : s.absent.contains (Row.table Message) = false := hTable
  have hfit : (fit? o.providerMessageId).run s = .ok ((), s) := by
    cases h : o.providerMessageId with
    | none => rfl
    | some n => simp [fit?, run_fit, hFit n h]
  simp only [addOutgoing, StateT.run_bind, run_need, hTable, Bool.false_eq_true, if_false]
  simp only [bind, Except.bind, hfit, run_add, hTable', Bool.false_eq_true, if_false]
  rfl

/-- A message whose id does not fit 64 bits is not added. -/
theorem run_addOutgoing_of_unfit (now : Moment) (c : Conversation) {o : Outgoing} {s : Store}
    {n : Int} (hTable : s.absent.contains .messages = false) (hid : o.providerMessageId = some n)
    (hFit : fits n = false) : (addOutgoing now c o).run s = .error .integerRange := by
  have hfit : (fit? o.providerMessageId).run s = .error .integerRange := by
    simp [hid, fit?, run_fit, hFit]
  simp only [addOutgoing, StateT.run_bind, run_need, hTable, Bool.false_eq_true, if_false]
  simp only [bind, Except.bind, hfit]

theorem addOutgoing_eq_ok {now : Moment} {c : Conversation} {o : Outgoing} {s s' : Store} {id : Int}
    (h : (addOutgoing now c o).run s = .ok (id, s')) :
    s' = s.insert { outgoingRow now c o with id := s.nextId Message } := by
  unfold addOutgoing at h
  obtain ⟨_, s₁, h₁, h⟩ := run_bind_eq_ok.mp h
  obtain ⟨_, s₂, h₂, h⟩ := run_bind_eq_ok.mp h
  obtain ⟨m, s₃, h₃, h⟩ := run_bind_eq_ok.mp h
  cases h
  obtain rfl := need_eq_ok h₁
  obtain rfl := fit?_eq_ok h₂
  rw [run_add] at h₃
  split at h₃
  · cases h₃
  · cases h₃
    rfl

/-- Where the messages are there and ids fit, the message that came in under an id is found. -/
theorem run_incoming? {c p : Int} {s : Store} (hTable : s.absent.contains .messages = false)
    (hc : fits c = true) (hp : fits p = true) :
    (incoming? c p).run s = .ok (s.messages.find? (isIncoming c p), s) := by
  unfold incoming?
  refine run_bind_eq_ok.mpr ⟨s.messages, s, run_rows_eq_ok.mpr ⟨hTable, rfl, rfl⟩, ?_⟩
  refine run_bind_eq_ok.mpr ⟨(), s, by rw [run_fit, hc]; rfl, ?_⟩
  exact run_bind_eq_ok.mpr ⟨(), s, by rw [run_fit, hp]; rfl, rfl⟩

theorem pageSize_bounds {limit : Value} {n : Nat} (h : pageSize limit = .ok n) :
    1 ≤ n ∧ n ≤ 200 := by
  simp only [pageSize, bind, Except.bind, pure, Except.pure] at h
  split at h
  · simp at h
  · simp only [Except.ok.injEq] at h
    omega

end History

end Deskflow
