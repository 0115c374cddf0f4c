import Deskflow.Desk.History

/-!
# Inbound messages

Storing a message that came in. The client behind a user id and the conversation on the channel are
made on first contact. A message that is there already, by its id with the messaging service, is
not stored again, though the visit still leaves its mark on the client and the conversation.

Models `record_incoming`.

* `displayName_eq`: the name to show for a user.
* `Inbound.record_of_channel_missing`: without the channel nothing is stored.
-/

namespace Deskflow

/-- A message that comes in, as it is handed over. Ids may be any values that stand for integers,
and what is stored as free-form metadata may be any value. -/
structure Inbound where
  channelId : Value
  userId : Value
  chatId : Value
  name : Value := .str ""
  username : Value := .null
  language : Value := .null
  content : String := ""
  kind : String := "text"
  attachments : Value := .null
  providerMessageId : Value := .null
deriving DecidableEq, Repr

/-- What came of a message that came in (`IncomingRecord`). -/
structure Receipt where
  conversationId : Int
  messageId : Int
  clientId : Int
  channelId : Int
  content : String
  isNewConversation : Bool
  clientHasOtherChannels : Bool
  automationsDisabled : Bool
  duplicate : Bool := false
deriving DecidableEq, Repr

/-- The name to show for a user (`_display_name`): the names that are not empty, with a blank
between them. -/
def displayName (firstName lastName : Option String) : String :=
  Text.trim (Value.joinWith " " ([firstName, lastName].filterMap fun n => n.filter (· ≠ "")))

namespace Inbound

open Transaction

/-- The name that a message comes under, without blanks around it. -/
def givenName (m : Inbound) : Except Fault String :=
  match m.name.orElse (.str "") with
  | .str s => .ok (Text.trim s)
  | v => .error (.noField v.kind "strip")

/-- The id under which a user of the messaging service is known as a client. -/
def externalId (userId : Int) : String := "tg_" ++ integerText userId

/-- The client behind a user id, and whether it is a new one. A client that is known takes on the
name that the message comes under. -/
def client (m : Inbound) (name : String) : Transaction (Client × Bool) := do
  let userId ← m.userId.toInt
  let clients ← rows Client
  match clients.find? fun c => c.externalId = some (externalId userId) with
  | some c =>
    if name ≠ "" && c.name ≠ some name then
      edit Client c.id fun c => { c with name := some name }
    return (c, false)
  | none =>
    let c ← add
      { id := 0
        externalId := some (externalId userId)
        name := if name = "" then none else some name
        phone := none
        email := none
        metadata := .object
          [("telegram_id", .int userId), ("telegram_username", m.username),
            ("telegram_language", m.language)] }
    return (c, true)

/-- The conversation of a client on a channel, and whether it is a new one. -/
def conversation (now : Moment) (m : Inbound) (channelId clientId : Int) :
    Transaction (Conversation × Bool) := do
  let conversations ← rows Conversation
  match conversations.find? fun c => c.channelId = channelId && c.clientId = some clientId with
  | some c => return (c, false)
  | none =>
    let c ← add
      { id := 0
        channelId := channelId
        clientId := some clientId
        operatorId := none
        status := "new"
        metadata := .object [(chatField, .int (← m.chatId.toInt))]
        unreadCount := 0
        lastMessageAt := some now }
    return (c, true)

/-- Whether a client has conversations on other channels. -/
def hasOtherChannels (channelId clientId : Int) : Transaction Bool := do
  return (← rows Conversation).any fun c => c.clientId = some clientId && c.channelId ≠ channelId

/-- The metadata of a conversation, with the chat added if it names none. -/
def metadataWithChat (m : Inbound) (metadata : Value) : Except Fault Value := do
  let fields ← metadata.toRecord
  if fields.has chatField then return metadata
  return .object (fields.put chatField (.int (← m.chatId.toInt)))

/-- The message under the same id with the messaging service, if the message has one and is there
already. -/
def duplicate? (m : Inbound) (conversationId : Int) : Transaction (Option Message) :=
  if m.providerMessageId = .null then pure none
  else do History.incoming? conversationId (← m.providerMessageId.toInt)

/-- A message that came in, as it is stored. -/
def row (now : Moment) (m : Inbound) (conversationId channelId clientId chatId : Int)
    (providerMessageId : Option Int) : Message :=
  { id := 0
    conversationId
    channelId
    clientId := some clientId
    operatorId := none
    direction := "incoming"
    kind := m.kind
    content := some m.content
    status := "received"
    attachments := (m.attachments.orElse .null).kept
    providerMessageId
    metadata := .object [(chatField, .int chatId)]
    createdAt := some now }

/-- The id that a message has with the messaging service, if it has one. -/
def providerId? (m : Inbound) : Except Fault (Option Int) :=
  if m.providerMessageId = .null then .ok none else some <$> m.providerMessageId.toInt

/-- A conversation after a visit. -/
def visited (now : Moment) (metadata : Value) (c : Conversation) : Conversation :=
  { c with
    metadata
    lastMessageAt := some now
    status := if c.status = "resolved" then "open" else c.status }

/-- Stores a message that came in (`record_incoming`). -/
def record (now : Moment) (m : Inbound) : Transaction Receipt := do
  let name ← m.givenName
  let channelId ← m.channelId.toInt
  let some channel ← load Channel channelId | throw (.channelNotFound m.channelId.text)
  let (client, isNewClient) ← m.client name
  let others ← if isNewClient then pure false else hasOtherChannels channel.id client.id
  let (conversation, isNew) ← m.conversation now channel.id client.id
  let metadata ← m.metadataWithChat conversation.metadata
  edit Conversation conversation.id (visited now metadata)
  let receipt (messageId : Int) (isNew duplicate : Bool) : Transaction Receipt := do
    return {
      conversationId := conversation.id
      messageId
      clientId := client.id
      channelId := channel.id
      content := m.content
      isNewConversation := isNew
      clientHasOtherChannels := others
      automationsDisabled := ← channel.automationsDisabled
      duplicate }
  match ← m.duplicate? conversation.id with
  | some message => receipt message.id false true
  | none =>
    let providerMessageId ← m.providerId?
    let chatId ← m.chatId.toInt
    let message ← add (m.row now conversation.id channel.id client.id chatId providerMessageId)
    fit (conversation.unreadCount + 1)
    edit Conversation conversation.id fun c => { c with unreadCount := c.unreadCount + 1 }
    receipt message.id isNew false

end Inbound

/-! ## Lemmas -/

theorem Inbound.record_of_channel_missing {now : Moment} {m : Inbound} {name : String}
    {channelId : Int} {s : Store} (hName : m.givenName = .ok name)
    (hId : m.channelId.toInt = .ok channelId)
    (hTable : s.absent.contains .channels = false) (hFit : Transaction.fits channelId = true)
    (hChannel : s.find? Channel channelId = none) :
    (m.record now).run s = .error (.channelNotFound m.channelId.text) := by
  have hTable' : s.absent.contains (Row.table Channel) = false := hTable
  simp only [record, StateT.run_bind, Transaction.run_lift_ok hName]
  simp only [bind, Except.bind]
  rw [Transaction.run_lift_ok hId]
  simp only [Transaction.run_load, hTable', hFit, hChannel, Bool.false_eq_true, if_false, if_true]
  rfl

theorem displayName_eq (first last : String) (hf : first ≠ "") (hl : last ≠ "") :
    displayName (some first) (some last) = Text.trim (first ++ " " ++ last) := by
  simp [displayName, Option.filter, hf, hl, Value.joinWith]

end Deskflow
