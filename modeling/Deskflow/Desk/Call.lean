import Deskflow.Desk.Inbound
import Deskflow.Desk.RunLog
import Deskflow.Desk.Sheet
import Deskflow.Desk.Slot
import Deskflow.Desk.Tagging
import Deskflow.Desk.Thread

/-!
# Calls

The operations that are offered on the desk's data, with ids as they were given: any value that
stands for an integer will do. Each call is one transaction, and answers with a value.

Models how `ConversationService`, `TagService`, `AutomationRunLogger` and `PausedExecutionStore` are
called. Out of scope: calls at the same time.

* `perform_setStatus`: a call reads its ids and then does its work.
-/

namespace Deskflow

/-- An operation on the desk's data. -/
inductive Call where
  | channel (channelId : Value)
  | activeChannels (kind : String)
  | channelOfToken (token : String)
  | conversation (conversationId : Value)
  | findConversation (channelId userId : Value)
  | recordIncoming (message : Inbound)
  | markEdited (conversationId providerMessageId : Value) (content : String)
  | addOutgoing (conversationId : Value) (message : Outgoing)
  | assignOperator (conversationId operatorId : Value)
  | setStatus (conversationId : Value) (status : String)
  | latestText (conversationId : Value)
  | countConversations (clientId : Value)
  | messages (conversationId limit : Value)
  | tags (tagIds : Value)
  | resolveTag (tagId : Value) (name : Option String) (create : Bool)
  | clientTagIds (clientId : Value)
  | attachTags (clientId tagIds : Value)
  | detachTags (clientId tagIds : Value)
  | openRun (automationId conversationId clientId triggerData : Value)
  | appendStep (runId : Value) (stepId kind : String)
  | completeRun (runId : Value)
  | failRun (runId : Value) (error : String)
  | run (runId : Value)
  | runs (automationId limit offset : Value)
  | conversationRuns (conversationId : Value)
  | suspension (conversationId : Value)
  | suspend (conversationId automationId stepId runId condition : Value)
  | takeSuspension (conversationId : Value)
deriving DecidableEq, Repr

/-- A channel as it is shown: without its credentials, but with the token of its bot. -/
def Channel.report (c : Channel) : Except Fault Value := do
  return .object
    [("id", .int c.id), ("name", .str c.name), ("type", .str c.kind), ("settings", c.settings),
      ("is_active", .bool c.isActive), ("bot_token", .str (← c.botToken)),
      ("automations_disabled", .bool (← c.automationsDisabled))]

/-- A conversation as it is shown: with the chat that it is answered in. -/
def Conversation.report (c : Conversation) : Except Fault Value := do
  return .object (Sheet.toRecord c ++ [("provider_chat_id", .ofInt? (← c.chatId))])

/-- A run as it is shown: what it keeps of its event, and its trace, are never null. -/
def Run.report (r : Run) : Except Fault Value := do
  let steps ← r.stepsExecuted.givenItems
  let shown := Record.merge (Sheet.toRecord r)
    [("trigger_data", r.triggerData.orElse (.object [])), ("steps_executed", .list steps)]
  return .object shown

/-- A suspension as it is shown. -/
def Suspension.report (s : Suspension) : Value :=
  .object
    [("automation_id", .int s.automationId), ("step_id", .str s.stepId), ("run_id", .int s.runId),
      ("condition_config", .object s.condition)]

/-- What came of a message, as it is shown. -/
def Receipt.report (r : Receipt) : Value :=
  .object
    [("conversation_id", .int r.conversationId), ("message_id", .int r.messageId),
      ("client_id", .int r.clientId), ("channel_id", .int r.channelId), ("content", .str r.content),
      ("is_new_conversation", .bool r.isNewConversation),
      ("client_has_other_channels", .bool r.clientHasOtherChannels),
      ("automations_disabled", .bool r.automationsDisabled), ("duplicate", .bool r.duplicate)]

namespace Call

/-- What is shown of something that may be missing. -/
def orNull {α : Type} (show? : α → Except Fault Value) : Option α → Except Fault Value
  | some a => show? a
  | none => .ok .null

/-- What is shown of a list of things. -/
def listOf {α : Type} (show? : α → Except Fault Value) (xs : List α) : Except Fault Value :=
  Value.list <$> xs.mapM show?

/-- A row as it is shown where nothing is added to it. -/
def plain {ρ : Type} [Sheet ρ] (row : ρ) : Except Fault Value := .ok (.object (Sheet.toRecord row))

/-- A list of integers. -/
def ids (xs : List Int) : Value := .list (xs.map .int)

/-- Attaches tags to a client, or detaches them from it; what names the tags is read first. -/
def changeTags (remove : Bool) (clientId tagIds : Value) : Transaction Value := do
  let values ← tagIds.givenItems
  let _ ← distinctIds values
  let clientId ← clientId.toInt
  let tags ← Tagging.change remove clientId values
  listOf plain tags

/-- Adds a message that the desk sent to a conversation, which has to be there. -/
def recordOutgoing (now : Moment) (conversationId : Value) (message : Outgoing) :
    Transaction Value := do
  let conversationId ← conversationId.toInt
  match ← Thread.load? conversationId with
  | some thread => return .int (← History.addOutgoing now thread.conversation message)
  | none => throw (.noField .null "id")

/-- Opens a run; tells its id. -/
def beginRun (now : Moment) (automationId conversationId clientId triggerData : Value) :
    Transaction Value := do
  let automationId ← automationId.toInt
  let conversationId ← conversationId.toInt
  let clientId ← if clientId = .null then pure none else some <$> (clientId.toInt : Transaction Int)
  return .int (← RunLog.openRun now automationId conversationId clientId triggerData)

/-- Carries out a call. -/
def perform (now : Moment) : Call → Transaction Value
  | channel channelId => do
    orNull Channel.report (← Thread.channel? (← channelId.toInt))
  | activeChannels kind => do listOf Channel.report (← Thread.activeChannels kind)
  | channelOfToken token => do orNull Channel.report (← Thread.channelOfToken? token)
  | conversation conversationId => do
    let thread ← Thread.load? (← conversationId.toInt)
    orNull Conversation.report (thread.map Thread.conversation)
  | findConversation channelId userId => do
    let channelId ← channelId.toInt
    let userId ← userId.toInt
    orNull Conversation.report (← Thread.find? channelId userId)
  | recordIncoming message => return (← message.record now).report
  | markEdited conversationId providerMessageId content => do
    let conversationId ← conversationId.toInt
    let providerMessageId ← providerMessageId.toInt
    return .bool (← History.markEdited conversationId providerMessageId content)
  | addOutgoing conversationId message => recordOutgoing now conversationId message
  | assignOperator conversationId operatorId =>
    return .str (← Thread.assignOperator conversationId operatorId)
  | setStatus conversationId status => do
    return .ofText? (← Thread.setStatus (← conversationId.toInt) status)
  | latestText conversationId => do
    return .ofText? (← History.latestText (← conversationId.toInt))
  | countConversations clientId => do return .int (← Thread.countOfClient (← clientId.toInt))
  | messages conversationId limit => do listOf plain (← History.oldest conversationId limit)
  | tags tagIds => do listOf plain (← Tagging.tagsNamed (← tagIds.givenItems))
  | resolveTag tagId name create => do orNull plain (← Tagging.resolve tagId name create)
  | clientTagIds clientId => do return ids (← Tagging.idsOfClient (← clientId.toInt))
  | attachTags clientId tagIds => changeTags false clientId tagIds
  | detachTags clientId tagIds => changeTags true clientId tagIds
  | openRun automationId conversationId clientId triggerData =>
    beginRun now automationId conversationId clientId triggerData
  | appendStep runId stepId kind => do
    RunLog.append now (← runId.toInt) stepId kind
    return .null
  | completeRun runId => do
    RunLog.finish now (← runId.toInt) .completed
    return .null
  | failRun runId error => do
    RunLog.finish now (← runId.toInt) (.failed error)
    return .null
  | run runId => do
    orNull Run.report (← Transaction.load Run (← runId.toInt))
  | runs automationId limit offset => do
    listOf Run.report (← RunLog.page automationId limit offset)
  | conversationRuns conversationId => do
    listOf Run.report (← RunLog.ofConversation (← conversationId.toInt))
  | suspension conversationId => do
    let held ← Slot.get? (← conversationId.toInt)
    return (held.map Suspension.report).getD .null
  | suspend conversationId automationId stepId runId condition => do
    Slot.fill (← conversationId.toInt) (Suspension.recordOf automationId stepId runId condition)
    return .null
  | takeSuspension conversationId => do
    let held ← Slot.take (← conversationId.toInt)
    return (held.map Suspension.report).getD .null

/-! ## Lemmas -/

theorem perform_setStatus (now : Moment) (conversationId : Int) (status : String) (s : Store) :
    (perform now (.setStatus (.int conversationId) status)).run s
      = (((Thread.setStatus conversationId status).run s).map fun r => (.ofText? r.1, r.2)) := by
  simp only [perform, StateT.run_bind]
  rw [Transaction.run_lift_ok (Value.toInt_int conversationId)]
  simp only [bind, Except.bind]
  cases (Thread.setStatus conversationId status).run s <;> rfl

end Call

end Deskflow
