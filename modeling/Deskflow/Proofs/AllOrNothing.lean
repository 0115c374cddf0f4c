import Deskflow.Desk.Call
import Deskflow.Proofs.WorkFrame
import Deskflow.Proofs.Session
import Deskflow.Proofs.InboundVisit

/-!
# All or nothing

Every operation on the desk's data is one transaction. Here each that writes is spelled out in the
statements that its session makes, in their order: a client is added before the conversation, the
conversation before the message, and what comes later can fault with the earlier rows written.

The session is that of `session`, which commits what goes through and rolls back what does not.

* `statements`: the statements of each call. A call that writes nothing only asks.
* `follows_statements`: they do what the call does, and commit nothing by themselves.
* `runOn_record_of_chatless`: a fault that finds a new client among the rows.

## The result

* `all_or_nothing`: a call that faults, at whatever statement and with whatever arguments, leaves
  every table exactly as it was, for the session and for everyone else; one that goes through keeps
  all that it wrote.
-/

namespace Deskflow

open Transaction

namespace Session

/-! ## The statements -/

/-- Gives a conversation a status, and tells the one it had. -/
def setStatus (conversationId : Int) (status : String) : Session (Option String) := do
  let some conversation ← ask (load Conversation conversationId) | return none
  edit Conversation conversationId fun c => { c with status }
  return some conversation.status

/-- Assigns a conversation to an operator and opens it; tells the operator's name. -/
def assignOperator (conversation operator : Value) : Session String := do
  let conversationId ← conversation.toInt
  let some _ ← ask (load Conversation conversationId)
    | throw (.conversationNotFound conversation.text)
  let operatorId ← operator.toInt
  let found ← ask (load Operator operatorId)
  edit Conversation conversationId fun c =>
    { c with
      operatorId := if found.isSome then some operatorId else c.operatorId
      status := "open" }
  return match found with
    | some o => o.name
    | none => "ID: " ++ operator.text

/-- Fills the slot of a conversation, whatever it held. -/
def fill (conversationId : Int) (content : Except Fault Record) : Session Unit := do
  let some conversation ← ask (load Conversation conversationId) | return ()
  let fields ← Suspension.fillSlot conversation.metadata content
  edit Conversation conversationId fun c => { c with metadata := .object fields }

/-- Empties the slot of a conversation, and then reads what it held. -/
def take (conversationId : Int) : Session (Option Suspension) := do
  let some conversation ← ask (load Conversation conversationId) | return none
  let some (held, fields) ← Suspension.withoutSlot conversation.metadata | return none
  edit Conversation conversationId fun c => { c with metadata := .object fields }
  Suspension.read? held

/-- Adds a message that the desk sent; tells its id. -/
def addOutgoing (now : Moment) (c : Conversation) (o : Outgoing) : Session Int := do
  ask (need .messages)
  ask (fit? o.providerMessageId)
  return (← add (History.outgoingRow now c o)).id

/-- Replaces the content of a message that came in, and marks it as edited. -/
def markEdited (conversationId providerMessageId : Int) (content : String) : Session Bool := do
  let some message ← ask (History.incoming? conversationId providerMessageId) | return false
  let fields ← match message.metadata.orElse (.object []) with
    | .object fields => pure fields
    | v => throw (.notMapping v.kind)
  edit Message message.id fun m =>
    { m with
      content := some content
      metadata := .object (Record.put fields "edited" (.bool true)) }
  return true

/-- The tag of a name; with `create` it is made if there is none. -/
def byName? (name : String) (create : Bool) : Session (Option Tag) := do
  match (← ask (rows Tag)).find? fun t => t.name == name with
  | some tag => return some tag
  | none =>
    if create then
      return some (← add { id := 0, name, color := some (Tagging.defaultColor name) })
    else return none

/-- The tag that a value names by its id, or else a text by its name. -/
def resolve (id : Value) (name : Option String) (create : Bool) : Session (Option Tag) := do
  match ← ask (Tagging.byId? id) with
  | some tag => return some tag
  | none =>
    let name := Text.trim (name.getD "")
    if name = "" then return none else byName? name create

/-- Attaches the tags that values name to a client, or with `remove` detaches them. -/
def change (remove : Bool) (clientId : Int) (values : List Value) : Session (List Tag) := do
  let ids ← distinctIds values
  match ← ask (Tagging.client? clientId) with
  | none => return []
  | some client =>
    if ids.isEmpty then return []
    let tags ← ask (Tagging.existing ids)
    write fun s =>
      (if remove then Tagging.detached else Tagging.attached) s client.id (tags.map Tag.id)
    return tags

/-- Opens a run and tells its id. -/
def openRun (now : Moment) (automationId conversationId : Int) (clientId : Option Int)
    (triggerData : Value) : Session Int := do
  ask (need .automationRuns)
  ask (fit automationId)
  ask (fit conversationId)
  ask (fit? clientId)
  return (← add (RunLog.opened now automationId conversationId clientId triggerData 0)).id

/-- Notes that a step of an open run begins. -/
def append (now : Moment) (runId : Int) (stepId kind : String) : Session Unit := do
  let some run ← ask (load Run runId) | return ()
  if run.status ≠ RunLog.running then return ()
  let entries ← RunLog.entriesOf run.stepsExecuted
  edit Run runId (RunLog.withStep entries (RunLog.traceEntry now stepId kind))

/-- Ends an open run. -/
def finish (now : Moment) (runId : Int) (how : RunEnd) : Session Unit := do
  let some run ← ask (load Run runId) | return ()
  if run.status ≠ RunLog.running then return ()
  edit Run runId (RunLog.ended now how)

/-- The client behind a user id, and whether it is a new one. -/
def client (m : Inbound) (name : String) : Session (Client × Bool) := do
  let userId ← m.userId.toInt
  let clients ← ask (rows Client)
  match clients.find? fun c => c.externalId = some (Inbound.externalId userId) with
  | some c =>
    if name ≠ "" && c.name ≠ some name then
      edit Client c.id fun c => { c with name := some name }
    return (c, false)
  | none => return (← add (m.newClient userId name 0), true)

/-- The conversation of a client on a channel, and whether it is a new one. -/
def conversation (now : Moment) (m : Inbound) (channelId clientId : Int) :
    Session (Conversation × Bool) := do
  let conversations ← ask (rows Conversation)
  match conversations.find? fun c => c.channelId = channelId && c.clientId = some clientId with
  | some c => return (c, false)
  | none =>
    let chatId ← m.chatId.toInt
    return (← add (Inbound.newConversation now channelId clientId chatId 0), true)

/-- What is done for a message that comes in before it is seen whether it is there already. -/
def visit (now : Moment) (m : Inbound) : Session Visit := do
  let name ← m.givenName
  let channelId ← m.channelId.toInt
  let some channel ← ask (load Channel channelId) | throw (.channelNotFound m.channelId.text)
  let k ← client m name
  let others ← ask (Inbound.elsewhere k.2 channel.id k.1.id)
  let c ← conversation now m channel.id k.1.id
  let metadata ← m.metadataWithChat c.1.metadata
  edit Conversation c.1.id (Inbound.visited now metadata)
  return ⟨channel, k.1, c.1, c.2, others⟩

/-- Adds a message to the conversation of a visit, and counts it; tells its id. -/
def deposit (now : Moment) (m : Inbound) (v : Visit) : Session Int := do
  let providerMessageId ← m.providerId?
  let chatId ← m.chatId.toInt
  let message ← add
    (m.row now v.conversation.id v.channel.id v.client.id chatId providerMessageId)
  ask (fit (v.conversation.unreadCount + 1))
  edit Conversation v.conversation.id fun c => { c with unreadCount := c.unreadCount + 1 }
  return message.id

/-- Stores a message that came in. -/
def record (now : Moment) (m : Inbound) : Session Receipt := do
  let v ← visit now m
  match ← ask (m.duplicate? v.conversation.id) with
  | some message => v.receipt m message.id false true
  | none => v.receipt m (← deposit now m v) v.isNew false

/-- Attaches tags to a client, or detaches them from it; what names the tags is read first. -/
def changeTags (remove : Bool) (clientId tagIds : Value) : Session Value := do
  let values ← tagIds.givenItems
  let _ ← distinctIds values
  let clientId ← clientId.toInt
  let tags ← change remove clientId values
  Call.listOf Call.plain tags

/-- Adds a message that the desk sent to a conversation, which has to be there. -/
def recordOutgoing (now : Moment) (conversationId : Value) (message : Outgoing) :
    Session Value := do
  let conversationId ← conversationId.toInt
  match ← ask (Thread.load? conversationId) with
  | some thread => return .int (← addOutgoing now thread.conversation message)
  | none => throw (.noField .null "id")

/-- Opens a run; tells its id. -/
def beginRun (now : Moment) (automationId conversationId clientId triggerData : Value) :
    Session Value := do
  let automationId ← automationId.toInt
  let conversationId ← conversationId.toInt
  let clientId ← if clientId = .null then pure none else some <$> (clientId.toInt : Session Int)
  return .int (← openRun now automationId conversationId clientId triggerData)

/-- The statements of a call. -/
def statements (now : Moment) : Call → Session Value
  | .recordIncoming message => return (← record now message).report
  | .markEdited conversationId providerMessageId content => do
    let conversationId ← conversationId.toInt
    let providerMessageId ← providerMessageId.toInt
    return .bool (← markEdited conversationId providerMessageId content)
  | .addOutgoing conversationId message => recordOutgoing now conversationId message
  | .assignOperator conversationId operatorId =>
    return .str (← assignOperator conversationId operatorId)
  | .setStatus conversationId status => do
    return .ofText? (← setStatus (← conversationId.toInt) status)
  | .resolveTag tagId name create => do Call.orNull Call.plain (← resolve tagId name create)
  | .attachTags clientId tagIds => changeTags false clientId tagIds
  | .detachTags clientId tagIds => changeTags true clientId tagIds
  | .openRun automationId conversationId clientId triggerData =>
    beginRun now automationId conversationId clientId triggerData
  | .appendStep runId stepId kind => do
    append now (← runId.toInt) stepId kind
    return .null
  | .completeRun runId => do
    finish now (← runId.toInt) .completed
    return .null
  | .failRun runId error => do
    finish now (← runId.toInt) (.failed error)
    return .null
  | .suspend conversationId automationId stepId runId condition => do
    fill (← conversationId.toInt) (Suspension.recordOf automationId stepId runId condition)
    return .null
  | .takeSuspension conversationId => do
    let held ← take (← conversationId.toInt)
    return (held.map Suspension.report).getD .null
  | c => ask (c.perform now)

/-! ## Each does what the operation does -/

theorem follows_setStatus (id : Int) (status : String) :
    Follows (setStatus id status) (Thread.setStatus id status) := by
  refine .bind (follows_ask (reads_load _ _)) fun found => ?_
  cases found with
  | none => exact follows_pure _
  | some conversation => exact .bind (follows_edit _ _ _) fun _ => follows_pure _

theorem follows_assignOperator (conversation operator : Value) :
    Follows (assignOperator conversation operator)
      (Thread.assignOperator conversation operator) := by
  refine .bind (follows_lift _) fun id => ?_
  refine .bind (follows_ask (reads_load Conversation id)) fun found => ?_
  cases found with
  | none => exact follows_throw _
  | some _ =>
    exact .bind (follows_lift _) fun id => .bind (follows_ask (reads_load Operator id)) fun _ =>
      .bind (follows_edit _ _ _) fun _ => follows_pure _

theorem follows_fill (id : Int) (content : Except Fault Record) :
    Follows (fill id content) (Slot.fill id content) := by
  refine .bind (follows_ask (reads_load _ _)) fun found => ?_
  cases found with
  | none => exact follows_pure _
  | some conversation => exact .bind (follows_lift _) fun _ => follows_edit _ _ _

theorem follows_take (id : Int) : Follows (take id) (Slot.take id) := by
  refine .bind (follows_ask (reads_load _ _)) fun found => ?_
  cases found with
  | none => exact follows_pure _
  | some conversation =>
    refine .bind (follows_lift _) fun slot => ?_
    cases slot with
    | none => exact follows_pure _
    | some p => exact .bind (follows_edit _ _ _) fun _ => follows_lift _

theorem follows_addOutgoing (now : Moment) (c : Conversation) (o : Outgoing) :
    Follows (addOutgoing now c o) (History.addOutgoing now c o) :=
  .bind (follows_ask (reads_need _)) fun _ => .bind (follows_ask (reads_fit? _)) fun _ =>
    .bind (follows_add _) fun _ => follows_pure _

theorem follows_markEdited (c p : Int) (content : String) :
    Follows (markEdited c p content) (History.markEdited c p content) := by
  refine .bind (follows_ask (Inbound.reads_incoming? c p)) fun found => ?_
  cases found with
  | none => exact follows_pure _
  | some message =>
    dsimp only
    generalize message.metadata.orElse (.object []) = metadata
    cases metadata with
    | object fields =>
      exact .bind (follows_pure fields) fun _ => .bind (follows_edit Message _ _) fun _ =>
        follows_pure true
    | _ =>
      exact .bind (follows_throw _) fun _ => .bind (follows_edit Message _ _) fun _ =>
        follows_pure true

theorem follows_byName? (name : String) (create : Bool) :
    Follows (byName? name create) (Tagging.byName? name create) := by
  refine .bind (follows_ask (reads_rows _)) fun tags => ?_
  cases tags.find? fun t => t.name == name with
  | some tag => exact follows_pure _
  | none =>
    cases create with
    | true => exact .bind (follows_add _) fun _ => follows_pure _
    | false => exact follows_pure _

theorem follows_resolve (id : Value) (name : Option String) (create : Bool) :
    Follows (resolve id name create) (Tagging.resolve id name create) := by
  refine .bind (follows_ask (reads_byId? id)) fun found => ?_
  cases found with
  | some tag => exact follows_pure _
  | none =>
    dsimp only
    split
    · exact follows_pure _
    · exact follows_byName? _ create

theorem follows_change (remove : Bool) (clientId : Int) (values : List Value) :
    Follows (change remove clientId values) (Tagging.change remove clientId values) := by
  refine .bind (follows_lift _) fun ids => ?_
  refine .bind (follows_ask (reads_taggedClient clientId)) fun found => ?_
  cases found with
  | none => exact follows_pure _
  | some client =>
    dsimp only
    split
    · exact follows_pure _
    · exact .bind (follows_ask (reads_existing ids)) fun _ =>
        .bind (follows_write _) fun _ => follows_pure _

theorem follows_openRun (now : Moment) (a c : Int) (n : Option Int) (data : Value) :
    Follows (openRun now a c n data) (RunLog.openRun now a c n data) :=
  .bind (follows_ask (reads_need _)) fun _ => .bind (follows_ask (reads_fit _)) fun _ =>
    .bind (follows_ask (reads_fit _)) fun _ => .bind (follows_ask (reads_fit? _)) fun _ =>
      .bind (follows_add _) fun _ => follows_pure _

theorem follows_append (now : Moment) (id : Int) (stepId kind : String) :
    Follows (append now id stepId kind) (RunLog.append now id stepId kind) := by
  refine .bind (follows_ask (reads_load _ _)) fun found => ?_
  cases found with
  | none => exact follows_pure _
  | some run =>
    dsimp only
    split
    · exact follows_pure _
    · exact .bind (follows_lift _) fun _ => follows_edit _ _ _

theorem follows_finish (now : Moment) (id : Int) (how : RunEnd) :
    Follows (finish now id how) (RunLog.finish now id how) := by
  refine .bind (follows_ask (reads_load _ _)) fun found => ?_
  cases found with
  | none => exact follows_pure _
  | some run =>
    dsimp only
    split
    · exact follows_pure _
    · exact follows_edit _ _ _

section

variable (now : Moment) (m : Inbound)

theorem follows_client (name : String) : Follows (client m name) (m.client name) := by
  refine .bind (follows_lift _) fun userId => .bind (follows_ask (reads_rows _)) fun clients => ?_
  cases clients.find? fun c => c.externalId = some (Inbound.externalId userId) with
  | none => exact .bind (follows_add _) fun _ => follows_pure _
  | some c =>
    dsimp only
    split
    · exact .bind (follows_edit _ _ _) fun _ => follows_pure _
    · exact .bind (follows_pure _) fun _ => follows_pure _

theorem follows_conversation (channelId clientId : Int) :
    Follows (conversation now m channelId clientId) (m.conversation now channelId clientId) := by
  refine .bind (follows_ask (reads_rows _)) fun conversations => ?_
  cases conversations.find? fun c => c.channelId = channelId && c.clientId = some clientId with
  | none =>
    exact .bind (follows_lift _) fun _ => .bind (follows_add _) fun _ => follows_pure _
  | some c => exact follows_pure _

theorem follows_visit : Follows (visit now m) (m.visit now) := by
  refine .bind (follows_lift _) fun name => .bind (follows_lift _) fun channelId => ?_
  refine .bind (follows_ask (reads_load _ _)) fun found => ?_
  cases found with
  | none => exact follows_throw _
  | some channel =>
    exact .bind (follows_client m name) fun k =>
      .bind (follows_ask (Inbound.reads_elsewhere _ _ _)) fun _ =>
      .bind (follows_conversation now m _ _) fun _ => .bind (follows_lift _) fun _ =>
      .bind (follows_edit _ _ _) fun _ => follows_pure _

theorem follows_deposit (v : Visit) : Follows (deposit now m v) (m.deposit now v) :=
  .bind (follows_lift _) fun _ => .bind (follows_lift _) fun _ => .bind (follows_add _) fun _ =>
    .bind (follows_ask (reads_fit _)) fun _ => .bind (follows_edit _ _ _) fun _ => follows_pure _

theorem follows_record : Follows (record now m) (m.record now) := by
  rw [Inbound.record_eq]
  refine .bind (follows_visit now m) fun v => ?_
  refine .bind (follows_ask (Inbound.reads_duplicate? m _)) fun found => ?_
  cases found with
  | some message => exact follows_lift _
  | none => exact .bind (follows_deposit now m v) fun _ => follows_lift _

end

theorem follows_changeTags (remove : Bool) (clientId tagIds : Value) :
    Follows (changeTags remove clientId tagIds) (Call.changeTags remove clientId tagIds) :=
  .bind (follows_lift _) fun _ => .bind (follows_lift _) fun _ => .bind (follows_lift _) fun _ =>
    .bind (follows_change remove _ _) fun _ => follows_lift _

theorem follows_recordOutgoing (now : Moment) (id : Value) (message : Outgoing) :
    Follows (recordOutgoing now id message) (Call.recordOutgoing now id message) := by
  refine .bind (follows_lift _) fun id => .bind (follows_ask (reads_loadThread id)) fun found => ?_
  cases found with
  | some thread => exact .bind (follows_addOutgoing now _ _) fun _ => follows_pure _
  | none => exact follows_throw _

theorem follows_beginRun (now : Moment) (automationId conversationId clientId data : Value) :
    Follows (beginRun now automationId conversationId clientId data)
      (Call.beginRun now automationId conversationId clientId data) := by
  refine .bind (follows_lift _) fun a => .bind (follows_lift _) fun c => ?_
  have hopen (n : Option Int) := Follows.bind (follows_openRun now a c n data) fun id =>
    follows_pure (Value.int id)
  dsimp only
  split
  · exact .bind (follows_pure none) hopen
  · rw [map_eq_pure_bind, map_eq_pure_bind]
    exact .bind (.bind (follows_lift _) fun _ => follows_pure _) hopen

/-! ## Calls that write nothing -/

theorem reads_activeChannels (kind : String) : Reads (Thread.activeChannels kind) :=
  Keeps.bind (reads_rows _) fun _ => Reads.pure _

theorem reads_channelOfToken? (token : String) : Reads (Thread.channelOfToken? token) := by
  unfold Thread.channelOfToken?
  split
  · exact Reads.pure _
  · exact Keeps.bind (reads_activeChannels _) fun _ => Reads.lift _

theorem reads_find? (channelId userId : Int) : Reads (Thread.find? channelId userId) :=
  Keeps.bind (reads_rows _) fun _ => Keeps.bind (reads_rows _) fun _ =>
    Keeps.bind (reads_fit _) fun _ => Reads.pure _

theorem reads_oldest (id limit : Value) : Reads (History.oldest id limit) :=
  Keeps.bind (Reads.lift _) fun _ => Keeps.bind (Reads.lift _) fun _ =>
    Keeps.bind (reads_rows _) fun _ => Keeps.bind (reads_fit _) fun _ => Reads.pure _

theorem reads_page (automationId limit offset : Value) :
    Reads (RunLog.page automationId limit offset) :=
  Keeps.bind (Reads.lift _) fun _ => Keeps.bind (Reads.lift _) fun _ =>
    Keeps.bind (Reads.lift _) fun _ => Keeps.bind (reads_rows _) fun _ =>
      Keeps.bind (reads_fit _) fun _ => Keeps.bind (reads_fit _) fun _ => Reads.pure _

theorem reads_ofConversation (id : Int) : Reads (RunLog.ofConversation id) :=
  Keeps.bind (reads_rows _) fun _ => Keeps.bind (reads_fit _) fun _ => Reads.pure _

theorem reads_get? (id : Int) : Reads (Slot.get? id) := by
  refine Keeps.bind (reads_load _ _) fun found => ?_
  cases found with
  | none => exact Reads.pure _
  | some conversation => exact Reads.lift _

/-! ## Calls -/

/-- What a call says, statement by statement, is what it does. -/
theorem follows_statements (now : Moment) (c : Call) :
    Follows (statements now c) (c.perform now) := by
  cases c with
  | recordIncoming message => exact .bind (follows_record now message) fun _ => follows_pure _
  | markEdited conversationId providerMessageId content =>
    exact .bind (follows_lift _) fun _ => .bind (follows_lift _) fun _ =>
      .bind (follows_markEdited _ _ content) fun _ => follows_pure _
  | addOutgoing conversationId message => exact follows_recordOutgoing now conversationId message
  | assignOperator conversationId operatorId =>
    exact .bind (follows_assignOperator conversationId operatorId) fun _ => follows_pure _
  | setStatus conversationId status =>
    exact .bind (follows_lift _) fun _ => .bind (follows_setStatus _ status) fun _ => follows_pure _
  | resolveTag tagId name create =>
    exact .bind (follows_resolve tagId name create) fun _ => follows_lift _
  | attachTags clientId tagIds => exact follows_changeTags false clientId tagIds
  | detachTags clientId tagIds => exact follows_changeTags true clientId tagIds
  | openRun automationId conversationId clientId triggerData =>
    exact follows_beginRun now automationId conversationId clientId triggerData
  | appendStep runId stepId kind =>
    exact .bind (follows_lift _) fun _ => .bind (follows_append now _ stepId kind) fun _ =>
      follows_pure _
  | completeRun runId =>
    exact .bind (follows_lift _) fun _ => .bind (follows_finish now _ _) fun _ => follows_pure _
  | failRun runId error =>
    exact .bind (follows_lift _) fun _ => .bind (follows_finish now _ _) fun _ => follows_pure _
  | suspend conversationId automationId stepId runId condition =>
    exact .bind (follows_lift _) fun _ => .bind (follows_fill _ _) fun _ => follows_pure _
  | takeSuspension conversationId =>
    exact .bind (follows_lift _) fun _ => .bind (follows_take _) fun _ => follows_pure _
  -- the calls that only ask
  | channel channelId =>
    exact follows_ask (Keeps.bind (Reads.lift _) fun _ =>
      Keeps.bind (reads_load _ _) fun _ => Reads.lift _)
  | activeChannels kind =>
    exact follows_ask (Keeps.bind (reads_activeChannels kind) fun _ => Reads.lift _)
  | channelOfToken token =>
    exact follows_ask (Keeps.bind (reads_channelOfToken? token) fun _ => Reads.lift _)
  | conversation conversationId =>
    exact follows_ask (Keeps.bind (Reads.lift _) fun _ =>
      Keeps.bind (reads_loadThread _) fun _ => Reads.lift _)
  | findConversation channelId userId =>
    exact follows_ask (Keeps.bind (Reads.lift _) fun _ => Keeps.bind (Reads.lift _) fun _ =>
      Keeps.bind (reads_find? _ _) fun _ => Reads.lift _)
  | latestText conversationId =>
    exact follows_ask (Keeps.bind (Reads.lift _) fun _ =>
      Keeps.bind (reads_latestText _) fun _ => Reads.pure _)
  | countConversations clientId =>
    exact follows_ask (Keeps.bind (Reads.lift _) fun _ =>
      Keeps.bind (reads_countOfClient _) fun _ => Reads.pure _)
  | messages conversationId limit =>
    exact follows_ask (Keeps.bind (reads_oldest conversationId limit) fun _ => Reads.lift _)
  | tags tagIds =>
    exact follows_ask (Keeps.bind (Reads.lift _) fun _ =>
      Keeps.bind (reads_tagsNamed _) fun _ => Reads.lift _)
  | clientTagIds clientId =>
    exact follows_ask (Keeps.bind (Reads.lift _) fun _ =>
      Keeps.bind (reads_idsOfClient _) fun _ => Reads.pure _)
  | run runId =>
    exact follows_ask (Keeps.bind (Reads.lift _) fun _ =>
      Keeps.bind (reads_load _ _) fun _ => Reads.lift _)
  | runs automationId limit offset =>
    exact follows_ask (Keeps.bind (reads_page automationId limit offset) fun _ => Reads.lift _)
  | conversationRuns conversationId =>
    exact follows_ask (Keeps.bind (Reads.lift _) fun _ =>
      Keeps.bind (reads_ofConversation _) fun _ => Reads.lift _)
  | suspension conversationId =>
    exact follows_ask (Keeps.bind (Reads.lift _) fun _ =>
      Keeps.bind (reads_get? _) fun _ => Reads.pure _)

/-! ## What a fault finds written -/

/-- A session on a store that has just added a client who came for the first time. -/
def greeted (m : Inbound) (userId : Int) (name : String) (s : Store) : Connection :=
  ⟨s, s.insert (m.newClient userId name (s.nextId Client))⟩

section

variable {now : Moment} {m : Inbound} {s : Store} {name : String} {channelId userId : Int}
  {channel : Channel} {fault : Fault}

theorem runOn_conversation_of_chatless (hconversations : s.absent.contains .conversations = false)
    (hc : s.threadOf? channel.id (s.nextId Client) = none) (hchat : m.chatId.toInt = .error fault) :
    (conversation now m channel.id (s.nextId Client)).runOn (greeted m userId name s)
      = (.error fault, greeted m userId name s) := by
  -- the conversations that are seen are those there were, since a client was added and nothing else
  have hrows : (rows Conversation).run (greeted m userId name s).seen
      = .ok (s.conversations, (greeted m userId name s).seen) :=
    run_rows_eq_ok.mpr ⟨hconversations, rfl, rfl⟩
  refine (runOn_bind_of_ok ((follows_ask (reads_rows _)).runOn_of_ok hrows)).trans ?_
  rw [show s.conversations.find? _ = none from hc]
  exact runOn_bind_of_error (by rw [hchat]; rfl)

/-- A first message whose chat is no integer: the fault finds its client among the rows already, and
the session takes it back. -/
theorem runOn_record_of_chatless (hname : m.givenName = .ok name)
    (hid : m.channelId.toInt = .ok channelId)
    (hchannel : (load Channel channelId).run s = .ok (some channel, s))
    (huser : m.userId.toInt = .ok userId) (hclients : s.absent.contains .clients = false)
    (hk : s.clientOf? userId = none) (hconversations : s.absent.contains .conversations = false)
    (hc : s.threadOf? channel.id (s.nextId Client) = none) (hchat : m.chatId.toInt = .error fault) :
    (record now m).runOn (.atRest s) = (.error fault, greeted m userId name s)
      ∧ (transaction (record now m)).runOn (.atRest s) = (.error fault, .atRest s) := by
  have hclient : (client m name).runOn (.atRest s)
      = (.ok (m.newClient userId name (s.nextId Client), true), greeted m userId name s) :=
    (follows_client m name).runOn_of_ok (Inbound.run_client_of_none huser hclients hk)
  have hvisit : (visit now m).runOn (.atRest s) = (.error fault, greeted m userId name s) := by
    refine (runOn_bind_of_ok ((follows_lift _).runOn_of_ok (run_lift_ok hname s))).trans ?_
    refine (runOn_bind_of_ok ((follows_lift _).runOn_of_ok (run_lift_ok hid s))).trans ?_
    refine (runOn_bind_of_ok ((follows_ask (reads_load _ _)).runOn_of_ok hchannel)).trans ?_
    refine (runOn_bind_of_ok hclient).trans ?_
    refine (runOn_bind_of_ok (a := false) rfl).trans ?_
    exact runOn_bind_of_error (runOn_conversation_of_chatless hconversations hc hchat)
  have hrecord : (record now m).runOn (.atRest s) = (.error fault, greeted m userId name s) :=
    runOn_bind_of_error hvisit
  refine ⟨hrecord, ?_⟩
  rw [runOn_transaction, hrecord]
  rfl

end

/-! ## The result -/

/-- A block of statements, closed in one session, goes through as a whole or leaves no trace; and it
is a transaction. -/
structure AllOrNothing {α : Type} (block : Session α) (t : Transaction α) : Prop where
  /-- No statement commits: until the session ends, everyone else sees the tables as they were. -/
  pending : ∀ d, (block.runOn d).2.committed = d.committed
  /-- A session that faults leaves every table exactly as it was, whatever it had written. -/
  undone : ∀ s fault d, (transaction block).runOn (.atRest s) = (.error fault, d) → d = .atRest s
  /-- One that goes through keeps what its statements wrote, all of it. -/
  kept : ∀ s a d, (transaction block).runOn (.atRest s) = (.ok a, d) →
    d = .atRest (block.runOn (.atRest s)).2.seen
  /-- Seen from outside, the session is the transaction, -/
  outside : ∀ s, t.run s =
    match (transaction block).runOn (.atRest s) with
    | (.ok a, d) => .ok (a, d.committed)
    | (.error fault, _) => .error fault
  /-- and in operation the whole desk is as it was where the session faults. -/
  world : ∀ (w v : World) fault, (Work.query t).runOn w = (.error fault, v) →
    v = w ∧ (transaction block).runOn (.atRest w.store) = (.error fault, .atRest w.store)

theorem Follows.allOrNothing {α : Type} {block : Session α} {t : Transaction α}
    (h : Follows block t) : AllOrNothing block t where
  pending := h.committed
  undone s fault d hrun := by
    rw [h.run_transaction] at hrun
    cases hr : t.run s <;> rw [hr] at hrun <;> cases hrun
    rfl
  kept s a d hrun := by
    rw [runOn_transaction] at hrun
    rcases hr : block.runOn (.atRest s) with ⟨fault | b, e⟩ <;> rw [hr] at hrun <;> cases hrun
    rfl
  outside s := by
    rw [h.run_transaction]
    cases t.run s <;> rfl
  world w v fault hrun := by
    rw [h.run_transaction]
    rw [Work.query, Work.run_transact] at hrun
    cases hr : t.run w.store <;> rw [hr] at hrun <;> cases hrun
    exact ⟨rfl, rfl⟩

/-- **Every operation on the desk's data is all or nothing**: the calls with whatever arguments they
are given, a message that the desk sends to a conversation at hand, and a suspension that is saved
as it is. -/
theorem all_or_nothing (now : Moment) :
    (∀ c : Call, AllOrNothing (statements now c) (c.perform now))
      ∧ (∀ c o, AllOrNothing (addOutgoing now c o) (History.addOutgoing now c o))
      ∧ ∀ id suspension,
        AllOrNothing (fill id (.ok suspension.record)) (Slot.save id suspension) :=
  ⟨fun c => (follows_statements now c).allOrNothing,
    fun c o => (follows_addOutgoing now c o).allOrNothing,
    fun id suspension => (follows_fill id (.ok suspension.record)).allOrNothing⟩

end Session

end Deskflow
