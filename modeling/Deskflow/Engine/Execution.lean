import Deskflow.Condition
import Deskflow.Desk.RunLog
import Deskflow.Desk.Slot
import Deskflow.Desk.Tagging
import Deskflow.Desk.Thread
import Deskflow.Engine.Flow
import Deskflow.Template
import Deskflow.World

/-!
# Execution

How the steps of an automation are carried out in a conversation. Each step is noted in the trace of
its run before it begins; a condition that does not hold suspends the run at the step of the top
level in which it lies; a fault stops the run. What is done when a step changes tags is handed in.

Models `execute_automation` and `StepInterpreter`. Out of scope: a run that is cancelled while it is
carried out.

* `runSteps_nil`, `runSteps_cons`: steps run one after another until one suspends.
* `runOn_execute_of_missing`: in a conversation that is not there nothing is executed.
-/

namespace Deskflow

namespace Engine

open Work

/-- What is done when tags of a client were changed in a conversation on a channel. -/
abbrev TagHandler := EventKind → Int → Int → List Int → Work Unit

/-- The automation, the run and the conversation that steps are carried out for
(`ExecutionContext`). -/
structure Context where
  automationId : Int
  runId : Int
  conversationId : Int
deriving DecidableEq, Repr

/-- What is known for judging a condition in a conversation (`load_condition_state`). -/
def loadFacts (conversationId : Int) (clientId : Option Int) : Work Facts := do
  match clientId with
  | none =>
    let latestText ← query (History.latestText conversationId)
    return { latestText }
  | some clientId =>
    let tagIds ← query (Tagging.idsOfClient clientId)
    let latestText ← query (History.latestText conversationId)
    let conversations ← query (Thread.countOfClient clientId)
    return { tagIds, latestText, conversations }

/-- The thread that steps are carried out in (`_conversation`). -/
def threadOf (ctx : Context) : Work Thread := do
  match ← query (Thread.load? ctx.conversationId) with
  | some thread => return thread
  | none => throw (.conversationGone ctx.conversationId)

/-- The channel that a thread delivers on. -/
def channelOf (thread : Thread) : Work Channel := do
  match thread.channel with
  | some channel => return channel
  | none => throw (.noField .null (if (← get).live then "bot_token" else "id"))

/-- A text with what is known about a thread filled in. -/
def fillIn (thread : Thread) (text : String) : String :=
  Template.render text
    (Template.bindings (.int thread.conversation.id) thread.client
      (thread.channel.map Channel.name))

/-- Sends something to the chat of a thread, and adds what was sent to the history. -/
def send (settings : Settings) (thread : Thread) (chat : Int) (content : Content)
    (keyboard : List Callback.Key) (outgoing : Outgoing) : Work Unit := do
  let channel ← channelOf thread
  match ← deliver settings { channel, chat, content, keyboard } with
  | none => return ()
  | some sent =>
    let _ ← transact fun now => History.addOutgoing now thread.conversation
      { outgoing with
        providerMessageId := sent.messageId
        metadata := outgoing.metadata.put "telegram_message_id" (.ofInt? sent.messageId) }

/-- A button as it is kept with a message that was sent. -/
def buttonValue (b : Button) : Value :=
  .object [("text", .str b.text), ("url", .ofText? b.url), ("action", .ofText? b.action),
    ("action_config", .object b.actionConfig)]

/-- The list of attachments that media of a kind are. -/
def attachment (settings : Settings) (kind : MediaKind) (ref : String) : Value :=
  .list [.object [("url", .str (Media.publicUrl settings.publicPrefix ref)),
    ("type", .str kind.word)]]

/-- Carries out what needs the chat of the conversation; without one nothing is done. -/
def withChat (ctx : Context) (act : Thread → Int → Work Unit) : Work Unit := do
  let thread ← threadOf ctx
  match ← thread.conversation.chatId with
  | some chat => act thread chat
  | none => return ()

/-- Sends a text (`_send_text`). -/
def sendText (settings : Settings) (ctx : Context) (text : String) : Work Unit := do
  if text = "" then return ()
  withChat ctx fun thread chat =>
    let text := fillIn thread text
    send settings thread chat (.text text) [] { content := text }

/-- The message that is kept of buttons that were sent. The place for its id comes first in its
metadata. -/
def buttonsMessage (settings : Settings) (text imageUrl : String) (buttons : List Button) :
    Outgoing :=
  let metadata : Record :=
    [("telegram_message_id", .null), ("inline_buttons", .list (buttons.map buttonValue))]
  if imageUrl = "" then { content := text, metadata }
  else
    { content := text
      kind := MediaKind.image.word
      attachments := attachment settings .image imageUrl
      metadata }

/-- Sends a text or an image with buttons under it (`_send_text_with_buttons`). -/
def sendButtons (settings : Settings) (ctx : Context) (head : StepHead) (text imageUrl : String)
    (buttons : List Button) : Work Unit := do
  if text = "" && imageUrl = "" then return ()
  withChat ctx fun thread chat =>
    let text := fillIn thread text
    let content := if imageUrl = "" then Content.text text else .media .image imageUrl text
    send settings thread chat content (Callback.keyboard head.callbackKey buttons)
      (buttonsMessage settings text imageUrl buttons)

/-- Sends media (`_send_media`). -/
def sendMedia (settings : Settings) (ctx : Context) (kind : MediaKind) (ref caption : String) :
    Work Unit := do
  if ref = "" then return ()
  withChat ctx fun thread chat =>
    let caption := fillIn thread caption
    send settings thread chat (.media kind ref caption) []
      { content := caption, kind := kind.word, attachments := attachment settings kind ref }

/-- The tags of some ids that exist. -/
def tagsOfIds (ids : List Int) : Work (List Tag) :=
  if ids.isEmpty then pure [] else query (Tagging.tagsNamed (ids.map .int))

/-- The tag of a name, if there is a name. -/
def tagsOfName (create : Bool) : Option String → Work (List Tag)
  | none => return []
  | some name => return (← query (Tagging.resolve .null (some name) create)).toList

/-- The tags that a step is about (`_target_tags`): those of its ids that exist, and if there are
none, the one of its name. -/
def targetTags (targets : TagTargets) (create : Bool) : Work (List Int) := do
  let existing ← tagsOfIds targets.ids
  if !existing.isEmpty then return existing.map Tag.id
  return (← tagsOfName create targets.name).map Tag.id

/-- The change of tags that an event is about, in the words of the note about it. -/
def tagNote (kind : EventKind) (tags : List Tag) : Outgoing :=
  let names := tags.map Tag.name
  let deed := if kind = .tagRemoved then "removed tags from" else "assigned tags to"
  History.note
    ("System " ++ deed ++ " the client: \"" ++ Value.joinWith "\", \"" names ++ "\".")
    kind.name
    [("tag_ids", .list (tags.map fun t => .int t.id)), ("tag_names", .list (names.map .str))]

/-- Adds a note to the history of a conversation. -/
def addNote (c : Conversation) (note : Outgoing) : Work Unit := do
  let _ ← transact fun now => History.addOutgoing now c note

/-- Attaches tags to the client, or detaches them from it, and notes which ones. -/
def changeTags (onTags : TagHandler) (ctx : Context) (kind : EventKind) (targets : TagTargets) :
    Work Unit := do
  let conversation := (← threadOf ctx).conversation
  let some clientId := conversation.clientId | return ()
  let removes := kind = .tagRemoved
  let ids ← targetTags targets !removes
  if ids.isEmpty then return ()
  let changed ← query (Tagging.change removes clientId (ids.map .int))
  if changed.isEmpty then return ()
  addNote conversation (tagNote kind changed)
  onTags kind conversation.id conversation.channelId (changed.map Tag.id)

/-- Assigns the conversation to an operator, and notes it (`_assign_operator`). -/
def assign (ctx : Context) (operatorId : Option Int) : Work Unit := do
  let some operatorId := operatorId.filter (· ≠ 0) | return ()
  let thread ← threadOf ctx
  let name ← query (Thread.assignOperator (.int ctx.conversationId) (.int operatorId))
  addNote thread.conversation
    (History.note ("Conversation assigned to " ++ name ++ " by automation.") "operator_assigned"
      [("operator_id", .int operatorId)])

/-- Goes on if a condition holds, and otherwise suspends the automation at a step. -/
def awaitCondition (ctx : Context) (stepId : String) (c : Condition) : Work Progress := do
  let thread ← threadOf ctx
  let facts ← loadFacts ctx.conversationId thread.conversation.clientId
  if ← c.holds facts then return .goesOn
  query (Slot.save ctx.conversationId
    { automationId := ctx.automationId
      stepId
      runId := ctx.runId
      condition := c.record })
  logPause ⟨ctx.automationId, ctx.runId, ctx.conversationId, stepId, c, facts⟩
  return .suspended

/-- Carries out a single step; a suspension is at the step with the id `owner`. -/
def runAction (settings : Settings) (onTags : TagHandler) (ctx : Context) (owner : String)
    (head : StepHead) : StepAction → Work Progress
  | .sendText text => do
    sendText settings ctx text
    return .goesOn
  | .sendButtons text imageUrl buttons => do
    sendButtons settings ctx head text imageUrl buttons
    return .goesOn
  | .sendMedia kind ref caption => do
    sendMedia settings ctx kind ref caption
    return .goesOn
  | .delay seconds => do
    if isValidDelay seconds then wait seconds
    return .goesOn
  | .condition c => awaitCondition ctx owner c
  | .addTag targets => do
    changeTags onTags ctx .tagAdded targets
    return .goesOn
  | .removeTag targets => do
    changeTags onTags ctx .tagRemoved targets
    return .goesOn
  | .assignOperator operatorId => do
    assign ctx operatorId
    return .goesOn
  | .close => do
    let _ ← query (Thread.setStatus ctx.conversationId "closed")
    return .goesOn
  | .unknown _ => return .goesOn

/-- Notes that a step begins. -/
def begin (ctx : Context) (head : StepHead) : Work Unit :=
  transact fun now => RunLog.append now ctx.runId head.stepId head.kind

mutual

/-- Carries out a step. Within a group, `owner` is the id of the outermost group. -/
def runStep (settings : Settings) (onTags : TagHandler) (ctx : Context) (owner : Option String) :
    Step → Work Progress
  | .single head action => do
    begin ctx head
    runAction settings onTags ctx (owner.getD head.stepId) head action
  | .group head _ members => do
    begin ctx head
    runSteps settings onTags ctx (some (owner.getD head.stepId)) members

/-- Carries out steps one after another, until one suspends (`run_steps`). -/
def runSteps (settings : Settings) (onTags : TagHandler) (ctx : Context) (owner : Option String) :
    List Step → Work Progress
  | [] => return .goesOn
  | step :: rest => do
    match ← runStep settings onTags ctx owner step with
    | .suspended => return .suspended
    | .goesOn => runSteps settings onTags ctx owner rest

end

/-- The end of a run whose steps ended like this: one that waits for a condition is over as well. -/
def endOf : Except Fault Progress → RunEnd
  | .ok _ => .completed
  | .error fault => .failed fault.summary

/-- Ends a run as its steps ended. -/
def endRun (runId : Int) (result : Except Fault Progress) : Work Unit := do
  logConclusion ⟨runId, result⟩
  transact fun now => RunLog.finish now runId (endOf result)

/-- Opens a run of a flow in a conversation and carries out its steps, or the ones given instead
(`execute_automation`); tells the run's id. A fault in a step fails the run and nothing else. -/
def execute (settings : Settings) (onTags : TagHandler) (flow : Flow) (conversationId : Int)
    (triggerData : Value) (instead : Option (List Step)) : Work (Option Int) := do
  let some thread ← query (Thread.load? conversationId) | return none
  let runId ← transact fun now =>
    RunLog.openRun now flow.automation.id thread.conversation.id thread.conversation.clientId
      triggerData
  let steps ← match instead with
    | some steps => pure steps
    | none => (flow.steps : Work (List Step))
  let ctx : Context := ⟨flow.automation.id, runId, thread.conversation.id⟩
  endRun runId (← attempt (runSteps settings onTags ctx none steps))
  return some runId

/-! ## Lemmas -/

theorem runSteps_nil (settings : Settings) (onTags : TagHandler) (ctx : Context)
    (owner : Option String) : runSteps settings onTags ctx owner [] = pure .goesOn := rfl

theorem runSteps_cons (settings : Settings) (onTags : TagHandler) (ctx : Context)
    (owner : Option String) (step : Step) (rest : List Step) :
    runSteps settings onTags ctx owner (step :: rest) = (do
      match ← runStep settings onTags ctx owner step with
      | .suspended => return .suspended
      | .goesOn => runSteps settings onTags ctx owner rest) := rfl

theorem runOn_execute_of_missing {settings : Settings} {onTags : TagHandler} {flow : Flow}
    {conversationId : Int} {triggerData : Value} {instead : Option (List Step)} {w : World}
    (h : (query (Thread.load? conversationId)).runOn w = (.ok none, w)) :
    (execute settings onTags flow conversationId triggerData instead).runOn w = (.ok none, w) := by
  unfold execute
  rw [runOn_bind, h]
  rfl

end Engine

end Deskflow
