import Deskflow.Desk.Inbound
import Deskflow.Engine.Execution

/-!
# Dispatch

From an event to runs. Every flow that an event is for gets a run of its own, in order. A tag
automation is passed over if it fired for the same change in the same conversation within the tag
window. Changes of tags that a run makes are events of their own, unless a tag event set the run
off: chaining stops after one level.

A conversation that waits for a condition is looked at before a new message is: its suspension is
taken, and either resumed or dropped.

Models `AutomationService`: `dispatch`, `handle_incoming_message`, `resume_paused` and the triggers.
Out of scope: the lock that each of these holds, which is in `Lock`.

* `recentlyFired_of_closed`: without a tag window nothing is passed over.
* `runOn_handleIncoming_of_duplicate`: a message that was there already sets nothing off.
-/

namespace Deskflow

namespace Engine

open Work

/-- What tells a firing of an automation for an event from others; the order of tags does not
count. -/
def firingKey (automationId : Int) (event : Event) : FiringKey :=
  { automationId
    conversationId := event.conversationId
    kind := event.kind
    tagIds := sortBy (· ≤ ·) event.tagIds }

/-- The entries of a table of readings that are less than a number of seconds old. -/
def within {α : Type} (seconds : Int) (now : Binary64) (entries : List (α × Binary64)) :
    List (α × Binary64) :=
  entries.filter fun e => Stopwatch.isRecent seconds now e.2

/-- Whether an automation fired for the same change within the tag window (`_recently_fired`); if it
did not, it does now. -/
def recentlyFired (settings : Settings) (automationId : Int) (event : Event) : Work Bool := do
  if settings.tagWindow ≤ 0 then return false
  let now ← reading
  let memory := (← get).memory
  let firings := within settings.tagWindow now memory.firings
  let key := firingKey automationId event
  let fired := firings.any fun e => e.1 = key
  let firings := if fired then firings else firings ++ [(key, now)]
  modify fun w => { w with memory := { w.memory with firings } }
  return fired

/-- Runs a flow for an event; none if it is passed over, or the conversation is not there. -/
def fire (settings : Settings) (onTags : TagHandler) (event : Event) (flow : Flow) :
    Work (Option Int) := do
  let run := execute settings onTags flow event.conversationId (.object event.triggerData) none
  if event.kind.isTagEvent then
    if ← recentlyFired settings flow.automation.id event then return none
    guarded run
  else run

/-- Runs flows for an event, one after another; tells the ids of the runs. -/
def fireAll (settings : Settings) (onTags : TagHandler) (event : Event) :
    List Flow → Work (List Int)
  | [] => return []
  | flow :: rest => do
    let run ← fire settings onTags event flow
    return run.toList ++ (← fireAll settings onTags event rest)

/-- Runs the flows that an event is for (`_dispatch`). -/
def dispatchWith (settings : Settings) (onTags : TagHandler) (event : Event) :
    Work (List Int) := do
  fireAll settings onTags event (← query (Flow.matching event))

/-- Changes of tags of which nothing comes. -/
def quiet : TagHandler := fun _ _ _ _ => return ()

/-- Changes of tags that are events of their own, unless a tag event set off the run that makes them
(`_on_tags_changed`). The runs that they set off have the guard up, so that nothing comes of their
changes. -/
def chained (settings : Settings) : TagHandler := fun kind conversationId channelId tagIds => do
  if (← get).memory.tagGuard then return ()
  let _ ← dispatchWith settings quiet { kind, conversationId, channelId, tagIds }

/-- Runs every automation that an event is for (`dispatch`); tells the ids of the runs. -/
def dispatch (settings : Settings) (event : Event) : Work (List Int) :=
  dispatchWith settings (chained settings) event

/-- What a run keeps of the suspension that it goes on from. -/
def resumeData (s : Suspension) : Record :=
  [("resumed_from_condition", .bool true), ("paused_step_id", .str s.stepId),
    ("previous_run_id", .int s.runId)]

/-- The steps that come after a step by their order; none if there is no step of that id. -/
def stepsAfter? (stepId : String) (steps : List Step) : Option (List Step) :=
  (steps.find? fun s => s.head.stepId == stepId).map fun paused =>
    steps.filter fun s => paused.head.order < s.head.order

/-- Takes the suspension of a conversation and goes on after the step that it waits at, if its
condition now holds (`_resume`); tells the run's id. -/
def resume (settings : Settings) (conversationId : Int) : Work (Option Int) := do
  let some suspension ← query (Slot.take conversationId) | return none
  let some flow ← query (Flow.load? suspension.automationId) | return none
  if !flow.automation.isActive then return none
  let some thread ← query (Thread.load? conversationId) | return none
  let facts ← loadFacts conversationId thread.conversation.clientId
  let condition := suspension.condition
  let holds ← (Condition.evaluate facts (condition.getD "condition_type")
    (condition.getD "condition_value") : Work Bool)
  if !holds then return none
  let steps ← (flow.steps : Work (List Step))
  let some remaining := stepsAfter? suspension.stepId steps | return none
  execute settings (chained settings) flow conversationId (.object (resumeData suspension))
    (some remaining)

/-- The event of a message that came in. -/
def eventOf (kind : EventKind) (r : Receipt) : Event :=
  { kind
    conversationId := r.conversationId
    channelId := r.channelId
    messageId := some r.messageId
    messageText := some r.content }

/-- Whether a message sets off no automation: on a channel where they are disabled, and in the first
conversation on a channel of a client who talks to the desk elsewhere. -/
def isSilent (r : Receipt) : Bool :=
  r.automationsDisabled || (r.isNewConversation && r.clientHasOtherChannels)

/-- Everything that a message sets off (`handle_incoming_message`): a suspension is looked at first,
and then the message is an event, or two in a new conversation. Tells the ids of the runs. -/
def handleIncoming (settings : Settings) (r : Receipt) : Work (List Int) := do
  if r.duplicate then return []
  let resumed := (← resume settings r.conversationId).toList
  if isSilent r then return resumed
  let opening ←
    if r.isNewConversation then dispatch settings (eventOf .newConversation r) else pure []
  let incoming ← dispatch settings (eventOf .incomingMessage r)
  return resumed ++ opening ++ incoming

/-- Runs the automations that an event in a conversation is for, if the conversation is there
(`_trigger`). -/
def trigger (settings : Settings) (kind : EventKind) (conversationId : Int) (tagIds : List Int) :
    Work (List Int) := do
  match ← query (Thread.load? conversationId) with
  | none => return []
  | some thread =>
    dispatch settings
      { kind
        conversationId := thread.conversation.id
        channelId := thread.conversation.channelId
        tagIds }

/-! ## Lemmas -/

theorem recentlyFired_of_closed {settings : Settings} (h : settings.tagWindow ≤ 0)
    (automationId : Int) (event : Event) (w : World) :
    (recentlyFired settings automationId event).runOn w = (.ok false, w) := by
  unfold recentlyFired
  rw [if_pos h]
  rfl

theorem runOn_handleIncoming_of_duplicate {settings : Settings} {r : Receipt} (w : World)
    (h : r.duplicate = true) : (handleIncoming settings r).runOn w = (.ok [], w) := by
  unfold handleIncoming
  rw [if_pos h]
  rfl

end Engine

end Deskflow
