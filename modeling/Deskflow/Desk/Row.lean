import Deskflow.Moment
import Deskflow.Value.Reading

/-!
# Rows

The things the desk keeps: channels and the operators behind them, clients with their tags,
conversations and their messages, and automations with their steps and runs. Settings, metadata
and other free-form columns hold values as they were stored.
-/

namespace Deskflow

/-- A way in for clients; each channel is served by one bot. -/
structure Channel where
  id : Int
  name : String
  kind : String
  credentials : Value
  settings : Value
  isActive : Bool
deriving DecidableEq, Repr

/-- Someone a conversation can be assigned to. -/
structure Operator where
  id : Int
  name : String
deriving DecidableEq, Repr

/-- A label for clients. Names are unique. -/
structure Tag where
  id : Int
  name : String
  color : Option String
deriving DecidableEq, Repr

/-- Someone who writes to the desk. External ids are unique. -/
structure Client where
  id : Int
  externalId : Option String
  name : Option String
  phone : Option String
  email : Option String
  metadata : Value
deriving DecidableEq, Repr

/-- A tag that a client carries. -/
structure Membership where
  clientId : Int
  tagId : Int
deriving DecidableEq, Repr

/-- The thread between one client and the desk on one channel. Its metadata holds the chat to
answer to and the suspended automation, if there is one. -/
structure Conversation where
  id : Int
  channelId : Int
  clientId : Option Int
  operatorId : Option Int
  status : String
  metadata : Value
  unreadCount : Int
  lastMessageAt : Option Moment
deriving DecidableEq, Repr

/-- An entry in the history of a conversation. -/
structure Message where
  id : Int
  conversationId : Int
  channelId : Int
  clientId : Option Int
  operatorId : Option Int
  direction : String
  kind : String
  content : Option String
  status : String
  attachments : Value
  providerMessageId : Option Int
  metadata : Value
  createdAt : Option Moment
deriving DecidableEq, Repr

/-- A trigger with steps. -/
structure Automation where
  id : Int
  name : String
  description : Option String
  channelId : Option Int
  trigger : String
  triggerConfig : Value
  isActive : Bool
deriving DecidableEq, Repr

/-- A stored step of an automation. Only `order` decides the sequence; the position and the ids of
other steps are for the editor. -/
structure StepRow where
  id : Int
  automationId : Int
  stepId : String
  kind : String
  config : Value
  position : Value
  order : Int
  nextStepId : Option String
  trueStepId : Option String
  falseStepId : Option String
deriving DecidableEq, Repr

/-- One execution of an automation in a conversation, with a trace of the steps begun. -/
structure Run where
  id : Int
  automationId : Int
  conversationId : Int
  clientId : Option Int
  status : String
  triggerData : Value
  stepsExecuted : Value
  error : Option String
  startedAt : Option Moment
  completedAt : Option Moment
deriving DecidableEq, Repr

namespace Channel

/-- The token of the bot that serves a channel; empty if there is none. -/
def botToken (c : Channel) : Except Fault String := do
  return (← c.credentials.field "bot_token").givenText

/-- Whether no automation may be triggered on a channel. -/
def automationsDisabled (c : Channel) : Except Fault Bool := do
  return (← c.settings.field "disable_automations").isGiven

end Channel

/-- The metadata field that names the chat to answer to. -/
def chatField : String := "telegram_chat_id"

/-- The chat that a conversation with this metadata is answered in, if it names one. -/
def chatOfMetadata (metadata : Value) : Except Fault (Option Int) := do
  match ← metadata.field chatField with
  | .null => return none
  | v => return some (← v.toInt)

/-- The chat that a conversation is answered in, if it names one. -/
def Conversation.chatId (c : Conversation) : Except Fault (Option Int) := chatOfMetadata c.metadata

end Deskflow
