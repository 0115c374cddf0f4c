import Deskflow.Engine.Click
import Deskflow.Front.Update

/-!
# The inbox

What is done with an update that reaches the bot with a token. Messages and edits count in private
chats only, and whatever goes wrong with them stops there. A click is always answered; its buttons
are taken down after that, if the action asks for it and the message is within reach.

Models `handle_client_message`, `handle_client_edit` and `handle_button_click`.

* `runOn_handle_other`: an update that the desk has no use for changes nothing.
-/

namespace Deskflow

namespace Inbox

open Work

/-- The channel that an update comes in on (`_channel_for`): the first active one whose bot has the
token. -/
def channelOf (token : String) : Work (Option Channel) := query (Thread.channelOfToken? token)

/-- The kind of chats in which messages count. -/
def privateKind : String := "private"

/-- A letter as a message that comes in on a channel. -/
def inbound (channel : Channel) (sender : Sender) (l : Letter) : Inbound :=
  let payload := l.post.payload
  { channelId := .int channel.id
    userId := .int sender.id
    chatId := .int l.chatId
    name := .str (displayName (some sender.firstName) sender.lastName)
    username := .ofText? sender.username
    language := .ofText? sender.language
    content := payload.content
    kind := payload.kind
    attachments := payload.attachments
    providerMessageId := .int l.messageId }

/-- Stores a message, and has its automations run unless it was there already. -/
def takeIn (settings : Settings) (m : Inbound) : Work Unit := do
  let receipt ← transact fun now => m.record now
  if receipt.duplicate then return ()
  let _ ← Engine.handleIncoming settings receipt

/-- Handles a message (`handle_client_message`). -/
def handleMessage (settings : Settings) (token : String) (l : Letter) : Work Unit := do
  if l.chatKind ≠ privateKind then return ()
  let some sender := l.sender | return ()
  if sender.isBot then return ()
  let some channel ← channelOf token | return ()
  let _ ← attempt (takeIn settings (inbound channel sender l))

/-- Replaces the content of a message by that of its edit. -/
def takeEdit (channel : Channel) (sender : Sender) (l : Letter) : Work Unit := do
  let some conversation ← query (Thread.find? channel.id sender.id) | return ()
  let _ ← query (History.markEdited conversation.id l.messageId l.post.payload.content)

/-- Handles an edit (`handle_client_edit`). -/
def handleEdit (token : String) (l : Letter) : Work Unit := do
  if l.chatKind ≠ privateKind then return ()
  let some sender := l.sender | return ()
  let some channel ← channelOf token | return ()
  let _ ← attempt (takeEdit channel sender l)

/-- Answers a click, with an alert if there is one. -/
def answer (token : String) (alert : Option String) : Work Unit :=
  request
    { method := "answerCallbackQuery"
      token
      parameters := (alert.map fun text => ("text", Value.str text)).toList }

/-- What a client is told of a click that went wrong. -/
def apology : String := "Something went wrong"

/-- Carries out an operation, and passes over a refusal by the messaging service. -/
def passingRefusal (x : Work Unit) : Work Unit := do
  match ← attempt x with
  | .error (.refused _) => return ()
  | .error fault => throw fault
  | .ok () => return ()

/-- Takes the buttons under a message down. -/
def hideButtons (token : String) (message : Int × Int) : Work Unit :=
  passingRefusal
    (request
      { method := "editMessageReplyMarkup"
        token
        parameters := [("chat_id", .int message.1), ("message_id", .int message.2)] })

/-- Handles a click in the conversation of the one who clicked. -/
def click (settings : Settings) (token : String) (conversationId : Int) (p : Press)
    (data : String) : Work Unit := do
  match ← attempt (Click.handle settings conversationId data) with
  | .error _ => answer token (some apology)
  | .ok result =>
    answer token none
    match result.hideButtons, p.message with
    | true, some message => hideButtons token message
    | _, _ => return ()

/-- Handles a click, unless it was seen before or nobody knows who clicked (`handle_button_click`).
-/
def handlePress (settings : Settings) (token : String) (p : Press) : Work Unit := do
  let some data := p.data.filter (· ≠ "") | return ()
  if ← Click.isDuplicate p.id then
    answer token none
    return ()
  let some channel ← channelOf token | answer token none
  let some conversation ← query (Thread.find? channel.id p.sender.id) | answer token none
  click settings token conversation.id p data

/-- Handles an update. -/
def handle (settings : Settings) (token : String) : Update → Work Unit
  | .message l => handleMessage settings token l
  | .edit l => handleEdit token l
  | .press p => handlePress settings token p
  | .other => return ()

/-! ## Lemmas -/

theorem runOn_handle_other (settings : Settings) (token : String) (w : World) :
    (handle settings token .other).runOn w = (.ok (), w) := rfl

end Inbox

end Deskflow
