import Deskflow.Text.Case
import Deskflow.Value.Reading

/-!
# Triggers

Which automations an event is for. An event has the triggers of its kind, in order: for an incoming
message the keyword automations come before those for every message. Keyword and tag automations
are asked for more than their trigger, by `keywordMatches` and `tagMatches`.

Models `AutomationEvent`, `parse_keywords`, `keyword_matches` and `tag_trigger_matches`.

* `TriggerKind.ofName?_name`, `EventKind.ofName?_name`: names and kinds match one to one.
* `keywordMatches_of_mem`: a text matches if it holds one of the keywords, case aside.
-/

namespace Deskflow

/-- The kinds of events (`EventKind`). -/
inductive EventKind where
  | newConversation | incomingMessage | tagAdded | tagRemoved
  | conversationOpened | conversationClosed
deriving DecidableEq, Repr, Inhabited

/-- The kinds of triggers that an event can set off (`TriggerKind`). -/
inductive TriggerKind where
  | newConversation | keyword | incomingMessage | tagAdded | tagRemoved
  | conversationOpened | conversationClosed
deriving DecidableEq, Repr

/-- The name under which an automation stores its trigger. -/
def TriggerKind.name : TriggerKind → String
  | newConversation => "new_conversation"
  | keyword => "keyword"
  | incomingMessage => "incoming_message"
  | tagAdded => "tag_added"
  | tagRemoved => "tag_removed"
  | conversationOpened => "conversation_opened"
  | conversationClosed => "conversation_closed"

/-- The trigger of a name. Other names can be stored, and never fire. -/
def TriggerKind.ofName? (s : String) : Option TriggerKind :=
  [newConversation, keyword, incomingMessage, tagAdded, tagRemoved, conversationOpened,
    conversationClosed].find? fun k => k.name == s

namespace EventKind

/-- The name of a kind of events. -/
def name : EventKind → String
  | newConversation => "new_conversation"
  | incomingMessage => "incoming_message"
  | tagAdded => "tag_added"
  | tagRemoved => "tag_removed"
  | conversationOpened => "conversation_opened"
  | conversationClosed => "conversation_closed"

/-- Every kind of events. -/
def all : List EventKind :=
  [newConversation, incomingMessage, tagAdded, tagRemoved, conversationOpened, conversationClosed]

/-- The kind of a name. -/
def ofName? (s : String) : Option EventKind := all.find? fun k => k.name == s

/-- The kind that a value is expected to name. -/
def read (v : Value) : Except Fault EventKind :=
  match v.text?.bind ofName? with
  | some kind => .ok kind
  | none => .error (.unknownEvent v)

/-- The kind that a value names, of those whose events are set off by hand: all but incoming
messages. -/
def readManual (v : Value) : Except Fault EventKind :=
  match v.text?.bind ofName? with
  | some incomingMessage | none => .error (.noTrigger v.text)
  | some kind => .ok kind

/-- The triggers that a kind of events sets off, in order. -/
def triggers : EventKind → List TriggerKind
  | newConversation => [.newConversation]
  | incomingMessage => [.keyword, .incomingMessage]
  | tagAdded => [.tagAdded]
  | tagRemoved => [.tagRemoved]
  | conversationOpened => [.conversationOpened]
  | conversationClosed => [.conversationClosed]

/-- Whether a kind of events is about tags. -/
def isTagEvent : EventKind → Bool
  | tagAdded => true
  | tagRemoved => true
  | _ => false

end EventKind

/-- Something that happened in a conversation (`AutomationEvent`). -/
structure Event where
  kind : EventKind
  conversationId : Int
  channelId : Int
  messageId : Option Int := none
  messageText : Option String := none
  tagIds : List Int := []
deriving DecidableEq, Repr

/-- What a run keeps of the event that set it off (`trigger_data`). -/
def Event.triggerData (e : Event) : Record :=
  [("event", .str e.kind.name)]
    ++ (e.messageId.map fun n => ("message_id", Value.int n)).toList
    ++ (e.messageText.map fun s => ("message_content", Value.str s)).toList
    ++ (if e.tagIds.isEmpty then [] else [("tag_ids", .list (e.tagIds.map .int))])

/-- The keywords that a setting holds (`parse_keywords`): a list of them, or a text with commas
between them. Blanks around a keyword and its case do not count, and neither do blank keywords. -/
def parseKeywords (raw : Value) : List String :=
  let parts := match raw with
    | .list xs => xs.map Value.text
    | v => Text.splitAt ',' v.givenText
  (parts.filter fun p => Text.trim p ≠ "").map fun p => Text.lower (Text.trim p)

/-- Whether a text holds one of the keywords that the settings of a trigger name
(`keyword_matches`). -/
def keywordMatches (config : Value) (text : Option String) : Except Fault Bool := do
  let keywords := parseKeywords (← config.field "keywords")
  return keywords.any fun k => Text.holds (Text.lower (text.getD "")) k

/-- Whether the settings of a trigger ask for one of the tags that a value lists
(`tag_trigger_matches`). Without a tag in the settings every tag will do, and a tag that is not a
number is none. -/
def tagMatches (config tags : Value) : Except Fault Bool := do
  let wanted ← config.field "tag_id"
  if wanted.isLeftOut then return true
  match ← wanted.toInt? with
  | none => return false
  | some id => return (← (← tags.givenItems).mapM Value.toInt).contains id

/-! ## Lemmas -/

@[simp] theorem TriggerKind.ofName?_name (k : TriggerKind) : ofName? k.name = some k := by
  cases k <;> decide +kernel

@[simp] theorem EventKind.ofName?_name (k : EventKind) : ofName? k.name = some k := by
  cases k <;> decide +kernel

theorem TriggerKind.name_inj {a b : TriggerKind} (h : a.name = b.name) : a = b := by
  have := congrArg ofName? h
  simpa using this

theorem keywordMatches_of_mem {config : Value} {text keyword : String} {raw : Value}
    (hraw : config.field "keywords" = .ok raw) (hmem : keyword ∈ parseKeywords raw)
    (hheld : Text.holds (Text.lower text) keyword = true) :
    keywordMatches config (some text) = .ok true := by
  have : (parseKeywords raw).any (fun k => Text.holds (Text.lower text) k) = true :=
    List.any_eq_true.2 ⟨keyword, hmem, hheld⟩
  simp [keywordMatches, hraw, bind, Except.bind, pure, Except.pure, this]

end Deskflow
