import Deskflow.Fault
import Deskflow.Front.Post
import Deskflow.Moment
import Deskflow.Number.Numeral

/-!
# Updates

What the messaging service reports: a message, an edit, a click, or something that the desk has no
use for. An update has to be of the expected shape in all its parts. Integers may also be given as
numerals or truth values, and truth values as words.

Out of scope: the parts of an update that the desk never reads.

* `integer?_int`: an integer stands for itself.
* `read_empty`: an update has to have a number.
-/

namespace Deskflow

/-- Who sent something. -/
structure Sender where
  id : Int
  isBot : Bool
  firstName : String
  lastName : Option String := none
  username : Option String := none
  language : Option String := none
deriving DecidableEq, Repr

/-- A message as it is reported. -/
structure Letter where
  messageId : Int
  chatId : Int
  chatKind : String
  sender : Option Sender
  post : Post
deriving DecidableEq, Repr

/-- The click of a button. The message under which the button was may be out of reach. -/
structure Press where
  id : String
  sender : Sender
  data : Option String
  message : Option (Int × Int)
deriving DecidableEq, Repr

/-- What the messaging service reports. -/
inductive Update where
  | message (letter : Letter)
  | edit (letter : Letter)
  | press (press : Press)
  | other
deriving DecidableEq, Repr

namespace Update

/-- An expected part that is not there, or not of the expected shape. -/
def malformed {α : Type} : Except Fault α := .error .malformedUpdate

/-- The value of an option, which has to be there. -/
def orMalformed {α : Type} : Option α → Except Fault α
  | some a => .ok a
  | none => malformed

/-- The text without a zero fraction at its end. -/
def dropZeroFraction (s : String) : String :=
  match Text.cutFirst? '.' s.toList with
  | some (whole, places) =>
    if !places.isEmpty && places.all (· = '0') then String.ofList whole else s
  | none => s

/-- Whether a character may surround a numeral: every blank but the four separators of information
in ASCII. -/
def isPadding (c : Char) : Bool := Text.isBlank c && !(28 ≤ c.toNat && c.toNat ≤ 31)

/-- The integer that a text stands for: a numeral of ASCII characters, with zeros behind a point or
without. -/
def numeral? (s : String) : Option Int :=
  let bare := Text.trimBy isPadding s.toList
  if bare.all fun c => c.toNat < 128 then
    (Numeral.read (dropZeroFraction (String.ofList bare))).toOption
  else none

/-- The integer that a value stands for. -/
def integer? : Value → Option Int
  | .int n => some n
  | .bool b => some (if b then 1 else 0)
  | .float x => x.integer?
  | .str s => numeral? s
  | _ => none

/-- The truth value that a value stands for. -/
def truth? : Value → Option Bool
  | .bool b => some b
  | .str s =>
    if ["1", "true", "t", "yes", "y", "on"].contains s.toLower then some true
    else if ["0", "false", "f", "no", "n", "off"].contains s.toLower then some false
    else none
  | v =>
    match integer? v with
    | some 0 => some false
    | some 1 => some true
    | _ => none

/-- The integer in a field. -/
def integer (r : Record) (name : String) : Except Fault Int := orMalformed (integer? (r.getD name))

/-- The text in a field. -/
def text (r : Record) (name : String) : Except Fault String := orMalformed (r.getD name).text?

/-- The text in a field that may be left out. -/
def optionalText (r : Record) (name : String) : Except Fault (Option String) :=
  match r.getD name with
  | .null => .ok none
  | .str s => .ok (some s)
  | _ => malformed

/-- The fields of an object in a field. -/
def object (r : Record) (name : String) : Except Fault Record :=
  match r.getD name with
  | .object fields => .ok fields
  | _ => malformed

/-- What an object in a field stands for; none if it is left out. -/
def optional {α : Type} (r : Record) (name : String) (read : Record → Except Fault α) :
    Except Fault (Option α) :=
  match r.getD name with
  | .null => .ok none
  | .object fields => some <$> read fields
  | _ => malformed

/-- A sender. -/
def sender (r : Record) : Except Fault Sender := do
  return {
    id := ← integer r "id"
    isBot := ← orMalformed (truth? (r.getD "is_bot"))
    firstName := ← text r "first_name"
    lastName := ← optionalText r "last_name"
    username := ← optionalText r "username"
    language := ← optionalText r "language_code" }

/-- A posted file, with integers that have to be there and a text that comes with it. -/
def file (integers : List String) (note : String) (r : Record) : Except Fault PostedFile := do
  let _ ← text r "file_unique_id"
  let _ ← integers.mapM (integer r)
  return { fileId := ← text r "file_id", note := ← optionalText r note }

/-- The sizes of a picture. -/
def photos (r : Record) : Except Fault (List PostedFile) :=
  match r.getD "photo" with
  | .null => .ok []
  | .list items => items.mapM fun
    | .object fields => file ["width", "height"] "" fields
    | _ => malformed
  | _ => malformed

/-- A sticker. -/
def sticker (r : Record) : Except Fault PostedFile := do
  let _ ← text r "type"
  let _ ← orMalformed (truth? (r.getD "is_animated"))
  let _ ← orMalformed (truth? (r.getD "is_video"))
  file ["width", "height"] "emoji" r

/-- What a message holds. -/
def post (r : Record) : Except Fault Post := do
  return {
    text := ← optionalText r "text"
    caption := ← optionalText r "caption"
    photos := ← photos r
    video := ← optional r "video" (file ["width", "height", "duration"] "")
    document := ← optional r "document" (file [] "file_name")
    voice := ← optional r "voice" (file ["duration"] "")
    sticker := ← optional r "sticker" sticker }

/-- The largest count that is one of seconds; a larger one is one of milliseconds. -/
def mostSeconds : Int := 20000000000

/-- Whether a count of seconds or milliseconds from the start of 1970 stands for a moment. -/
def isTimestamp (n : Int) : Bool :=
  let seconds := if n.natAbs ≤ mostSeconds then n else n.fdiv 1000
  (Moment.mk (seconds * Moment.second)).isCounted

/-- Whether a value stands for a moment: a number of seconds or milliseconds, or a date with a time
of day. -/
def isDate : Value → Bool
  | .int n => isTimestamp n
  | .float x => !x.isNaN && !x.isInfinite && isTimestamp x.truncate
  | .str s => (numeral? s).any isTimestamp || (Moment.read? s).isSome
  | _ => false

/-- A message. -/
def letter (r : Record) : Except Fault Letter := do
  let messageId ← integer r "message_id"
  if !isDate (r.getD "date") then malformed
  let chat ← object r "chat"
  return {
    messageId
    chatId := ← integer chat "id"
    chatKind := ← text chat "type"
    sender := ← optional r "from" sender
    post := ← post r }

/-- The chat and the id of the message under which a button was pressed; none if the message is out
of reach, which a date of zero tells, or none. -/
def pressedMessage (r : Record) : Except Fault (Option (Int × Int)) := do
  if (r.get? "date").getD (.int 0) = .int 0 then
    let chat ← object r "chat"
    let _ ← integer chat "id"
    let _ ← text chat "type"
    let _ ← integer r "message_id"
    return none
  let l ← letter r
  return some (l.chatId, l.messageId)

/-- A press. -/
def readPress (r : Record) : Except Fault Press := do
  let _ ← text r "chat_instance"
  return {
    id := ← text r "id"
    sender := ← match r.getD "from" with
      | .object fields => sender fields
      | _ => malformed
    data := ← optionalText r "data"
    message := (← optional r "message" pressedMessage).join }

/-- An update from the value that reports it. -/
def read : Value → Except Fault Update
  | .object fields => do
    let _ ← integer fields "update_id"
    let message ← optional fields "message" letter
    let edit ← optional fields "edited_message" letter
    let press ← optional fields "callback_query" readPress
    return match message, edit, press with
      | some l, _, _ => .message l
      | none, some l, _ => .edit l
      | none, none, some p => .press p
      | none, none, none => .other
  | _ => malformed

/-! ## Lemmas -/

@[simp] theorem integer?_int (n : Int) : integer? (.int n) = some n := rfl

theorem read_empty : read (.object []) = .error .malformedUpdate := rfl

end Update

end Deskflow
