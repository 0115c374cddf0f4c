import Deskflow.Delivery
import Deskflow.Media
import Deskflow.Settings

/-!
# The messaging service

The requests that are made to the messaging service, and how it answers: a method can be set to be
refused, or to break down. Each request names the bot that makes it by its token.

A delivery becomes one request. Media on the web are named by their address; any other reference is
the upload of a file under the storage root, which has to be there.

Models the `TelegramGateway` and the requests of its bots (`bot_for`, `send_text`, `_send_media`).
Out of scope: what the service does with a request that it takes.

* `checkToken_eq_ok`: the tokens that a bot can have.
-/

namespace Deskflow

/-- A request to the messaging service. -/
structure Request where
  method : String
  token : String
  parameters : Record := []
deriving DecidableEq, Repr

/-- How a method fails: it is refused, or it breaks down. -/
inductive Trouble where
  | refused (message : String)
  | broken (message : String)
deriving DecidableEq, Repr

/-- The fault that a failing method ends in. -/
def Trouble.fault : Trouble → Fault
  | refused message => .refused message
  | broken message => .delivery message

/-- The messaging service: the methods that fail, the id of the next message, and the files under
the storage root, by their parts. -/
structure Service where
  failing : List (String × Trouble) := []
  nextId : Int := 1001
  files : List (List String) := []
deriving DecidableEq, Repr

namespace Service

/-- Refuses a token that no bot can have: one with a blank in it, or one that is not digits, a
colon and something more. -/
def checkToken (token : String) : Except Fault Unit :=
  if token.toList.any Text.isBlank then .error .tokenSpaces
  else match Text.cutFirst? ':' token.toList with
    | some (front, back) =>
      if front.isEmpty || !front.all Text.isDigitLike || back.isEmpty then .error .tokenShape
      else .ok ()
    | none => .error .tokenShape

/-- The token of the bot of a channel, if it has one (`bot_for`). -/
def tokenOf? (channel : Channel) : Except Fault (Option String) := do
  let token ← channel.botToken
  if token = "" then return none
  checkToken token
  return some token

/-- The parts of a path with double dots resolved against the directories that are there; `done`
holds the parts before, the last one first. None if the path leaves the root or passes through
what is no directory. -/
def resolve? (files : List (List String)) (done : List String) :
    List String → Option (List String)
  | [] => some done.reverse
  | ".." :: rest =>
    match done with
    | [] => none
    | _ :: up =>
      if files.any fun f => done.reverse.isPrefixOf f && done.length < f.length
      then resolve? files up rest
      else none
  | p :: rest => resolve? files (p :: done) rest

/-- Whether a path under the storage root leads to a file. -/
def holdsFile (s : Service) (path : Path) : Bool :=
  match resolve? s.files [] path.parts with
  | some parts => s.files.contains parts
  | none => false

/-- A row of the keyboard as it is sent. -/
def keyValue (key : Callback.Key) : Value :=
  .object [("text", .str key.text),
    match key.target with
    | .url address => ("url", .str address)
    | .callback data => ("callback_data", .str data)]

/-- The keyboard as it is sent, one key in a row (`_keyboard`). -/
def keyboardValue (keyboard : List Callback.Key) : Value :=
  .list (keyboard.map fun k => .list [keyValue k])

/-- The method that sends media of a kind, and the name of the parameter for them. -/
def mediaMethod : MediaKind → String × String
  | .image => ("sendPhoto", "photo")
  | .video => ("sendVideo", "video")
  | .file => ("sendDocument", "document")

/-- The parameters that are there only where they say something. -/
def optional (name : String) (v : Value) : Record := if v.isGiven then [(name, v)] else []

/-- The value that names media: their address, or the upload of a file under the storage root. None
if there is no such file. -/
def mediaValue? (s : Service) (publicPrefix ref : String) : Option Value :=
  if Media.isRemote ref then some (.str ref)
  else
    let path := Media.relativePath publicPrefix ref
    if s.holdsFile path then
      some (.object [("upload", .str path.text), ("filename", .str path.fileName)])
    else none

/-- The request for a delivery by the bot with a token; none if a file is missing. -/
def request? (s : Service) (publicPrefix token : String) (d : Delivery) : Option Request :=
  let shared : Record := [("chat_id", .int d.chat), ("parse_mode", .str "HTML")]
  let buttons := optional "buttons" (keyboardValue d.keyboard)
  match d.content with
  | .text text =>
    some
      { method := "sendMessage"
        token
        parameters := shared ++ [("text", .str text)] ++ buttons }
  | .media kind ref caption => do
    let media ← s.mediaValue? publicPrefix ref
    let (method, name) := mediaMethod kind
    return {
      method
      token
      parameters := shared ++ [(name, media)] ++ optional "caption" (.str caption) ++ buttons }

/-! ## Lemmas -/

theorem checkToken_eq_ok {token : String} (h : checkToken token = .ok ()) :
    ∃ front back, token.toList = front ++ ':' :: back ∧ front ≠ [] ∧ back ≠ []
      ∧ front.all Text.isDigitLike = true := by
  unfold checkToken at h
  split at h
  · simp at h
  · split at h
    · rename_i front back hcut
      split at h
      · simp at h
      · rename_i hparts
        simp only [Bool.or_eq_true, not_or, Bool.not_eq_true', Bool.not_eq_true,
          List.isEmpty_eq_false_iff, Bool.not_eq_false] at hparts
        exact ⟨front, back, (Text.cutFirst?_eq_some hcut).1, hparts.1.1, hparts.2, hparts.1.2⟩
    · simp at h

end Service

end Deskflow
