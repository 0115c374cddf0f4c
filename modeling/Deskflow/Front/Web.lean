import Deskflow.Desk.Call
import Deskflow.Front.Access
import Deskflow.Front.Office
import Deskflow.Text.Escaped

/-!
# The web interface

What the desk answers to requests from outside: updates of the messaging service, the history of
runs for administrators, and how the desk is doing. Numbers in an address are looked at first, then
the token, then whether the desk is ready. What goes wrong on the way is answered with 500.

Models `webhook_handler`, `list_automation_runs`, `get_run`, `health_check`, `status` and `root`.
Out of scope: the pages that describe the interface, beyond that they are there.

* `answer_of_unknown`: an address that leads nowhere.
* `runOn_deliver_of_wrongSecret`: an update with the wrong secret is not even read.
-/

namespace Deskflow

namespace Web

open Work

/-- A request from outside. The path holds the parameters too. -/
structure Visit where
  method : String
  path : String
  headers : Headers := []
  body : Option Value := none
deriving DecidableEq, Repr

/-- An answer: its status, and a value unless it has none. -/
structure Reply where
  status : Nat
  body : Option Value := none
deriving DecidableEq, Repr

/-- An answer with a value. -/
def reply (r : Record) : Reply := ⟨200, some (.object r)⟩

/-- An answer with a status that says what is wrong. -/
def complaint (status : Nat) (detail : String) : Reply :=
  ⟨status, some (.object [("detail", .str detail)])⟩

/-- The number of this interface. -/
def version : Value := .str "1.0.0"

/-- The header that carries the secret of updates. -/
def secretHeader : String := "x-telegram-bot-api-secret-token"

/-- Whether a visit carries the secret of the settings, if they have one. -/
def knowsSecret (settings : Settings) (v : Visit) : Bool :=
  settings.webhookSecret = ""
    || (v.headers.value? secretHeader).getD "" = settings.webhookSecret

/-- Takes an update for a bot. A refusal by the messaging service does not count as going wrong. -/
def takeUpdate (settings : Settings) (token : String) (body : Option Value) : Work Reply := do
  let update ← (Update.read (body.getD .null) : Work Update)
  Inbox.passingRefusal (Inbox.handle settings token update)
  return ⟨200, none⟩

/-- Takes an update for the bot of a channel (`webhook_handler`). -/
def deliver (settings : Settings) (channelId : Int) (v : Visit) : Work Reply := do
  if !knowsSecret settings v then return ⟨401, none⟩
  match (← Office.bots).lookup channelId with
  | none => return ⟨404, none⟩
  | some token =>
    match ← attempt (takeUpdate settings token v.body) with
    | .ok r => return r
    | .error _ => return ⟨500, none⟩

/-- An answer for administrators, once the desk is ready (`_require_admin`). -/
def forAdmin (settings : Settings) (v : Visit) (answer : Work Reply) : Work Reply := do
  if !v.headers.isAdmin settings then return complaint 403 "admin token required"
  if !(← get).runtime.any Runtime.ready then return complaint 503 "initializing"
  answer

/-- A page of the runs of an automation (`list_automation_runs`). -/
def runs (automationId limit offset : Int) : Work Reply := do
  let shown ← transact fun now =>
    Call.perform now (.runs (.int automationId) (.int limit) (.int offset))
  return reply [("automation_id", .int automationId), ("runs", shown)]

/-- One run (`get_run`). -/
def run (runId : Int) : Work Reply := do
  match ← transact fun now => Call.perform now (.run (.int runId)) with
  | .null => return complaint 404 "run not found"
  | shown => return ⟨200, some shown⟩

/-- How the desk is doing (`health_check`); administrators are told more. -/
def health (settings : Settings) (v : Visit) : Work Reply := do
  let running ← Office.isRunning
  let open_ : Record :=
    [("status", .str "ok"), ("running", .bool running), ("version", version)]
      ++ (if running then [] else [("detail", .str "initializing")])
  if v.headers.isAdmin settings && (← get).runtime.any Runtime.ready then
    let bots ← Office.bots
    let uptime ← Office.uptime
    return reply (open_ ++ [("database_ok", .bool true), ("channels", .int bots.length),
      ("uptime_seconds", .int uptime)])
  return reply open_

/-- The sizes of tables and the settings of the engine, for administrators (`status`). -/
def status (settings : Settings) (v : Visit) : Work Reply := do
  if !v.headers.isAdmin settings then return ⟨403, none⟩
  if !(← Office.isRunning) then return reply [("status", .str "initializing")]
  let stats ← query Office.tableCounts
  return reply
    [("status", .str "running"), ("version", version), ("stats", .object stats),
      ("config", .object
        [("tag_trigger_dedup_seconds", .int settings.tagWindow),
          ("public_storage_prefix", .str settings.publicPrefix)])]

/-- What this is, and where to go on (`root`). -/
def welcome : Work Reply := do
  let running ← Office.isRunning
  return reply
    [("name", .str "Help-desk Automation Engine"), ("version", version),
      ("status", .str (if running then "running" else "initializing")),
      ("endpoints", .object
        [("health", .str "/health"), ("status", .str "/status"),
          ("runs", .str "/api/automations/\x7bautomation_id\x7d/runs")])]

/-- Where an address leads. Numbers are still texts. -/
inductive Place where
  | webhook (channelId : String)
  | runs (automationId : String)
  | run (runId : String)
  | health
  | status
  | welcome
  | manual
deriving DecidableEq, Repr

/-- The methods that a place is visited by. -/
def Place.methods : Place → List String
  | .webhook _ => ["POST"]
  | .manual => ["GET", "HEAD"]
  | _ => ["GET"]

/-- The last part of a path that continues another path by one part. -/
def partAfter? (front path : String) : Option String :=
  let front := (front ++ "/").toList
  let part := path.toList.drop front.length
  if front.isPrefixOf path.toList && !part.isEmpty && !part.contains '/' then
    some (String.ofList part)
  else none

/-- The place that a path leads to, the webhooks aside. -/
def fixedPlace? (path : String) : Option Place :=
  match Text.splitAt '/' path with
  | ["", "api", "automations", id, "runs"] => if id = "" then none else some (.runs id)
  | ["", "api", "runs", id] => if id = "" then none else some (.run id)
  | ["", "health"] => some .health
  | ["", "status"] => some .status
  | ["", ""] => some .welcome
  | ["", "docs"] | ["", "docs", "oauth2-redirect"] | ["", "redoc"] => some .manual
  | _ => none

/-- The places that a path leads to, in the order in which they are asked. Updates are taken under
a path of their own. -/
def placesOf (updatePath path : String) : List Place :=
  ((partAfter? updatePath path).map Place.webhook).toList ++ (fixedPlace? path).toList

/-- The place among some that is visited by a method, and else the first one. -/
def choose? (method : String) (places : List Place) : Option Place :=
  (places.find? fun p => p.methods.contains method).orElse fun _ => places.head?

/-- The path of an address, and its parameters. -/
def splitAddress (address : String) : String × List (String × String) :=
  match Text.cutFirst? '?' address.toList with
  | some (path, parameters) => (Text.unescape path, Text.parameters (String.ofList parameters))
  | none => (Text.unescape address.toList, [])

/-- Whether a path that leads nowhere does lead somewhere without the slashes at its end. -/
def hasStraySlash (updatePath path : String) : Bool :=
  path.toList.getLast? = some '/'
    && !(placesOf updatePath (Text.trimEndBy (· == '/') path)).isEmpty

/-- The number that a text in an address stands for. -/
def number? (s : String) : Option Int := Update.integer? (.str s)

/-- The number that the last parameter of a name stands for, or a default. -/
def parameter? (parameters : List (String × String)) (name : String) (default : Int) :
    Option Int :=
  match parameters.reverse.lookup name with
  | some s => number? s
  | none => some default

/-- The answer of a place; none if a number in the address is none. -/
def answerAt (settings : Settings) (parameters : List (String × String)) (v : Visit) :
    Place → Option (Work Reply)
  | .webhook id => do
    let id ← number? id
    return deliver settings id v
  | .runs id => do
    let id ← number? id
    let limit ← parameter? parameters "limit" 50
    let offset ← parameter? parameters "offset" 0
    return forAdmin settings v (runs id limit offset)
  | .run id => do
    let id ← number? id
    return forAdmin settings v (run id)
  | .health => some (health settings v)
  | .status => some (status settings v)
  | .welcome => some welcome
  | .manual => some (return ⟨200, none⟩)

/-- The answer to a visit. The path for updates is the one that was set when the interface was laid
out: other settings change what the messaging service is told, and not where updates are taken. -/
def answer (updatePath : String) (settings : Settings) (v : Visit) : Work Reply := do
  let (path, parameters) := splitAddress v.path
  match choose? v.method (placesOf updatePath path) with
  | none => return if hasStraySlash updatePath path then ⟨307, none⟩ else complaint 404 "Not Found"
  | some place =>
    if !place.methods.contains v.method then return complaint 405 "Method Not Allowed"
    match answerAt settings parameters v place with
    | none => return ⟨422, none⟩
    | some work =>
      match ← attempt work with
      | .ok r => return r
      | .error _ => return ⟨500, none⟩

/-! ## Lemmas -/

theorem answer_of_unknown {updatePath : String} {settings : Settings} {v : Visit}
    (h : placesOf updatePath (splitAddress v.path).1 = [])
    (hs : hasStraySlash updatePath (splitAddress v.path).1 = false) :
    answer updatePath settings v = pure (complaint 404 "Not Found") := by
  simp [answer, h, hs, choose?]

theorem runOn_deliver_of_wrongSecret {settings : Settings} {v : Visit} (channelId : Int) (w : World)
    (h : knowsSecret settings v = false) :
    (deliver settings channelId v).runOn w = (.ok ⟨401, none⟩, w) := by
  unfold deliver
  rw [h]
  rfl

end Web

end Deskflow
