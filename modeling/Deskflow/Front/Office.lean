import Deskflow.Front.Inbox

/-!
# The office

Starting and stopping the desk. To start, every table it needs has to be there; then each active
channel with a bot is served, and the messaging service is told where to send its updates. From
then on deliveries go out for real, and nothing is remembered from before.

Models `HelpdeskBot` and the `lifespan` of the web interface. Out of scope: asking for updates
(`run_polling`).

* `run_requireSchema`: what is missing is named in a fixed order.
* `runOn_begin_of_running`: a desk that runs is not started again.
-/

namespace Deskflow

namespace Office

open Work Inbox

/-- Refuses to go on while a table is missing that the desk cannot do without (`require_schema`). -/
def requireSchema : Transaction Unit := do
  let absent := (← get).absent
  match Table.required.filter absent.contains with
  | [] => return ()
  | missing => throw (.schemaIncomplete (missing.map Table.name))

/-- The number of rows of each table whose size is reported (`get_table_counts`). -/
def tableCounts : Transaction Record :=
  Table.counted.mapM fun t => do
    Transaction.need t
    return (t.name, .int ((← get).count t))

/-- Makes every table that is missing (`create_tables`). -/
def createTables : Transaction Unit := modify fun s => { s with absent := [] }

/-- Changes the runtime, if there is one. -/
def modifyRuntime (f : Runtime → Runtime) : Work Unit :=
  modify fun w => { w with runtime := w.runtime.map f }

/-- The channels that have a bot, with its token. -/
def bots : Work (List (Int × String)) := do
  return match (← get).runtime with
    | some r => r.bots
    | none => []

/-- Whether the desk runs. -/
def isRunning : Work Bool := do return (← get).runtime.any Runtime.running

/-- Serves channels, one after another; one without a bot is passed over. -/
def serve : List Channel → Work Unit
  | [] => return ()
  | channel :: rest => do
    match ← (Service.tokenOf? channel : Work (Option String)) with
    | some token => modifyRuntime fun r => { r with bots := r.bots ++ [(channel.id, token)] }
    | none => pure ()
    serve rest

/-- Builds the services of the desk (`initialize`). -/
def prepare : Work Unit := do
  modify fun w => { w with runtime := some {} }
  query requireSchema
  modifyRuntime fun r => { r with ready := true }
  modify fun w => { w with live := true, memory := {} }
  serve (← query (Thread.activeChannels Thread.botKind))

/-- Has each bot say who it is; whatever goes wrong with that is passed over. -/
def greet : List (Int × String) → Work Unit
  | [] => return ()
  | (_, token) :: rest => do
    let _ ← attempt (request { method := "getMe", token })
    greet rest

/-- Lets the desk run, unless it does (`start`). -/
def begin : Work Unit := do
  if ← isRunning then return ()
  let now ← now
  modifyRuntime fun r => { r with running := true, startedAt := some now }
  greet (← bots)

/-- The kinds of updates that the desk has a use for. -/
def allowedUpdates : Value :=
  .list [.str "callback_query", .str "edited_message", .str "message"]

/-- The request for the updates of a channel. -/
def webhookRequest (settings : Settings) (channelId : Int) (token : String) : Request :=
  { method := "setWebhook"
    token
    parameters :=
      [("url", .str (settings.webhookUrl ++ settings.webhookPath ++ "/" ++ integerText channelId)),
        ("allowed_updates", allowedUpdates)]
        ++ Service.optional "secret_token" (.str settings.webhookSecret) }

/-- Asks for the updates of each channel. -/
def subscribe (settings : Settings) : List (Int × String) → Work Unit
  | [] => return ()
  | (channelId, token) :: rest => do
    passingRefusal (request (webhookRequest settings channelId token))
    subscribe settings rest

/-- Starts the desk. -/
def start (settings : Settings) : Work Unit := do
  prepare
  begin
  subscribe settings (← bots)

/-- Asks for no more updates. -/
def unsubscribe : List (Int × String) → Work Unit
  | [] => return ()
  | (_, token) :: rest => do
    passingRefusal (request { method := "deleteWebhook", token })
    unsubscribe rest

/-- Lets the desk rest, if it runs. -/
def rest : Work Unit := do
  if ← isRunning then modifyRuntime fun r => { r with running := false, bots := [] }

/-- Stops the desk (`stop`). -/
def stop : Work Unit := do
  unsubscribe (← bots)
  Office.rest

/-- The seconds since the desk was started (`uptime_seconds`). -/
def uptime : Work Int := do
  let now ← now
  return match (← get).runtime.bind Runtime.startedAt with
    | some t => (now.since t).tdiv Moment.second
    | none => 0

/-! ## Lemmas -/

theorem run_requireSchema (s : Store) :
    requireSchema.run s =
      if (Table.required.filter s.absent.contains).isEmpty then .ok ((), s)
      else .error
        (.schemaIncomplete ((Table.required.filter s.absent.contains).map Table.name)) := by
  simp only [requireSchema, StateT.run_bind, StateT.run_get]
  simp only [bind, Except.bind, pure, Except.pure]
  cases Table.required.filter s.absent.contains <;> rfl

theorem runOn_begin_of_running {w : World} (h : w.runtime.any Runtime.running = true) :
    begin.runOn w = (.ok (), w) := by
  have hr : isRunning.runOn w = (.ok true, w) := by
    rw [← h]
    rfl
  unfold begin
  rw [runOn_bind, hr]
  rfl

end Office

end Deskflow
