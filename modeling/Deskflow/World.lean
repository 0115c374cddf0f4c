import Deskflow.Condition
import Deskflow.Desk.Transaction
import Deskflow.Duration
import Deskflow.Service
import Deskflow.Stopwatch
import Deskflow.Trigger

/-!
# The world of an operation

What an operation sees and changes: the store, the clock, what is remembered between events, and
where deliveries go. A fault stops an operation, and what it had done by then stays; only a
transaction that fails leaves no trace.

Operations follow one another. What others do at the desk while a run is carried out is out of
scope, but for rows that a script deletes during a delivery; who has to wait for whom is in `Lock`.

* `run_transact`: what a transaction does to the world.
* `guard_guarded`: a guarded operation leaves the guard as it found it, faults or not.
* `run_attempt`: an operation that is attempted cannot fail.
-/

namespace Deskflow

/-- What tells one firing of a tag automation from another. -/
structure FiringKey where
  automationId : Int
  conversationId : Int
  kind : EventKind
  tagIds : List Int
deriving DecidableEq, Repr

/-- What is remembered between events: when tag automations fired and when clicks were seen, by the
stopwatch, and whether an automation runs that a tag event set off. -/
structure Memory where
  firings : List (FiringKey × Binary64) := []
  clicks : List (String × Binary64) := []
  tagGuard : Bool := false
deriving DecidableEq, Repr

/-- The desk in operation: the channels that have a bot, by id with its token, whether it runs, and
since when. It is ready once its services are built. -/
structure Runtime where
  bots : List (Int × String) := []
  running : Bool := false
  startedAt : Option Moment := none
  ready : Bool := false
deriving DecidableEq, Repr

/-- A run that stopped before its end: at a step of the top level, because a condition did not hold
in view of what was known then. -/
structure Pause where
  automationId : Int
  runId : Int
  conversationId : Int
  stepId : String
  condition : Condition
  facts : Facts
deriving DecidableEq, Repr

/-- How steps end: to go on, or to wait for a condition. -/
inductive Engine.Progress where
  | goesOn | suspended
deriving DecidableEq, Repr

/-- How the steps of a run ended, or the fault that stopped them. -/
structure Conclusion where
  runId : Int
  result : Except Fault Engine.Progress

/-- Everything that an operation sees and changes. Deliveries are rehearsed unless the world is
`live`. -/
structure World where
  store : Store := {}
  clock : Moment := Moment.start
  stopwatch : Stopwatch := .fromStart
  memory : Memory := {}
  rehearsal : Rehearsal := {}
  service : Service := {}
  live : Bool := false
  runtime : Option Runtime := none
  /-- The deliveries made, with their answers. -/
  deliveries : List (Delivery × Answer) := []
  /-- The requests made to the messaging service. -/
  requests : List Request := []
  /-- The waits, in seconds. -/
  waits : List Int := []
  /-- The runs that stopped at a condition, as they are logged. -/
  pauses : List Pause := []
  /-- How the steps of runs ended, one after another. -/
  conclusions : List Conclusion := []

/-- What the stopwatch reads. -/
def World.reading (w : World) : Binary64 := w.stopwatch.reading w.clock

/-- An operation on the world that can be stopped by a fault. -/
abbrev Work := ExceptT Fault (StateM World)

namespace Work

/-- The operation that a function on worlds is. -/
def ofFunction {α : Type} (f : World → Except Fault α × World) : Work α :=
  ExceptT.mk (fun w => f w)

/-- What an operation does to a world. -/
def runOn {α : Type} (x : Work α) (w : World) : Except Fault α × World :=
  Id.run ((ExceptT.run x).run w)

/-- The time. -/
def now : Work Moment := do return (← get).clock

/-- What the stopwatch reads. -/
def reading : Work Binary64 := do return (← get).reading

/-- Carries out a transaction, which is told the time. -/
def transact {α : Type} (t : Moment → Transaction α) : Work α :=
  ofFunction fun w =>
    match (t w.clock).run w.store with
    | .ok (a, store) => (.ok a, { w with store })
    | .error fault => (.error fault, w)

/-- Carries out a transaction that does not ask for the time. -/
def query {α : Type} (t : Transaction α) : Work α := transact fun _ => t

/-- Carries out an operation and tells the fault that stopped it, if one did. -/
def attempt {α : Type} (x : Work α) : Work (Except Fault α) :=
  ofFunction fun w =>
    let (r, w) := x.runOn w
    (.ok r, w)

/-- Carries out an operation as the work of an automation that a tag event set off. -/
def guarded {α : Type} (x : Work α) : Work α :=
  ofFunction fun w =>
    let (r, after) := x.runOn { w with memory := { w.memory with tagGuard := true } }
    (r, { after with memory := { after.memory with tagGuard := w.memory.tagGuard } })

/-- Waits for a number of seconds. -/
def wait (seconds : Int) : Work Unit :=
  modify fun w =>
    { w with clock := w.clock.advance (seconds * Moment.second), waits := w.waits ++ [seconds] }

/-- Puts on record that a run stopped at a condition. -/
def logPause (p : Pause) : Work Unit := modify fun w => { w with pauses := w.pauses ++ [p] }

/-- Puts on record how the steps of a run ended. -/
def logConclusion (x : Conclusion) : Work Unit :=
  modify fun w => { w with conclusions := w.conclusions ++ [x] }

/-- Lets a number of seconds pass, and tells the time then. -/
def pass (seconds : Value) : Work Moment := do
  let micros ← (Duration.read seconds : Work Int)
  let later ← ((← get).clock.after micros : Work Moment)
  modify fun w => { w with clock := later }
  return later

/-- Makes a request to the messaging service; the fault that a failing method ends in. -/
def request (r : Request) : Work Unit := do
  modify fun w => { w with requests := w.requests ++ [r] }
  match (← get).service.failing.lookup r.method with
  | some trouble => throw trouble.fault
  | none => pure ()

/-- Makes a request that sends a message; tells the message's id, if it has one. -/
def sendRequest (r : Request) : Work Sent := do
  request r
  let id := (← get).service.nextId
  modify fun w => { w with service := { w.service with nextId := id + 1 } }
  return ⟨if id = 0 then none else some id⟩

/-- The answer to an operation that sends a message, where a refusal is reported as a failure. -/
def reported (x : Work Sent) : Work (Option Sent) := do
  match ← attempt x with
  | .ok sent => return some sent
  | .error (.refused _) => return none
  | .error fault => throw fault

/-- Delivers through the messaging service; a channel without a bot delivers nothing. -/
def deliverLive (settings : Settings) (d : Delivery) : Work (Option Sent) := do
  let some token ← Service.tokenOf? d.channel | return none
  let some r := (← get).service.request? settings.publicPrefix token d | return none
  reported (sendRequest r)

/-- Delivers by the script of the rehearsal. -/
def rehearse : Work (Option Sent) :=
  ofFunction fun w =>
    let (answer, rehearsal, store) := w.rehearsal.answer w.store
    (answer, { w with rehearsal, store })

/-- Sends something to a client. -/
def deliver (settings : Settings) (d : Delivery) : Work (Option Sent) :=
  ofFunction fun w =>
    let (answer, w) := (if w.live then deliverLive settings d else rehearse).runOn w
    (answer, { w with deliveries := w.deliveries ++ [(d, answer)] })

/-! ## Lemmas -/

@[simp] theorem runOn_ofFunction {α : Type} (f : World → Except Fault α × World) (w : World) :
    (ofFunction f).runOn w = f w := rfl

@[simp] theorem runOn_pure {α : Type} (a : α) (w : World) :
    (pure a : Work α).runOn w = (.ok a, w) := rfl

@[simp] theorem runOn_throw {α : Type} (f : Fault) (w : World) :
    (throw f : Work α).runOn w = (.error f, w) := rfl

theorem runOn_bind {α β : Type} (x : Work α) (f : α → Work β) (w : World) :
    (x >>= f).runOn w =
      match x.runOn w with
      | (.ok a, w) => (f a).runOn w
      | (.error fault, w) => (.error fault, w) := by
  simp only [runOn, ExceptT.run_bind, StateT.run_bind, Id.run_bind]
  generalize (ExceptT.run x).run w = r
  obtain ⟨a, w'⟩ := Id.run r
  cases a <;> rfl

theorem run_transact {α : Type} (t : Moment → Transaction α) (w : World) :
    (transact t).runOn w =
      match (t w.clock).run w.store with
      | .ok (a, store) => (.ok a, { w with store })
      | .error fault => (.error fault, w) := rfl

theorem run_attempt {α : Type} (x : Work α) (w : World) :
    (attempt x).runOn w = (.ok (x.runOn w).1, (x.runOn w).2) := rfl

@[simp] theorem guard_guarded {α : Type} (x : Work α) (w : World) :
    ((guarded x).runOn w).2.memory.tagGuard = w.memory.tagGuard := rfl

theorem runOn_wait (seconds : Int) (w : World) :
    (wait seconds).runOn w =
      (.ok (), { w with
        clock := w.clock.advance (seconds * Moment.second), waits := w.waits ++ [seconds] }) := rfl

end Work

end Deskflow
