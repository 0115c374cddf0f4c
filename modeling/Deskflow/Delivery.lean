import Deskflow.Callback
import Deskflow.Desk.Row
import Deskflow.Desk.Store

/-!
# Deliveries

What is sent to a client, and what comes of it. A delivery that goes through leaves a message with
the messaging service, whose id may be missing; one that does not is either reported as failed or
breaks down with a fault.

`Rehearsal` answers deliveries without a messaging service, by a script of outcomes that runs out
into success.

Models what a `MessagingGateway` is asked for. Out of scope: what a client gets to see.

* `Rehearsal.answer_ofEmpty`: without a script every delivery goes through, under the next id.
-/

namespace Deskflow

/-- What a delivery carries. -/
inductive Content where
  | text (text : String)
  | media (kind : MediaKind) (ref caption : String)
deriving DecidableEq, Repr

/-- Something to be sent to a chat on a channel. -/
structure Delivery where
  channel : Channel
  chat : Int
  content : Content
  keyboard : List Callback.Key := []
deriving DecidableEq, Repr

/-- What is known of a message that was sent. -/
structure Sent where
  messageId : Option Int
deriving DecidableEq, Repr

/-- What came of a delivery: a message that was sent, a failure, or a fault. -/
abbrev Answer := Except Fault (Option Sent)

/-- The outcome of a delivery in a rehearsal. -/
inductive Outcome where
  /-- The message is sent under the next id. -/
  | sent
  | failed
  | broken (message : String)
  | sentAs (messageId : Option Int)
  /-- A row is deleted meanwhile, and the message is sent under the next id. -/
  | sentAfterDeleting (table : Table) (id : Int)
deriving DecidableEq, Repr

/-- Answers to deliveries by a script. -/
structure Rehearsal where
  script : List Outcome := []
  nextId : Int := 1001
deriving DecidableEq, Repr

namespace Rehearsal

/-- The answer of an outcome, and what follows. -/
def play (r : Rehearsal) (s : Store) : Outcome → Answer × Rehearsal × Store
  | .sent => (.ok (some ⟨some r.nextId⟩), { r with nextId := r.nextId + 1 }, s)
  | .failed => (.ok none, r, s)
  | .broken message => (.error (.delivery message), r, s)
  | .sentAs messageId => (.ok (some ⟨messageId⟩), r, s)
  | .sentAfterDeleting table id =>
    (.ok (some ⟨some r.nextId⟩), { r with nextId := r.nextId + 1 }, s.deleteRow id table)

/-- The answer to the next delivery, and what follows. -/
def answer (r : Rehearsal) (s : Store) : Answer × Rehearsal × Store :=
  match r.script with
  | [] => r.play s .sent
  | outcome :: rest => { r with script := rest }.play s outcome

/-! ## Lemmas -/

theorem answer_ofEmpty (n : Int) (s : Store) :
    (⟨[], n⟩ : Rehearsal).answer s = (.ok (some ⟨some n⟩), ⟨[], n + 1⟩, s) := rfl

end Rehearsal

end Deskflow
