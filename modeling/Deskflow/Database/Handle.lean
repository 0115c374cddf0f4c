import Deskflow.Database.Address
import Deskflow.Desk.Transaction

/-!
# Database handles

What a handle finds that is pointed at an address: by the scheme, a database in a file of its own,
which is there and has no tables yet, or one behind a connection that nothing answers.

Models `connect`, `health_check` and queries of a handle. Out of scope: a server that answers.

* `query_bare`: a query of a database without tables is a query of the store without tables.
-/

namespace Deskflow

namespace Database

/-- What is found at an address. -/
inductive Found where
  | bare
  | silent
deriving DecidableEq, Repr

/-- The scheme of databases in files. -/
def fileScheme : String := "sqlite+aiosqlite"

/-- The schemes of databases in files whose drivers cannot be waited for. -/
def blockingSchemes : List String := ["sqlite", "sqlite+pysqlite"]

/-- The scheme of databases behind connections. -/
def serverScheme : String := "postgresql+asyncpg"

/-- Whether an address names more than a file. -/
def namesServer (a : Address) : Bool :=
  a.user.getD "" != "" || a.host.getD "" != "" || a.password.getD "" != ""
    || a.portNumber.getD 0 != 0

/-- What is found at the address that a text stands for. -/
def find (s : String) : Except Fault Found := do
  let a ← connect s
  if a.scheme = fileScheme then
    if namesServer a then throw .addressParts else return .bare
  else if blockingSchemes.contains a.scheme then throw .blockingDriver
  else if a.scheme = serverScheme then return .silent
  else throw .unknownScheme

/-- Whether a database answers at an address (`health_check`). -/
def isHealthy (s : String) : Bool :=
  match find s with
  | .ok .bare => true
  | _ => false

/-- The store of a database without tables. -/
def bareStore : Store := { absent := Table.all }

/-- The answer to a query of what is found. -/
def Found.query {α : Type} (t : Transaction α) : Found → Except Fault α
  | .bare => do return (← t.run bareStore).1
  | .silent => .error .noAnswer

/-! ## Lemmas -/

theorem query_bare {α : Type} (t : Transaction α) {a : α} {s : Store}
    (h : t.run bareStore = .ok (a, s)) : Found.bare.query t = .ok a := by
  simp [Found.query, h, bind, Except.bind, pure, Except.pure]

end Database

end Deskflow
