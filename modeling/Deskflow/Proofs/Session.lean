import Deskflow.Proofs.Preservation

/-!
# Sessions

A transaction, statement by statement. A session works on tables of its own: what it writes is seen
by its later statements at once, and by everyone else once it is committed. Where a statement
faults, what was written by then is rolled back.

`Transaction` is a session seen from outside, where a fault carries no tables with it. What that
leaves out, what had been written when the fault came, is what `Session` adds:
* `Follows`: a block of statements does what a transaction does, and commits nothing by itself.
* `Follows.bind`, `follows_ask`, `follows_write`, `follows_add`, `follows_edit`: statements follow
  what they are named after, and blocks follow where their parts do.
* `Follows.run_transaction`: closed in one session, such a block is the transaction.
-/

namespace Deskflow

open Transaction

/-- The tables as they were committed last, and as an open session sees them. -/
structure Connection where
  committed : Store
  seen : Store
deriving DecidableEq, Repr

/-- No session is open, or none that has written anything. -/
def Connection.atRest (s : Store) : Connection := ⟨s, s⟩

/-- A block of statements, carried out in a session. A fault leaves the connection as it found it,
with what had been written by then. -/
abbrev Session := ExceptT Fault (StateM Connection)

namespace Session

/-- What a block does to a connection. -/
def runOn {α : Type} (x : Session α) (d : Connection) : Except Fault α × Connection :=
  Id.run ((ExceptT.run x).run d)

/-- Asks something of the tables that the session sees. Nothing is written. -/
def ask {α : Type} (t : Transaction α) : Session α :=
  ExceptT.mk fun d => ((t.run d.seen).map Prod.fst, d)

/-- Writes to the tables that the session sees. -/
def write (f : Store → Store) : Session Unit := modify fun d => { d with seen := f d.seen }

/-- Adds a row under the next id of its table, and returns the row. -/
def add {ρ : Type} [Row ρ] (row : ρ) : Session ρ := do
  ask (need (Row.table ρ))
  let s ← ask get
  let row := Row.withId row (s.nextId ρ)
  write fun _ => s.insert row
  return row

/-- Changes the row of an id. -/
def edit (ρ : Type) [Row ρ] (id : Int) (f : ρ → ρ) : Session Unit := write fun s => s.modify ρ id f

/-- Keeps what was written. -/
def commit : Session Unit := modify fun d => .atRest d.seen

/-- Gives up what was written. -/
def rollback : Session Unit := modify fun d => .atRest d.committed

/-- Carries out a block as one transaction: committed at its end, and rolled back on a fault, which
goes on. -/
def transaction {α : Type} (block : Session α) : Session α :=
  tryCatch (do let a ← block; commit; return a) fun fault => do rollback; throw fault

/-! ## Runs -/

section

variable {α β : Type}

theorem runOn_ask (t : Transaction α) (d : Connection) :
    (ask t).runOn d = ((t.run d.seen).map Prod.fst, d) := rfl

theorem runOn_bind (x : Session α) (f : α → Session β) (d : Connection) :
    (x >>= f).runOn d =
      match x.runOn d with
      | (.ok a, d) => (f a).runOn d
      | (.error fault, d) => (.error fault, d) := by
  simp only [runOn, ExceptT.run_bind, StateT.run_bind, Id.run_bind]
  generalize (ExceptT.run x).run d = r
  obtain ⟨a, d'⟩ := Id.run r
  cases a <;> rfl

theorem runOn_bind_of_ok {x : Session α} {f : α → Session β} {a : α} {d e : Connection}
    (h : x.runOn d = (.ok a, e)) : (x >>= f).runOn d = (f a).runOn e := by
  rw [runOn_bind, h]

theorem runOn_bind_of_error {x : Session α} {f : α → Session β} {fault : Fault} {d e : Connection}
    (h : x.runOn d = (.error fault, e)) : (x >>= f).runOn d = (.error fault, e) := by
  rw [runOn_bind, h]

theorem runOn_tryCatch (x : Session α) (handle : Fault → Session α) (d : Connection) :
    (tryCatch x handle).runOn d =
      match x.runOn d with
      | (.ok a, d) => (.ok a, d)
      | (.error fault, d) => (handle fault).runOn d := by
  unfold runOn ExceptT.run StateT.run Id.run
  simp only [tryCatch, tryCatchThe, MonadExceptOf.tryCatch, ExceptT.tryCatch, ExceptT.mk, bind,
    StateT.bind]
  cases x d with
  | mk result d' => cases result <;> rfl

/-- A session ends at rest: on what it saw, or on what there was before it. -/
theorem runOn_transaction (x : Session α) (d : Connection) :
    (transaction x).runOn d =
      match x.runOn d with
      | (.ok a, d) => (.ok a, .atRest d.seen)
      | (.error fault, d) => (.error fault, .atRest d.committed) := by
  unfold transaction
  rw [runOn_tryCatch, runOn_bind]
  rcases x.runOn d with ⟨fault | a, d'⟩ <;> rfl

end

/-! ## Following a transaction -/

section

variable {α β : Type}

/-- A block of statements does what a transaction does. Nothing is committed meanwhile; on a fault
the session may see whatever was written by then. -/
def Follows (x : Session α) (t : Transaction α) : Prop :=
  ∀ d, match t.run d.seen with
    | .ok (a, s) => x.runOn d = (.ok a, { d with seen := s })
    | .error fault => ∃ midway, x.runOn d = (.error fault, { d with seen := midway })

theorem follows_pure (a : α) : Follows (pure a) (pure a) := fun _ => rfl

theorem follows_throw (fault : Fault) : Follows (throw fault : Session α) (throw fault) :=
  fun d => ⟨d.seen, rfl⟩

theorem follows_lift (e : Except Fault α) : Follows (liftM e) (liftM e) := by
  cases e with
  | error fault => exact follows_throw fault
  | ok a => exact follows_pure a

theorem follows_ask {t : Transaction α} (ht : Reads t) : Follows (ask t) t := fun d => by
  rw [runOn_ask]
  cases hr : t.run d.seen with
  | error fault => exact ⟨d.seen, rfl⟩
  | ok p =>
    obtain ⟨a, s⟩ := p
    obtain rfl := ht _ _ _ hr
    rfl

theorem follows_write (f : Store → Store) : Follows (write f) (modify f) := fun _ => rfl

theorem follows_set (s : Store) : Follows (write fun _ => s) (set s) := fun _ => rfl

theorem Follows.bind {x : Session α} {t : Transaction α} {g : α → Session β}
    {f : α → Transaction β} (hx : Follows x t) (hg : ∀ a, Follows (g a) (f a)) :
    Follows (x >>= g) (t >>= f) := fun d => by
  have hd := hx d
  rw [StateT.run_bind, runOn_bind]
  cases hr : t.run d.seen with
  | error fault =>
    rw [hr] at hd
    obtain ⟨midway, hd⟩ := hd
    rw [hd]
    exact ⟨midway, rfl⟩
  | ok p =>
    rw [hr] at hd
    rw [hd]
    exact hg p.1 { d with seen := p.2 }

theorem follows_add {ρ : Type} [Row ρ] (row : ρ) : Follows (add row) (Transaction.add row) :=
  .bind (follows_ask (reads_need _)) fun _ => .bind (follows_ask Reads.get) fun _ =>
    .bind (follows_set _) fun _ => follows_pure _

theorem follows_edit (ρ : Type) [Row ρ] (id : Int) (f : ρ → ρ) :
    Follows (edit ρ id f) (Transaction.edit ρ id f) := follows_write _

variable {x : Session α} {t : Transaction α}

/-- Where the transaction goes through, so does the block. -/
theorem Follows.runOn_of_ok (h : Follows x t) {a : α} {d : Connection} {s : Store}
    (hr : t.run d.seen = .ok (a, s)) : x.runOn d = (.ok a, { d with seen := s }) := by
  have hd := h d
  rwa [hr] at hd

/-- Nothing is committed while a block is carried out. -/
theorem Follows.committed (h : Follows x t) (d : Connection) :
    (x.runOn d).2.committed = d.committed := by
  have hd := h d
  cases hr : t.run d.seen with
  | error fault =>
    rw [hr] at hd
    obtain ⟨_, hd⟩ := hd
    rw [hd]
  | ok p => rw [h.runOn_of_ok hr]

/-- Closed in one session, a block is the transaction that it follows. -/
theorem Follows.run_transaction (h : Follows x t) (s : Store) :
    (transaction x).runOn (.atRest s) =
      match t.run s with
      | .ok (a, s') => (.ok a, .atRest s')
      | .error fault => (.error fault, .atRest s) := by
  have hd := h (.atRest s)
  rw [show (Connection.atRest s).seen = s from rfl] at hd
  rw [runOn_transaction]
  cases hr : t.run s with
  | error fault =>
    rw [hr] at hd
    obtain ⟨_, hd⟩ := hd
    rw [hd]
    rfl
  | ok p =>
    rw [hr] at hd
    rw [hd]

end

end Session

end Deskflow
