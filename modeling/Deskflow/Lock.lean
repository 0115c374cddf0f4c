/-!
# Conversation locks

Who may work on a conversation, and who waits for it: what `lock_for` keeps. A task that asks for a
key finds the lock that is kept for it, or makes one; it is counted, gets in first come, first
served, and once it leaves it is counted no longer. With the last one that is counted for a key its
lock is dropped, so that the next task makes another one.

A task stays with the lock that it found, whatever is kept for its key later on. So locks have
numbers here, in the order in which they were made, dropped ones included, and it takes a proof that
nobody waits at a lock that was dropped. A lock itself is a mutex that is safe to cancel, and first
come, first served: when it becomes free, the first that waits has it. A task that is told to leave
before it got in leaves as soon as it is in.

Out of scope: how tasks are scheduled. A request is served until no task can move.

* `lookup_bind_self`, `lookup_bind_ne`: a bound key is found again, and no other key notices.
* `made_setLock_self`, `made_setLock_ne`: the same of locks by their numbers.
-/

namespace Deskflow

/-- A lock: the task inside, and those that wait, in order of arrival. -/
structure Lock where
  inside : Option String := none
  waiting : List String := []
deriving DecidableEq, Repr, Inhabited

namespace Lock

/-- How a task leaves. -/
inductive Ending where
  | done | failed | cancelled
deriving DecidableEq, Repr

/-- A task with the key that it asked for and the number of the lock that it is at: whether it is
inside, and how it is to leave, once told. -/
structure Task where
  name : String
  key : Int
  lock : Nat
  inside : Bool := false
  told : Option Ending := none
deriving DecidableEq, Repr

/-- Something that a task did. -/
inductive Notice where
  | entered (task : String)
  | left (task : String) (ending : Ending)
deriving DecidableEq, Repr

/-- The locks that were made, by number; which one is kept for a key, and the counts by key; and the
tasks, in order of arrival. -/
structure Table where
  made : List Lock := []
  locks : List (Int × Nat) := []
  holders : List (Int × Nat) := []
  tasks : List Task := []
deriving DecidableEq, Repr

/-- A table of values with a key bound to a new value. -/
def bind {α : Type} (entries : List (Int × α)) (key : Int) (value : α) : List (Int × α) :=
  entries.filter (fun e => e.1 != key) ++ [(key, value)]

/-- A table of values without a key. -/
def unbind {α : Type} (entries : List (Int × α)) (key : Int) : List (Int × α) :=
  entries.filter fun e => e.1 != key

namespace Table

/-- The task of a name. -/
def find? (t : Table) (name : String) : Option Task := t.tasks.find? fun k => k.name == name

/-- The table with the task of a name changed. -/
def modifyTask (t : Table) (name : String) (f : Task → Task) : Table :=
  { t with tasks := t.tasks.map fun k => if k.name == name then f k else k }

/-- The lock of a number. -/
def lockAt (t : Table) (n : Nat) : Lock := t.made[n]?.getD {}

/-- The table with the lock of a number changed. -/
def setLock (t : Table) (n : Nat) (lock : Lock) : Table := { t with made := t.made.set n lock }

/-- The number of the lock of a key, and the table that has it: one is made if none is kept. -/
def lockFor (t : Table) (key : Int) : Nat × Table :=
  match t.locks.lookup key with
  | some n => (n, t)
  | none =>
    (t.made.length,
      { t with made := t.made ++ [{}], locks := bind t.locks key t.made.length })

/-- The table with one more task, which is counted for its key. -/
def join (t : Table) (k : Task) : Table :=
  { t with
    holders := bind t.holders k.key ((t.holders.lookup k.key).getD 0 + 1)
    tasks := t.tasks ++ [k] }

/-- The table without the task of a name, which no longer counts for its key. The lock of a key for
which nobody is counted any more is dropped. -/
def forget (t : Table) (name : String) (key : Int) : Table :=
  let t := { t with tasks := t.tasks.filter fun k => k.name != name }
  let count := ((t.holders.lookup key).getD 0) - 1
  if count = 0 then { t with holders := unbind t.holders key, locks := unbind t.locks key }
  else { t with holders := bind t.holders key count }

/-- The first that waits at a free lock has it. -/
def letIn (t : Table) (n : Nat) (name : String) (rest : List String) : Table :=
  (t.setLock n ⟨some name, rest⟩).modifyTask name fun k => { k with inside := true }

/-- Gives a free lock, which is that of a key, to the first of those that wait at it, and on to the
next ones as long as those that get in have been told to leave. -/
def handOver (key : Int) (n : Nat) : List String → Table → Table × List Notice
  | [], t => (t.setLock n {}, [])
  | name :: rest, t =>
    let t := t.letIn n name rest
    match (t.find? name).bind Task.told with
    | none => (t, [.entered name])
    | some ending =>
      let (t, notices) := handOver key n rest (t.forget name key)
      (t, .entered name :: .left name ending :: notices)

/-- Takes the lock of a key for a new task, which waits if the lock is taken. A name that is in use
names no new task. -/
def enter (t : Table) (name : String) (key : Int) : Table × List Notice :=
  if (t.find? name).isSome then (t, [])
  else
    let (n, t) := t.lockFor key
    let lock := t.lockAt n
    match lock.inside with
    | none =>
      ((t.setLock n { lock with inside := some name }).join ⟨name, key, n, true, none⟩,
        [.entered name])
    | some _ =>
      ((t.setLock n { lock with waiting := lock.waiting ++ [name] }).join
        ⟨name, key, n, false, none⟩, [])

/-- Lets a task that is inside leave, and the next one in that waits at its lock. -/
def leave (t : Table) (task : Task) (ending : Ending) : Table × List Notice :=
  let waiting := (t.lockAt task.lock).waiting
  let (t, notices) := handOver task.key task.lock waiting (t.forget task.name task.key)
  (t, .left task.name ending :: notices)

/-- Tells a task to leave: at once if it is inside, and else as soon as it is in, in the way it was
told last. -/
def tell (t : Table) (name : String) (ending : Ending) : Table × List Notice :=
  match t.find? name with
  | none => (t, [])
  | some task =>
    if task.inside then t.leave task ending
    else (t.modifyTask name fun k => { k with told := some ending }, [])

/-- The table without a task that waits: neither at its lock nor counted for its key. -/
def giveUp (t : Table) (task : Task) : Table :=
  let lock := t.lockAt task.lock
  (t.setLock task.lock { lock with waiting := lock.waiting.filter (· != task.name) }).forget
    task.name task.key

/-- Cancels a task: one that is inside leaves, and one that waits no longer does. -/
def cancel (t : Table) (name : String) : Table × List Notice :=
  match t.find? name with
  | none => (t, [])
  | some task =>
    if task.inside then t.leave task .cancelled
    else (t.giveUp task, [.left name .cancelled])

end Table

/-! ## Lemmas -/

@[simp] theorem lookup_bind_self {α : Type} (entries : List (Int × α)) (key : Int) (value : α) :
    (bind entries key value).lookup key = some value := by
  have : (entries.filter fun e => e.1 != key).lookup key = none := by
    rw [List.lookup_eq_none_iff]
    intro e he
    have := (List.mem_filter.1 he).2
    simpa [bne, beq_eq_false_iff_ne, ne_comm] using this
  simp [bind, List.lookup_append, this]

theorem lookup_unbind_ne {α : Type} (entries : List (Int × α)) {key other : Int}
    (h : other ≠ key) : (unbind entries key).lookup other = entries.lookup other := by
  induction entries with
  | nil => rfl
  | cons e es ih =>
    obtain ⟨k, v⟩ := e
    by_cases hk : k = key
    · have hne : (other == k) = false := by simpa [hk] using h
      simpa [unbind, hk, List.lookup_cons, hk ▸ hne] using ih
    · simpa [unbind, hk, List.lookup_cons] using by rw [← ih]; rfl

theorem lookup_bind_ne {α : Type} (entries : List (Int × α)) {key other : Int} (value : α)
    (h : other ≠ key) : (bind entries key value).lookup other = entries.lookup other := by
  have hne : (other == key) = false := by simpa using h
  have := lookup_unbind_ne entries h
  rw [unbind] at this
  simp [bind, List.lookup_append, this, List.lookup_cons, hne]

namespace Table

variable {t : Table} {n m : Nat} {lock : Lock}

theorem made_setLock_self (h : n < t.made.length) : (t.setLock n lock).made[n]? = some lock :=
  List.getElem?_set_self h

theorem made_setLock_ne (h : m ≠ n) : (t.setLock n lock).made[m]? = t.made[m]? :=
  List.getElem?_set_ne h.symm

end Table

end Lock

end Deskflow
