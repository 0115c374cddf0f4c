import Deskflow.Desk.Row
import Deskflow.Sort

/-!
# The store

The tables of the desk. Each holds its rows by ascending id; a new row gets the id after the
largest one, so the id of a last row that was deleted is given again.

`Row` says where the rows of a type are kept, and its laws in `LawfulRow` say that writing one
table leaves the others alone. The main statements follow from them for every table at once:
* `find?_insert_self`, `find?_insert_ne`: what an insertion changes.
* `id_lt_nextId`, `rows_insert_nextId`: a new id is past all others, so a new row comes last.
* `find?_modify_self`, `find?_modify_ne`: what a change of one row changes.
-/

namespace Deskflow

/-- The tables. -/
inductive Table where
  | channels | operators | tags | clients | clientTags | conversations | messages
  | automations | automationSteps | automationRuns
deriving DecidableEq, Repr

namespace Table

/-- The name of a table. -/
def name : Table → String
  | channels => "channels"
  | operators => "operators"
  | tags => "tags"
  | clients => "clients"
  | clientTags => "client_tags"
  | conversations => "conversations"
  | messages => "messages"
  | automations => "automations"
  | automationSteps => "automation_steps"
  | automationRuns => "automation_runs"

/-- Every table. -/
def all : List Table :=
  [channels, operators, tags, clients, clientTags, conversations, messages, automations,
    automationSteps, automationRuns]

/-- The tables the desk cannot start without, in the order in which missing ones are named. -/
def required : List Table :=
  [channels, clients, tags, clientTags, conversations, messages, automations, automationSteps,
    automationRuns]

/-- The tables whose sizes are reported. -/
def counted : List Table := [conversations, messages, automations, automationSteps, automationRuns]

/-- The table of a name. -/
def ofName? (s : String) : Option Table := all.find? fun t => t.name == s

end Table

/-- The rows of every table, and the tables that are not there. -/
structure Store where
  channels : List Channel := []
  operators : List Operator := []
  tags : List Tag := []
  clients : List Client := []
  memberships : List Membership := []
  conversations : List Conversation := []
  messages : List Message := []
  automations : List Automation := []
  steps : List StepRow := []
  runs : List Run := []
  absent : List Table := []
deriving DecidableEq, Repr, Inhabited

/-- A type of rows that are kept by id in a table. -/
class Row (ρ : Type) where
  id : ρ → Int
  withId : ρ → Int → ρ
  table : Table
  rows : Store → List ρ
  setRows : Store → List ρ → Store

instance : Row Channel where
  id := Channel.id
  withId r id := { r with id }
  table := .channels
  rows := Store.channels
  setRows s rows := { s with channels := rows }

instance : Row Operator where
  id := Operator.id
  withId r id := { r with id }
  table := .operators
  rows := Store.operators
  setRows s rows := { s with operators := rows }

instance : Row Tag where
  id := Tag.id
  withId r id := { r with id }
  table := .tags
  rows := Store.tags
  setRows s rows := { s with tags := rows }

instance : Row Client where
  id := Client.id
  withId r id := { r with id }
  table := .clients
  rows := Store.clients
  setRows s rows := { s with clients := rows }

instance : Row Conversation where
  id := Conversation.id
  withId r id := { r with id }
  table := .conversations
  rows := Store.conversations
  setRows s rows := { s with conversations := rows }

instance : Row Message where
  id := Message.id
  withId r id := { r with id }
  table := .messages
  rows := Store.messages
  setRows s rows := { s with messages := rows }

instance : Row Automation where
  id := Automation.id
  withId r id := { r with id }
  table := .automations
  rows := Store.automations
  setRows s rows := { s with automations := rows }

instance : Row StepRow where
  id := StepRow.id
  withId r id := { r with id }
  table := .automationSteps
  rows := Store.steps
  setRows s rows := { s with steps := rows }

instance : Row Run where
  id := Run.id
  withId r id := { r with id }
  table := .automationRuns
  rows := Store.runs
  setRows s rows := { s with runs := rows }

namespace Store

variable {ρ : Type} [Row ρ]

/-- The row with an id. -/
def find? (s : Store) (ρ : Type) [Row ρ] (id : Int) : Option ρ :=
  (Row.rows s).find? fun r : ρ => Row.id r == id

/-- The id that a new row gets: 1, or the one after the largest. -/
def nextId (s : Store) (ρ : Type) [Row ρ] : Int :=
  match (Row.rows s : List ρ).map Row.id with
  | [] => 1
  | id :: ids => ids.foldl max id + 1

/-- A row put among rows by ascending id. -/
def place (row : ρ) : List ρ → List ρ
  | [] => [row]
  | r :: rs => if Row.id row < Row.id r then row :: r :: rs else r :: place row rs

/-- The store with a row added. -/
def insert (s : Store) (row : ρ) : Store := Row.setRows s (place row (Row.rows s))

/-- The store with the row of an id changed. -/
def modify (s : Store) (ρ : Type) [Row ρ] (id : Int) (f : ρ → ρ) : Store :=
  Row.setRows s ((Row.rows s).map fun r => if Row.id r == id then f r else r)

/-- The store without the row of an id. -/
def delete (s : Store) (ρ : Type) [Row ρ] (id : Int) : Store :=
  Row.setRows s ((Row.rows s : List ρ).filter fun r => Row.id r != id)

/-- The ids of the tags a client carries, in the order of the tags' ids. -/
def tagIdsOf (s : Store) (clientId : Int) : List Int :=
  sortBy (· ≤ ·) ((s.memberships.filter fun m => m.clientId == clientId).map Membership.tagId)

/-- The tags a client carries that exist, by ascending id. -/
def tagsOf (s : Store) (clientId : Int) : List Tag :=
  s.tags.filter fun t => s.memberships.contains ⟨clientId, t.id⟩

/-- The steps of an automation, by order and among equal ones by id. -/
def stepsOf (s : Store) (automationId : Int) : List StepRow :=
  sortBy (fun a b => a.order ≤ b.order) (s.steps.filter fun r => r.automationId == automationId)

/-- The number of rows of a table. -/
def count (s : Store) : Table → Nat
  | .channels => s.channels.length
  | .operators => s.operators.length
  | .tags => s.tags.length
  | .clients => s.clients.length
  | .clientTags => s.memberships.length
  | .conversations => s.conversations.length
  | .messages => s.messages.length
  | .automations => s.automations.length
  | .automationSteps => s.steps.length
  | .automationRuns => s.runs.length

/-- The store without a row of a table. The steps of an automation go with it; nothing else does. -/
def deleteRow (s : Store) (id : Int) : Table → Store
  | .channels => s.delete Channel id
  | .operators => s.delete Operator id
  | .tags => s.delete Tag id
  | .clients => s.delete Client id
  | .clientTags => s
  | .conversations => s.delete Conversation id
  | .messages => s.delete Message id
  | .automations =>
    let s := s.delete Automation id
    { s with steps := s.steps.filter fun r => r.automationId != id }
  | .automationSteps => s.delete StepRow id
  | .automationRuns => s.delete Run id

/-- The store without a table. -/
def drop (s : Store) (t : Table) : Store :=
  let s := { s with absent := if s.absent.contains t then s.absent else t :: s.absent }
  match t with
  | .channels => { s with channels := [] }
  | .operators => { s with operators := [] }
  | .tags => { s with tags := [] }
  | .clients => { s with clients := [] }
  | .clientTags => { s with memberships := [] }
  | .conversations => { s with conversations := [] }
  | .messages => { s with messages := [] }
  | .automations => { s with automations := [] }
  | .automationSteps => { s with steps := [] }
  | .automationRuns => { s with runs := [] }

end Store

/-! ## Lemmas -/

/-- The laws of a type of rows: a row keeps the id it is given, and what is written to a table is
what is read from it. -/
class LawfulRow (ρ : Type) [Row ρ] : Prop where
  id_withId (r : ρ) (id : Int) : Row.id (Row.withId r id) = id
  rows_setRows (s : Store) (rows : List ρ) : Row.rows (Row.setRows s rows) = rows
  setRows_absent (s : Store) (rows : List ρ) : (Row.setRows s rows).absent = s.absent

instance : LawfulRow Channel := ⟨fun _ _ => rfl, fun _ _ => rfl, fun _ _ => rfl⟩
instance : LawfulRow Operator := ⟨fun _ _ => rfl, fun _ _ => rfl, fun _ _ => rfl⟩
instance : LawfulRow Tag := ⟨fun _ _ => rfl, fun _ _ => rfl, fun _ _ => rfl⟩
instance : LawfulRow Client := ⟨fun _ _ => rfl, fun _ _ => rfl, fun _ _ => rfl⟩
instance : LawfulRow Conversation := ⟨fun _ _ => rfl, fun _ _ => rfl, fun _ _ => rfl⟩
instance : LawfulRow Message := ⟨fun _ _ => rfl, fun _ _ => rfl, fun _ _ => rfl⟩
instance : LawfulRow Automation := ⟨fun _ _ => rfl, fun _ _ => rfl, fun _ _ => rfl⟩
instance : LawfulRow StepRow := ⟨fun _ _ => rfl, fun _ _ => rfl, fun _ _ => rfl⟩
instance : LawfulRow Run := ⟨fun _ _ => rfl, fun _ _ => rfl, fun _ _ => rfl⟩

namespace Store

variable {ρ : Type} [Row ρ] [LawfulRow ρ]

omit [LawfulRow ρ] in
theorem find?_place_self (row : ρ) (rows : List ρ) (h : ∀ r ∈ rows, Row.id r ≠ Row.id row) :
    (place row rows).find? (fun r => Row.id r == Row.id row) = some row := by
  induction rows with
  | nil => simp [place]
  | cons r rs ih =>
    have hr : Row.id r ≠ Row.id row := h r (by simp)
    have ih := ih fun x hx => h x (by simp [hx])
    unfold place
    split
    · simp
    · simp [hr, ih]

omit [LawfulRow ρ] in
theorem find?_place_ne (row : ρ) (rows : List ρ) {id : Int} (h : Row.id row ≠ id) :
    (place row rows).find? (fun r => Row.id r == id) = rows.find? fun r => Row.id r == id := by
  induction rows with
  | nil => simp [place, h]
  | cons r rs ih =>
    unfold place
    split
    · simp [List.find?_cons, h]
    · simp [List.find?_cons, ih]

theorem find?_insert_ne (s : Store) (row : ρ) {id : Int} (h : Row.id row ≠ id) :
    (s.insert row).find? ρ id = s.find? ρ id := by
  simp only [find?, insert, LawfulRow.rows_setRows]
  exact find?_place_ne row _ h

theorem find?_insert_self (s : Store) (row : ρ) (h : s.find? ρ (Row.id row) = none) :
    (s.insert row).find? ρ (Row.id row) = some row := by
  simp only [find?, insert, LawfulRow.rows_setRows]
  refine find?_place_self row _ fun r hr => ?_
  have := List.find?_eq_none.1 h r hr
  simpa using this

omit [LawfulRow ρ] in
theorem le_foldl_max (ids : List Int) :
    ∀ n, n ≤ ids.foldl max n ∧ ∀ id ∈ ids, id ≤ ids.foldl max n := by
  induction ids with
  | nil => intro n; simp
  | cons a ids ih =>
    intro n
    obtain ⟨h₁, h₂⟩ := ih (max n a)
    refine ⟨Int.le_trans (Int.le_max_left n a) h₁, fun id hid => ?_⟩
    rcases List.mem_cons.mp hid with rfl | hid
    · exact Int.le_trans (Int.le_max_right n id) h₁
    · exact h₂ id hid

omit [LawfulRow ρ] in
/-- A new id is past the ids that are there. -/
theorem id_lt_nextId {s : Store} {r : ρ} (h : r ∈ Row.rows s) : Row.id r < s.nextId ρ := by
  have hr := List.mem_map_of_mem (f := Row.id) h
  unfold nextId
  revert hr
  generalize (Row.rows s : List ρ).map Row.id = ids
  cases ids with
  | nil => simp
  | cons id ids =>
    intro hr
    obtain ⟨h₁, h₂⟩ := le_foldl_max ids id
    rcases List.mem_cons.mp hr with hr | hr
    · simp only
      omega
    · have := h₂ _ hr
      simp only
      omega

omit [LawfulRow ρ] in
theorem find?_nextId (s : Store) : s.find? ρ (s.nextId ρ) = none := by
  refine List.find?_eq_none.mpr fun r hr => ?_
  have := id_lt_nextId hr
  simp only [beq_iff_eq]
  omega

omit [LawfulRow ρ] in
theorem place_of_lt (row : ρ) : ∀ rows : List ρ, (∀ r ∈ rows, Row.id r < Row.id row) →
    place row rows = rows ++ [row]
  | [], _ => rfl
  | r :: rs, h => by
    have hr := h r List.mem_cons_self
    rw [place, if_neg (by omega), place_of_lt row rs fun x hx => h x (List.mem_cons_of_mem r hx)]
    rfl

theorem rows_insert_nextId (s : Store) (row : ρ) :
    Row.rows (s.insert (Row.withId row (s.nextId ρ)))
      = Row.rows s ++ [Row.withId row (s.nextId ρ)] := by
  unfold insert
  rw [LawfulRow.rows_setRows]
  refine place_of_lt _ _ fun r hr => ?_
  rw [LawfulRow.id_withId]
  exact id_lt_nextId hr

omit [LawfulRow ρ] in
theorem find?_map_of_id (rows : List ρ) (g : ρ → ρ) (hg : ∀ r, Row.id (g r) = Row.id r) (id : Int) :
    (rows.map g).find? (fun r => Row.id r == id) = (rows.find? fun r => Row.id r == id).map g := by
  rw [List.find?_map]
  congr 2
  funext r
  simp [hg]

theorem find?_modify (s : Store) (id other : Int) (f : ρ → ρ) (hf : ∀ r, Row.id (f r) = Row.id r) :
    (s.modify ρ id f).find? ρ other
      = (s.find? ρ other).map fun r => if Row.id r == id then f r else r := by
  simp only [find?, modify, LawfulRow.rows_setRows]
  refine find?_map_of_id _ _ (fun r => ?_) other
  split
  · exact hf r
  · rfl

omit [LawfulRow ρ] in
theorem id_of_find? {s : Store} {id : Int} {r : ρ} (h : s.find? ρ id = some r) : Row.id r = id := by
  simpa using List.find?_some h

theorem find?_modify_self (s : Store) (id : Int) (f : ρ → ρ) (hf : ∀ r, Row.id (f r) = Row.id r) :
    (s.modify ρ id f).find? ρ id = (s.find? ρ id).map f := by
  rw [find?_modify s id id f hf]
  cases h : s.find? ρ id with
  | none => rfl
  | some r => simp [id_of_find? h]

theorem find?_modify_of_some {s : Store} {id : Int} {r : ρ} {f : ρ → ρ}
    (hf : ∀ r, Row.id (f r) = Row.id r) (h : s.find? ρ id = some r) :
    (s.modify ρ id f).find? ρ id = some (f r) := by
  rw [find?_modify_self s id f hf, h]
  rfl

theorem find?_modify_ne (s : Store) {id other : Int} (f : ρ → ρ)
    (hf : ∀ r, Row.id (f r) = Row.id r) (h : other ≠ id) :
    (s.modify ρ id f).find? ρ other = s.find? ρ other := by
  rw [find?_modify s id other f hf]
  cases hr : s.find? ρ other with
  | none => rfl
  | some r => simp [id_of_find? hr, h]

theorem find?_delete_self (s : Store) (id : Int) : (s.delete ρ id).find? ρ id = none := by
  simp only [find?, delete, LawfulRow.rows_setRows, List.find?_eq_none, List.mem_filter]
  rintro r ⟨_, hr⟩
  simpa using hr

theorem find?_delete_ne (s : Store) {id other : Int} (h : other ≠ id) :
    (s.delete ρ id).find? ρ other = s.find? ρ other := by
  simp only [find?, delete, LawfulRow.rows_setRows, List.find?_filter]
  congr 1
  funext r
  by_cases hr : Row.id r = other
  · simp [hr, h]
  · simp [hr]

end Store

end Deskflow
