import Deskflow.Desk.Transaction

/-!
# Columns

What the columns of the tables hold, and what is kept in them of the values that they are given.
A value is first taken as what its column holds, which it may not be suitable for, and then kept:
texts as they are, numbers in a column of texts by their digits, and a number at the top of a
free-form value as an integer where it is one that fits 64 bits, and as a double-precision number
otherwise. What lies inside a list or an object is kept as it is.

Out of scope: references between tables.

* `kept_int`, `kept_list`, `kept_object`: integers that fit, lists and objects are kept.
* `fill_unknown`: a new row with a name that its table does not know is refused.
-/

namespace Deskflow

/-- A free-form value as it is kept. -/
def Value.kept : Value → Value
  | .int n =>
    if Transaction.fits n then .int n else .float (Binary64.ofRatio (n < 0) n.natAbs 1)
  | .float x =>
    match x.integer? with
    | some n => if n.natAbs < Transaction.wordLimit then .int n else .float x
    | none => .float x
  | v => v

/-- What a column holds. -/
inductive ColumnType where
  | integer | text | flag | moment | free
deriving DecidableEq, Repr

/-- What a new row holds in a column that nothing is given for. -/
inductive Preset where
  | nothing
  | value (v : Value)
  | clock
deriving DecidableEq, Repr

/-- A column of a table. A column that is stamped is set whenever its row is changed. -/
structure Column where
  name : String
  type : ColumnType
  required : Bool := false
  preset : Preset := .nothing
  stamped : Bool := false
deriving DecidableEq, Repr

namespace Column

/-- The id of a row. -/
def key : Column := ⟨"id", .integer, true, .nothing, false⟩

/-- A column that may be null and is so if nothing is given for it. -/
def optional (name : String) (type : ColumnType) : Column := ⟨name, type, false, .nothing, false⟩

/-- A column that something has to be given for. -/
def needed (name : String) (type : ColumnType) : Column := ⟨name, type, true, .nothing, false⟩

/-- A column that is never null. -/
def filled (name : String) (type : ColumnType) (v : Value) : Column :=
  ⟨name, type, true, .value v, false⟩

/-- The moment at which a row is made. -/
def made (name : String) : Column := ⟨name, .moment, false, .clock, false⟩

/-- The moment at which a row was changed last. -/
def changed (name : String) : Column := ⟨name, .moment, false, .clock, true⟩

end Column

namespace ColumnType

/-- A value as what a column holds, without regard to what fits into it. No value is a moment: the
moments of new rows are read from texts before. -/
def accept : ColumnType → Value → Except Fault Value
  | .flag, .null => .ok .null
  | .flag, .bool b => .ok (.bool b)
  | .flag, .int 0 => .ok (.bool false)
  | .flag, .int 1 => .ok (.bool true)
  | .flag, .float x =>
    match x.integer? with
    | some 0 => .ok (.bool false)
    | some 1 => .ok (.bool true)
    | _ => .error .unsuitable
  | .flag, _ => .error .unsuitable
  | .moment, .null => .ok .null
  | .moment, _ => .error .unsuitable
  | _, v => .ok v

/-- A value for a new row as what a column holds; a moment is given by its text. -/
def acceptNew : ColumnType → Value → Except Fault Value
  | .moment, .str s =>
    match Moment.read? s with
    | some t => .ok (.str t.text)
    | none => .error (.malformedMoment s)
  | type, v => type.accept v

/-- What a column of integers keeps of a value. -/
def keepInteger : Value → Except Fault Value
  | .null => .ok .null
  | .bool b => .ok (.int (if b then 1 else 0))
  | .int n => if Transaction.fits n then .ok (.int n) else .error .integerRange
  | .float x =>
    if x.isNaN then .ok .null
    else match x.integer? with
      | some n => if Transaction.fits n then .ok (.int n) else .error .constraint
      | none => .error .constraint
  | .str s =>
    match Numeral.read s with
    | .ok n => if Transaction.fits n then .ok (.int n) else .error .constraint
    | .error _ => .error .constraint
  | .list _ | .object _ => .error .unstorable

/-- What a column of texts keeps of a value. -/
def keepText : Value → Except Fault Value
  | .null => .ok .null
  | .str s => .ok (.str s)
  | .bool b => .ok (.str (if b then "1" else "0"))
  | .int n => if Transaction.fits n then .ok (.str (integerText n)) else .error .integerRange
  | .float x => .ok (if x.isNaN then .null else .str x.render)
  | .list _ | .object _ => .error .unstorable

/-- What a column keeps of a value that it accepts. -/
def keep : ColumnType → Value → Except Fault Value
  | .integer => keepInteger
  | .text => keepText
  | .free => fun v => .ok v.kept
  | .flag | .moment => .ok

end ColumnType

namespace Table

/-- The word for a row of a table. -/
def word : Table → String
  | channels => "Channel"
  | operators => "Operator"
  | tags => "Tag"
  | clients => "Client"
  | clientTags => "Membership"
  | conversations => "Conversation"
  | messages => "Message"
  | automations => "Automation"
  | automationSteps => "AutomationStep"
  | automationRuns => "AutomationRun"

/-- The columns of a table, in order. -/
def columns : Table → List Column
  | channels =>
    [.key, .needed "name" .text, .filled "type" .text (.str "telegram"),
      .optional "credentials" .free, .optional "settings" .free,
      .filled "is_active" .flag (.bool true), .made "created_at"]
  | operators =>
    [.key, .needed "name" .text, .made "created_at"]
  | tags =>
    [.key, .needed "name" .text, .optional "color" .text, .made "created_at"]
  | clients =>
    [.key, .optional "external_id" .text, .optional "name" .text, .optional "phone" .text,
      .optional "email" .text, .optional "meta" .free, .made "created_at"]
  | clientTags =>
    [.needed "client_id" .integer, .needed "tag_id" .integer]
  | conversations =>
    [.key, .needed "channel_id" .integer, .optional "client_id" .integer,
      .optional "operator_id" .integer, .filled "status" .text (.str "new"),
      .filled "priority" .text (.str "normal"), .optional "meta" .free,
      .filled "unread_count" .integer (.int 0), .optional "last_message_at" .moment,
      .made "created_at", .changed "updated_at"]
  | messages =>
    [.key, .needed "conversation_id" .integer, .needed "channel_id" .integer,
      .optional "client_id" .integer, .optional "operator_id" .integer,
      .needed "direction" .text, .filled "type" .text (.str "text"), .optional "content" .text,
      .filled "status" .text (.str "sent"), .optional "attachments" .free,
      .optional "provider_message_id" .integer, .optional "meta" .free, .made "created_at"]
  | automations =>
    [.key, .needed "name" .text, .optional "description" .text, .optional "channel_id" .integer,
      .filled "trigger" .text (.str "new_conversation"), .optional "trigger_config" .free,
      .filled "is_active" .flag (.bool true), .made "created_at", .changed "updated_at"]
  | automationSteps =>
    [.key, .needed "automation_id" .integer, .needed "step_id" .text, .needed "type" .text,
      .optional "config" .free, .optional "position" .free, .filled "order" .integer (.int 0),
      .optional "next_step_id" .text, .optional "condition_true_step_id" .text,
      .optional "condition_false_step_id" .text, .made "created_at"]
  | automationRuns =>
    [.key, .needed "automation_id" .integer, .needed "conversation_id" .integer,
      .optional "client_id" .integer, .filled "status" .text (.str "running"),
      .optional "trigger_data" .free, .optional "steps_executed" .free, .optional "error" .text,
      .made "started_at", .optional "completed_at" .moment]

/-- Whether a table has a column of this name. -/
def hasColumn (t : Table) (name : String) : Bool := t.columns.any fun c => c.name == name

/-- A name that a new row of any table may carry; it means nothing. -/
def idleName : String := "metadata"

/-- Whether a new row may carry a name. -/
def knows (t : Table) (name : String) : Bool := t.hasColumn name || name == idleName

/-- Refuses a new row that carries a name which its table does not know. -/
def check (t : Table) (r : Record) : Except Fault Unit :=
  match r.find? fun f => !t.knows f.1 with
  | some f => .error (.unknownName f.1 t.word)
  | none => .ok ()

/-- The value of a column in a new row: what is given for it, or what it is preset to. -/
def valueOf (now : Moment) (r : Record) (c : Column) : Except Fault Value :=
  match r.getD c.name, c.preset with
  | .null, .value v => .ok v
  | .null, .clock => .ok (.str now.text)
  | v, _ => c.type.acceptNew v

/-- A new row of a table with all its columns. -/
def fill (now : Moment) (t : Table) (r : Record) : Except Fault Record := do
  t.check r
  t.columns.mapM fun c => do return (c.name, ← valueOf now r c)

/-- The changes of a row by the columns they are to, in order. -/
def changesOf (t : Table) (r : Record) : Except Fault Record := do
  if r.any fun f => !t.hasColumn f.1 then throw .unknownColumn
  let given := t.columns.filter fun c => r.has c.name
  given.mapM fun c => do return (c.name, ← c.type.accept (r.getD c.name))

/-- What a table keeps of a record. -/
def keep (t : Table) (r : Record) : Except Fault Record :=
  (t.columns.filter fun c => r.has c.name).mapM fun c => do
    return (c.name, ← c.type.keep (r.getD c.name))

/-- Whether a record leaves a column null that must not be. -/
def lacks (t : Table) (r : Record) : Bool :=
  t.columns.any fun c => c.required && r.get? c.name = some .null

end Table

/-! ## Lemmas -/

theorem Value.kept_int {n : Int} (h : Transaction.fits n = true) :
    (Value.int n).kept = .int n := by
  simp [kept, h]

@[simp] theorem Value.kept_list (vs : List Value) : (Value.list vs).kept = .list vs := rfl

@[simp] theorem Value.kept_object (r : Record) : (Value.object r).kept = .object r := rfl

theorem Table.fill_unknown {now : Moment} {t : Table} {r : Record} {f : String × Value}
    (h : r.find? (fun f => !t.knows f.1) = some f) :
    t.fill now r = .error (.unknownName f.1 t.word) := by
  simp [fill, check, h, bind, Except.bind]

end Deskflow
