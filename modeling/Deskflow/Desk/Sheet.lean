import Deskflow.Desk.Column

/-!
# Sheets

The rows of the tables as records: every column that is shown by its name, in a fixed order. New
rows and changes come as records of free-form values; what the columns make of them is kept.

* `ofRecord_toRecord_tag`, `ofRecord_toRecord_operator`: a row that is written out is read back.
* `updateAs_none`: a change of a row that is not there changes nothing.
-/

namespace Deskflow

/-- A type of rows that can be written as records, and read from records of what their columns
keep. -/
class Sheet (ρ : Type) extends Row ρ where
  toRecord : ρ → Record
  ofRecord : Record → ρ

namespace Sheet

/-- The moment that a value stands for, as it is written. -/
def momentValue : Option Moment → Value
  | some t => .str t.text
  | none => .null

/-- A text that may be null. -/
def text? (r : Record) (name : String) : Option String := (r.getD name).text?

/-- A text that is there. -/
def text (r : Record) (name : String) : String := (text? r name).getD ""

/-- An integer that may be null. -/
def int? (r : Record) (name : String) : Option Int :=
  match r.getD name with
  | .int n => some n
  | _ => none

/-- An integer that is there. -/
def int (r : Record) (name : String) : Int := (int? r name).getD 0

/-- A truth value that is there. -/
def flag (r : Record) (name : String) : Bool := (r.getD name).isGiven

/-- A moment that may be null. -/
def moment? (r : Record) (name : String) : Option Moment := (text? r name).bind Moment.read?

instance : Sheet Channel where
  toRecord r :=
    [("id", .int r.id), ("name", .str r.name), ("type", .str r.kind),
      ("credentials", r.credentials), ("settings", r.settings), ("is_active", .bool r.isActive)]
  ofRecord r :=
    { id := int r "id"
      name := text r "name"
      kind := text r "type"
      credentials := r.getD "credentials"
      settings := r.getD "settings"
      isActive := flag r "is_active" }

instance : Sheet Operator where
  toRecord r := [("id", .int r.id), ("name", .str r.name)]
  ofRecord r := { id := int r "id", name := text r "name" }

instance : Sheet Tag where
  toRecord r := [("id", .int r.id), ("name", .str r.name), ("color", .ofText? r.color)]
  ofRecord r := { id := int r "id", name := text r "name", color := text? r "color" }

instance : Sheet Client where
  toRecord r :=
    [("id", .int r.id), ("external_id", .ofText? r.externalId), ("name", .ofText? r.name),
      ("phone", .ofText? r.phone), ("email", .ofText? r.email), ("meta", r.metadata)]
  ofRecord r :=
    { id := int r "id"
      externalId := text? r "external_id"
      name := text? r "name"
      phone := text? r "phone"
      email := text? r "email"
      metadata := r.getD "meta" }

instance : Sheet Conversation where
  toRecord r :=
    [("id", .int r.id), ("channel_id", .int r.channelId), ("client_id", .ofInt? r.clientId),
      ("operator_id", .ofInt? r.operatorId), ("status", .str r.status), ("meta", r.metadata),
      ("unread_count", .int r.unreadCount), ("last_message_at", momentValue r.lastMessageAt)]
  ofRecord r :=
    { id := int r "id"
      channelId := int r "channel_id"
      clientId := int? r "client_id"
      operatorId := int? r "operator_id"
      status := text r "status"
      metadata := r.getD "meta"
      unreadCount := int r "unread_count"
      lastMessageAt := moment? r "last_message_at" }

instance : Sheet Message where
  toRecord r :=
    [("id", .int r.id), ("conversation_id", .int r.conversationId),
      ("channel_id", .int r.channelId), ("client_id", .ofInt? r.clientId),
      ("operator_id", .ofInt? r.operatorId), ("direction", .str r.direction),
      ("type", .str r.kind), ("content", .ofText? r.content), ("status", .str r.status),
      ("attachments", r.attachments), ("provider_message_id", .ofInt? r.providerMessageId),
      ("meta", r.metadata), ("created_at", momentValue r.createdAt)]
  ofRecord r :=
    { id := int r "id"
      conversationId := int r "conversation_id"
      channelId := int r "channel_id"
      clientId := int? r "client_id"
      operatorId := int? r "operator_id"
      direction := text r "direction"
      kind := text r "type"
      content := text? r "content"
      status := text r "status"
      attachments := r.getD "attachments"
      providerMessageId := int? r "provider_message_id"
      metadata := r.getD "meta"
      createdAt := moment? r "created_at" }

instance : Sheet Automation where
  toRecord r :=
    [("id", .int r.id), ("name", .str r.name), ("description", .ofText? r.description),
      ("channel_id", .ofInt? r.channelId), ("trigger", .str r.trigger),
      ("trigger_config", r.triggerConfig), ("is_active", .bool r.isActive)]
  ofRecord r :=
    { id := int r "id"
      name := text r "name"
      description := text? r "description"
      channelId := int? r "channel_id"
      trigger := text r "trigger"
      triggerConfig := r.getD "trigger_config"
      isActive := flag r "is_active" }

instance : Sheet StepRow where
  toRecord r :=
    [("id", .int r.id), ("automation_id", .int r.automationId), ("step_id", .str r.stepId),
      ("type", .str r.kind), ("config", r.config), ("position", r.position),
      ("order", .int r.order), ("next_step_id", .ofText? r.nextStepId),
      ("condition_true_step_id", .ofText? r.trueStepId),
      ("condition_false_step_id", .ofText? r.falseStepId)]
  ofRecord r :=
    { id := int r "id"
      automationId := int r "automation_id"
      stepId := text r "step_id"
      kind := text r "type"
      config := r.getD "config"
      position := r.getD "position"
      order := int r "order"
      nextStepId := text? r "next_step_id"
      trueStepId := text? r "condition_true_step_id"
      falseStepId := text? r "condition_false_step_id" }

instance : Sheet Run where
  toRecord r :=
    [("id", .int r.id), ("automation_id", .int r.automationId),
      ("conversation_id", .int r.conversationId), ("client_id", .ofInt? r.clientId),
      ("status", .str r.status), ("trigger_data", r.triggerData),
      ("steps_executed", r.stepsExecuted), ("error", .ofText? r.error),
      ("started_at", momentValue r.startedAt), ("completed_at", momentValue r.completedAt)]
  ofRecord r :=
    { id := int r "id"
      automationId := int r "automation_id"
      conversationId := int r "conversation_id"
      clientId := int? r "client_id"
      status := text r "status"
      triggerData := r.getD "trigger_data"
      stepsExecuted := r.getD "steps_executed"
      error := text? r "error"
      startedAt := moment? r "started_at"
      completedAt := moment? r "completed_at" }

/-- The columns that are left out of a step which comes with its automation: its automation, and
its id and order by its place. -/
def stepDefaults (automationId : Int) (index : Nat) : Record :=
  [("automation_id", .int automationId), ("step_id", .str ("s" ++ Decimal.digitText (index + 1))),
    ("order", .int index), ("config", .object [])]

/-- Whether a row is unique where rows of its table have to be: in the name of a tag, and in the
external id of a client. The row of the id `old` is the one that it takes the place of. -/
def isUnique (s : Store) (t : Table) (old : Int) (r : Record) : Bool :=
  match t with
  | .tags => s.tags.all fun x => x.id = old || some x.name ≠ text? r "name"
  | .clients =>
    s.clients.all fun x => x.id = old || x.externalId = none || x.externalId ≠ text? r "external_id"
  | _ => true

/-- Refuses to go on without a table. -/
def need (s : Store) (t : Table) : Except Fault Unit :=
  if s.absent.contains t then .error (.tableMissing t.name) else .ok ()

/-- The store with a row added from a record, under the record's id or the next one; tells the
id. -/
def insertAs (ρ : Type) [Sheet ρ] (now : Moment) (s : Store) (r : Record) :
    Except Fault (Int × Store) := do
  let t := Row.table ρ
  let filled ← t.fill now r
  need s t
  let kept ← t.keep filled
  let id := (int? kept "id").getD (s.nextId ρ)
  let row := kept.put "id" (.int id)
  if t.lacks row || (s.find? ρ id).isSome || !isUnique s t id row then throw .constraint
  return (id, s.insert (Sheet.ofRecord row : ρ))

/-- The store with memberships of a client added. -/
def insertMemberships (clientId : Int) : List Value → Store → Except Fault Store
  | [], s => .ok s
  | v :: vs, s => do
    need s .clientTags
    match ← ColumnType.integer.keep v with
    | .int tagId =>
      let m : Membership := ⟨clientId, tagId⟩
      if s.memberships.contains m then throw .constraint
      insertMemberships clientId vs { s with memberships := s.memberships ++ [m] }
    | _ => throw .constraint

/-- The store with the steps that come with an automation added. -/
def insertSteps (now : Moment) (automationId : Int) : Nat → List Value → Store → Except Fault Store
  | _, [], s => .ok s
  | index, v :: vs, s => do
    let (_, s) ← insertAs StepRow now s (Record.merge (stepDefaults automationId index) v.fields)
    insertSteps now automationId (index + 1) vs s

/-- The store with a row added from a record; tells the row's id. A client may come with the ids
of its tags, and an automation with its steps. -/
def insert (now : Moment) (s : Store) (t : Table) (r : Record) : Except Fault (Int × Store) :=
  match t with
  | .channels => insertAs Channel now s r
  | .operators => insertAs Operator now s r
  | .tags => insertAs Tag now s r
  | .clients => do
    let (id, s) ← insertAs Client now s (r.erase "tag_ids")
    let tagIds ← (r.getD "tag_ids").givenItems
    return (id, ← insertMemberships id tagIds s)
  | .clientTags => .error (.unknownTable t.name)
  | .conversations => insertAs Conversation now s r
  | .messages => insertAs Message now s r
  | .automations => do
    let (id, s) ← insertAs Automation now s (r.erase "steps")
    let steps ← (r.getD "steps").givenItems
    return (id, ← insertSteps now id 0 steps s)
  | .automationSteps => insertAs StepRow now s r
  | .automationRuns => insertAs Run now s r

/-- The id that a value names a row by, if it can be one. -/
def idOf? (v : Value) : Except Fault (Option Int) :=
  match ColumnType.keepInteger v with
  | .ok (.int id) => .ok (some id)
  | .error .integerRange => .error .integerRange
  | .error .unstorable => .error .unstorable
  | _ => .ok none

/-- The store with columns of the row of an id written over. A row that is given another id moves
to its place there. -/
def updateAs (ρ : Type) [Sheet ρ] (s : Store) (id : Value) (r : Record) : Except Fault Store := do
  let t := Row.table ρ
  let changes ← t.changesOf r
  if changes.isEmpty && !t.columns.any Column.stamped then throw .nothingChanged
  need s t
  let kept ← t.keep changes
  let some old ← idOf? id | return s
  let some row := s.find? ρ old | return s
  let whole := Record.merge (Sheet.toRecord row) kept
  let new := int whole "id"
  let taken := new ≠ old && (s.find? ρ new).isSome
  if t.lacks kept || taken || !isUnique s t old whole then throw .constraint
  return (s.delete ρ old).insert (Sheet.ofRecord whole : ρ)

/-- The store with columns of the row of an id in a table written over. -/
def update (s : Store) (t : Table) (id : Value) (r : Record) : Except Fault Store :=
  match t with
  | .channels => updateAs Channel s id r
  | .operators => updateAs Operator s id r
  | .tags => updateAs Tag s id r
  | .clients => updateAs Client s id r
  | .clientTags => .error (.unknownTable t.name)
  | .conversations => updateAs Conversation s id r
  | .messages => updateAs Message s id r
  | .automations => updateAs Automation s id r
  | .automationSteps => updateAs StepRow s id r
  | .automationRuns => updateAs Run s id r

/-- The store without the row of an id in a table. The steps of an automation have to be at hand,
as they go with it. -/
def delete (s : Store) (t : Table) (id : Value) : Except Fault Store := do
  if t = .clientTags then throw (.unknownTable t.name)
  if t = .automations then need s .automationSteps
  need s t
  let some id ← idOf? id | return s
  return s.deleteRow id t

/-- The store without a table, which has to be there. -/
def dropTable (s : Store) (t : Table) : Except Fault Store := do
  need s t
  return s.drop t

/-- The rows of a client's table, with the ids of the tags that each client carries. -/
def clientRecord (s : Store) (c : Client) : Record :=
  toRecord c ++ [("tag_ids", .list ((s.tagIdsOf c.id).map .int))]

/-- The rows of a table with their ids. -/
def recordsOf (s : Store) : Table → List (Int × Record)
  | .channels => s.channels.map fun r => (r.id, toRecord r)
  | .operators => s.operators.map fun r => (r.id, toRecord r)
  | .tags => s.tags.map fun r => (r.id, toRecord r)
  | .clients => s.clients.map fun r => (r.id, clientRecord s r)
  | .clientTags => []
  | .conversations => s.conversations.map fun r => (r.id, toRecord r)
  | .messages => s.messages.map fun r => (r.id, toRecord r)
  | .automations => s.automations.map fun r => (r.id, toRecord r)
  | .automationSteps => s.steps.map fun r => (r.id, toRecord r)
  | .automationRuns => s.runs.map fun r => (r.id, toRecord r)

/-- The tables that operations of the desk write to. -/
def watched : List Table := [.tags, .clients, .conversations, .messages, .automationRuns]

/-- What differs between two lists of rows, by ascending id: rows that are new or changed, and for
each row that is gone its id. -/
def differences (old new : List (Int × Record)) : List Value :=
  let changed := new.filter fun r => old.lookup r.1 != some r.2
  let gone := old.filter fun r => (new.lookup r.1).isNone
  let entries := changed.map (fun r => (r.1, Value.object r.2))
    ++ gone.map fun r => (r.1, Value.object [("id", .int r.1), ("deleted", .bool true)])
  (sortBy (fun a b => a.1 ≤ b.1) entries).map Prod.snd

/-- What differs between two stores, by table; a table without differences is left out. -/
def changes (old new : Store) : Record :=
  watched.filterMap fun t =>
    match differences (recordsOf old t) (recordsOf new t) with
    | [] => none
    | vs => some (t.name, .list vs)

/-- The columns that the label of a row shows. -/
def labelColumns : Table → List String
  | .channels | .operators | .tags | .clients => ["id", "name"]
  | .clientTags => []
  | .conversations => ["id", "channel_id", "status"]
  | .messages => ["id", "conversation_id", "direction"]
  | .automations => ["id", "name", "trigger"]
  | .automationSteps => ["id", "type", "order"]
  | .automationRuns => ["id", "automation_id", "status"]

/-- A short text that names a row, which carries no name that its table does not know. -/
def label (t : Table) (r : Record) : Except Fault String := do
  if t = .clientTags then throw (.unknownTable t.name)
  t.check r
  let shown := (labelColumns t).map fun c => c ++ "=" ++ (r.getD c).text
  return "<" ++ t.word ++ "(" ++ Value.joinWith ", " shown ++ ")>"

/-! ## Lemmas -/

theorem ofRecord_toRecord_operator (r : Operator) : Sheet.ofRecord (Sheet.toRecord r) = r := rfl

theorem ofRecord_toRecord_tag (r : Tag) : Sheet.ofRecord (Sheet.toRecord r) = r := by
  obtain ⟨id, name, color⟩ := r
  cases color <;> rfl

theorem idOf?_int (id : Int) :
    idOf? (.int id) = if Transaction.fits id then .ok (some id) else .error .integerRange := by
  by_cases h : Transaction.fits id = true <;> simp [idOf?, ColumnType.keepInteger, h]

theorem updateAs_none {ρ : Type} [Sheet ρ] {s t : Store} {id : Int} {r : Record}
    (hNone : s.find? ρ id = none) (h : updateAs ρ s (.int id) r = .ok t) : t = s := by
  by_cases hFit : Transaction.fits id = true
  · simp only [updateAs, idOf?_int, hFit, if_true, bind, Except.bind, hNone] at h
    repeat' split at h
    all_goals simp_all [pure, Except.pure]
  · simp only [updateAs, idOf?_int, hFit, bind, Except.bind] at h
    repeat' split at h
    all_goals simp_all

end Sheet

end Deskflow
