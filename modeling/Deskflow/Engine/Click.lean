import Deskflow.Engine.Dispatch

/-!
# Clicks

From the data of a clicked button back to the button, and what its action does. A step id is unique
within an automation only, so steps of automations that have a run in the conversation are looked
at first. Changes of tags made by a click set off no automation.

A click is told apart from others by an id, and seen once within five minutes.

Models `ButtonService`: `find_button`, `handle_callback`, `execute_action` and
`is_duplicate_callback`.

* `runOn_isDuplicate_of_empty`: a click without an id is never taken for one that was seen.
* `run_findButton_of_foreign`: data of no known form names no button.
-/

namespace Deskflow

namespace Click

open Work Engine

/-- For how long a click is remembered, in seconds. -/
def window : Int := 300

/-- Whether a click was seen already (`is_duplicate_callback`); if it was not, it is now. -/
def isDuplicate (clickId : String) : Work Bool := do
  if clickId = "" then return false
  let now ← reading
  let clicks := within window now (← get).memory.clicks
  let seen := clicks.any fun e => e.1 = clickId
  let clicks := if seen then clicks else clicks ++ [(clickId, now)]
  modify fun w => { w with memory := { w.memory with clicks } }
  return seen

/-- The kind of steps that have buttons. -/
def buttonsKind : String := "send_text_with_buttons"

/-- The automations that have a run in a conversation. -/
def ranIn (runs : List Run) (conversationId : Int) : List Int :=
  (runs.filter fun r => r.conversationId == conversationId).map Run.automationId

/-- Stored steps by ascending id, with those of some automations first (`_ranked_steps`). -/
def ranked (first : List Int) (rows : List StepRow) : List StepRow :=
  (rows.filter fun r => first.contains r.automationId)
    ++ rows.filter fun r => !first.contains r.automationId

/-- Every stored step, those of automations that have a run in the conversation first. -/
def rankedSteps (conversationId : Option Int) : Transaction (List StepRow) := do
  let rows ← Transaction.rows StepRow
  match conversationId with
  | none => return rows
  | some id =>
    let runs ← Transaction.rows Run
    Transaction.fit id
    return ranked (ranIn runs id) rows

/-- Whether a row is that of a step of an id and a kind. -/
def isFor (stepId kind : String) (r : StepRow) : Bool := r.stepId == stepId && r.kind == kind

/-- The first step of an id and a kind in stored rows (`_load_step`). -/
def stepOf? (rows : List StepRow) (stepId kind : String) : Except Fault (Option Step) :=
  match rows.find? (isFor stepId kind) with
  | some row => some <$> Step.parse row.draft
  | none => .ok none

/-- The members of a step, if it is a group. -/
def members? : Step → Option (List Step)
  | .group _ _ members => some members
  | .single _ _ => none

/-- The step with a callback key (`_find_step`): a member of a group, where the key is that of a
member and there is such a group, and else the step with buttons of that id. -/
def stepOfKey? (rows : List StepRow) (key : String) : Except Fault (Option Step) := do
  match Callback.memberOf? key with
  | none => stepOf? rows key buttonsKind
  | some (group, index) =>
    match (← stepOf? rows group groupKind).bind members? with
    | none => stepOf? rows key buttonsKind
    | some members =>
      let _ ← Numeral.read index
      return members.find? fun m => m.head.callbackKey == key

/-- The buttons of a step, if it can have any. -/
def buttonsOf? : Step → Option (List Button)
  | .single _ (.sendButtons _ _ buttons) => some buttons
  | _ => none

/-- Whether a step has a button at an index with a digest. -/
def hasDigest (digest : String) (index : Nat) (s : Step) : Bool :=
  match buttonsOf? s with
  | some buttons => index < buttons.length && Callback.digest s.head.callbackKey index == digest
  | none => false

/-- The steps that a stored step stands for when a digest is looked for: the members of a group, or
the step itself. -/
def candidatesOf (s : Step) : List Step := (members? s).getD [s]

/-- The first step with a button at an index with a digest (`_find_step_by_digest`); rows after it
are not read. -/
def findDigest? (digest : String) (index : Nat) : List StepRow → Except Fault (Option Step)
  | [] => .ok none
  | row :: rest => do
    match (candidatesOf (← Step.parse row.draft)).find? (hasDigest digest index) with
    | some step => return some step
    | none => findDigest? digest index rest

/-- Whether the steps that a row stands for may have buttons. -/
def mayBear (row : StepRow) : Bool := row.kind == buttonsKind || row.kind == groupKind

/-- The step whose button a reference names. -/
def stepOfRef? (rows : List StepRow) : Callback.Ref → Except Fault (Option Step)
  | .plain key _ => stepOfKey? rows key
  | .hashed digest index => findDigest? digest index (rows.filter mayBear)

/-- The button that a reference names among stored steps. -/
def buttonOf? (rows : List StepRow) (ref : Callback.Ref) : Except Fault (Option Button) := do
  return ((← stepOfRef? rows ref).bind buttonsOf?).bind fun buttons => buttons[ref.index]?

/-- The button that callback data names, in a conversation if one is given (`find_button`). -/
def findButton (data : String) (conversationId : Option Int) : Transaction (Option Button) := do
  match ← Callback.read? data with
  | some ref => buttonOf? (← rankedSteps conversationId) ref
  | none => return none

/-- The kind of media that an action sends. -/
def mediaOf? : String → Option MediaKind
  | "send_photo" => some .image
  | "send_video" => some .video
  | "send_file" => some .file
  | _ => none

/-- The message that is kept of what a click sent. -/
def clickMessage (o : Outgoing) : Outgoing :=
  { o with metadata := [("sent_by", .str "button"), ("telegram_message_id", .null)] }

/-- The values that name the tags of an action: a list of them, or else a single one. -/
def tagValues (config : Record) : Except Fault (List Value) :=
  let many := config.getD "tag_ids"
  let one := config.getD "tag_id"
  if many.isGiven then many.items else .ok (if one.isGiven then [one] else [])

/-- Attaches tags to the client, or detaches them from it, and notes which ones. -/
def changeTags (kind : EventKind) (thread : Thread) (config : Record) : Work Unit := do
  let some clientId := thread.conversation.clientId | return ()
  let values ← (tagValues config : Work (List Value))
  let changed ← query (Tagging.change (kind = .tagRemoved) clientId values)
  if changed.isEmpty then return ()
  addNote thread.conversation (tagNote kind changed)

/-- Carries out an action in a conversation (`execute_action`); one without a chat, and an action
that is not known, do nothing. -/
def act (settings : Settings) (thread : Thread) (action : String) (config : Record) :
    Work Unit := do
  let some chat ← thread.conversation.chatId | return ()
  match action with
  | "send_text" =>
    let text := fillIn thread (config.getD "text").givenText
    if text = "" then return ()
    send settings thread chat (.text text) [] (clickMessage { content := text })
  | "add_tag" => changeTags .tagAdded thread config
  | "remove_tag" => changeTags .tagRemoved thread config
  | other =>
    let some kind := mediaOf? other | return ()
    let ref := (config.getD "url").givenText
    if ref = "" then return ()
    send settings thread chat (.media kind ref "") []
      (clickMessage
        { content := "", kind := kind.word, attachments := attachment settings kind ref })

/-- What came of a click (`ButtonOutcome`): whether it was handled, and whether the buttons are to
be taken down. A link keeps them. -/
structure Result where
  handled : Bool
  hideButtons : Bool
deriving DecidableEq, Repr

/-- Handles the click of a button in a conversation (`handle_callback`). -/
def handle (settings : Settings) (conversationId : Int) (data : String) : Work Result := do
  let some button ← query (findButton data (some conversationId)) | return ⟨false, false⟩
  if button.url.isSome then return ⟨true, false⟩
  match button.action with
  | none => return ⟨false, true⟩
  | some action =>
    if button.actionConfig.isEmpty then return ⟨false, true⟩
    let some thread ← query (Thread.load? conversationId) | return ⟨false, false⟩
    act settings thread action button.actionConfig
    return ⟨true, true⟩

/-! ## Lemmas -/

theorem runOn_isDuplicate_of_empty (w : World) : (isDuplicate "").runOn w = (.ok false, w) := rfl

theorem run_findButton_of_foreign {data : String} (h : Callback.read? data = .ok none)
    (conversationId : Option Int) (s : Store) :
    (findButton data conversationId).run s = .ok (none, s) := by
  unfold findButton
  rw [StateT.run_bind, Transaction.run_lift_ok h]
  rfl

end Click

end Deskflow
