import Deskflow.Value.Reading

/-!
# Suspensions

What a conversation keeps of an automation that waits for a condition: one slot in its metadata,
which names the automation, the step, the run and the condition. The run is written under a name of
its own, and read under an older one too.

Models `PausedExecution` with `to_dict` and `from_dict`.

* `slotIn_withSlot`: a suspension that was put into the slot is read back.
* `withoutSlot_withSlot`: emptying a slot that was filled restores the metadata.
-/

namespace Deskflow

/-- An automation that waits at a step of a run (`PausedExecution`). -/
structure Suspension where
  automationId : Int
  stepId : String
  runId : Int
  condition : Record := []
deriving DecidableEq, Repr

namespace Suspension

/-- The metadata field that holds the slot. -/
def slotField : String := "paused_automation"

/-- A suspension as it is stored (`to_dict`). -/
def record (s : Suspension) : Record :=
  [("automation_id", .int s.automationId), ("step_id", .str s.stepId), ("log_id", .int s.runId),
    ("condition_config", .object s.condition)]

/-- A suspension as it is stored that was handed over as free-form values, which stay as they are;
but the condition has to be a record. -/
def recordOf (automationId stepId runId condition : Value) : Except Fault Record := do
  return [("automation_id", automationId), ("step_id", stepId), ("log_id", runId),
    ("condition_config", .object (← condition.asRecord))]

/-- The run that a stored suspension names. -/
def storedRun (fields : Record) : Value := (fields.get? "log_id").getD (fields.getD "run_id")

/-- The suspension that the fields of a stored value stand for, if they have the shape of one. -/
def readFields? (fields : Record) : Except Fault (Option Suspension) := do
  match fields.get? "automation_id" with
  | none => return none
  | some automation =>
    match ← automation.toInt? with
    | none => return none
    | some automationId =>
      let stepId := (fields.getD "step_id").givenText
      if stepId = "" then return none
      let runId ← match storedRun fields with
        | .null => pure 0
        | run => run.toInt
      return some ⟨automationId, stepId, runId, (fields.getD "condition_config").fields⟩

/-- The suspension that a stored value stands for, if it has the shape of one (`from_dict`). -/
def read? : Value → Except Fault (Option Suspension)
  | .object fields => readFields? fields
  | _ => .ok none

/-- The suspension that metadata holds, if there is one. -/
def slotIn (metadata : Value) : Except Fault (Option Suspension) := do
  read? (← metadata.field slotField)

/-- The fields of metadata with the slot filled, whatever it held. -/
def fillSlot (metadata : Value) (content : Except Fault Record) : Except Fault Record := do
  let fields ← metadata.toRecord
  let _ ← (fields.getD slotField).field "automation_id"
  return fields.put slotField (.object (← content))

/-- The fields of metadata with a suspension put into the slot. -/
def withSlot (metadata : Value) (s : Suspension) : Except Fault Record :=
  fillSlot metadata (.ok s.record)

/-- What the slot of metadata holds, and the fields without the slot; none if there is no slot. -/
def withoutSlot (metadata : Value) : Except Fault (Option (Value × Record)) := do
  let fields ← metadata.toRecord
  return (fields.get? slotField).map fun v => (v, fields.erase slotField)

/-! ## Lemmas -/

theorem read?_record {s : Suspension} (h : s.stepId ≠ "") :
    read? (.object s.record) = .ok (some s) := by
  have hstep : (Value.str s.stepId).givenText = s.stepId := Value.givenText_str s.stepId
  have hrun : storedRun s.record = .int s.runId := rfl
  have hauto : s.record.get? "automation_id" = some (.int s.automationId) := rfl
  have hid : Record.getD s.record "step_id" = .str s.stepId := rfl
  have hcond : Record.getD s.record "condition_config" = .object s.condition := rfl
  have hint : (Value.int s.automationId).toInt? = .ok (some s.automationId) := rfl
  simp only [read?, readFields?, hauto, hint, hid, hstep, hrun, hcond, bind, Except.bind, pure,
    Except.pure, h, if_false, Value.toInt_int]
  rfl

theorem read?_record_of_empty {s : Suspension} (h : s.stepId = "") :
    read? (.object s.record) = .ok none := by
  have hstep : (Value.str s.stepId).givenText = "" := by rw [Value.givenText_str, h]
  have hauto : s.record.get? "automation_id" = some (.int s.automationId) := rfl
  have hid : Record.getD s.record "step_id" = .str s.stepId := rfl
  have hint : (Value.int s.automationId).toInt? = .ok (some s.automationId) := rfl
  simp only [read?, readFields?, hauto, hint, hid, hstep, bind, Except.bind, pure, Except.pure,
    if_true]

/-- What a suspension that was stored is read as names the automation and the run it did. -/
theorem read?_record_eq_ok {s t : Suspension} (h : read? (.object s.record) = .ok (some t)) :
    t.automationId = s.automationId ∧ t.runId = s.runId := by
  by_cases hs : s.stepId = ""
  · rw [read?_record_of_empty hs] at h
    cases h
  · rw [read?_record hs] at h
    cases h
    exact ⟨rfl, rfl⟩

theorem slotIn_withSlot {r out : Record} {s : Suspension} (h : s.stepId ≠ "")
    (hout : withSlot (.object r) s = .ok out) : slotIn (.object out) = .ok (some s) := by
  simp only [withSlot, fillSlot, Value.toRecord_object, bind, Except.bind] at hout
  split at hout
  · simp at hout
  · simp only [pure, Except.pure, Except.ok.injEq] at hout
    subst hout
    have hget : Record.getD (Record.put r slotField (.object s.record)) slotField
        = .object s.record := by
      simp [Record.getD]
    simp only [slotIn, Value.field_object, bind, Except.bind, hget]
    exact read?_record h

theorem withoutSlot_withSlot {r out : Record} {s : Suspension} (hr : r.get? slotField = none)
    (hout : withSlot (.object r) s = .ok out) :
    withoutSlot (.object out) = .ok (some (.object s.record, r)) := by
  simp only [withSlot, fillSlot, Value.toRecord_object, bind, Except.bind] at hout
  split at hout
  · simp at hout
  · simp only [pure, Except.pure, Except.ok.injEq] at hout
    subst hout
    simp [withoutSlot, bind, Except.bind, pure, Except.pure, Record.erase_put _ hr]

end Suspension

end Deskflow
