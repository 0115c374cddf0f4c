import Deskflow.Desk.History

/-!
# The run log

One entry for each execution of an automation, with a trace of the steps begun. An entry is open
until it is completed or failed, and never changes after that.

Models `AutomationRunLogger`: `open_run`, `append_step`, `complete` and `fail` by way of `_finish`,
`list_runs` and `list_conversation_runs`.

* `openRun_eq_ok`, `append_eq_ok`, `finish_eq_ok`: what each way to write the log does.
* `run_append_of_finished`, `run_finish_of_finished`: a finished run stays as it is.
* `listed_pairwise`: runs are listed with the latest first.
-/

namespace Deskflow

/-- How a run ends. -/
inductive RunEnd where
  | completed
  | failed (error : String)
deriving DecidableEq, Repr

namespace RunLog

open Transaction

/-- The status of a run that goes on. -/
def running : String := "running"

/-- The status of a run that has ended. -/
def RunEnd.status : RunEnd → String
  | .completed => "completed"
  | .failed _ => "failed"

/-- What went wrong in a run that has ended. -/
def RunEnd.error? : RunEnd → Option String
  | .completed => none
  | .failed error => some error

/-- A run as it is opened under an id. -/
def opened (now : Moment) (automationId conversationId : Int) (clientId : Option Int)
    (triggerData : Value) (id : Int) : Run :=
  { id
    automationId
    conversationId
    clientId
    status := running
    triggerData := (triggerData.orElse (.object [])).kept
    stepsExecuted := .list []
    error := none
    startedAt := some now
    completedAt := none }

/-- Opens a run and tells its id (`open_run`). -/
def openRun (now : Moment) (automationId conversationId : Int) (clientId : Option Int)
    (triggerData : Value) : Transaction Int := do
  need .automationRuns
  fit automationId
  fit conversationId
  fit? clientId
  return (← add (opened now automationId conversationId clientId triggerData 0)).id

/-- An entry of the trace. -/
def traceEntry (now : Moment) (stepId kind : String) : Value :=
  .object [("step_id", .str stepId), ("type", .str kind), ("started_at", .str now.text)]

/-- The entries of a trace as it is stored. -/
def entriesOf (trace : Value) : Except Fault (List Value) :=
  if trace.isGiven then trace.items.mapError fun _ => .notListable trace.kind else .ok []

/-- A run with a step added to its trace. -/
def withStep (entries : List Value) (entry : Value) (r : Run) : Run :=
  { r with stepsExecuted := .list (entries ++ [entry]) }

/-- Notes that a step of an open run begins (`append_step`). -/
def append (now : Moment) (runId : Int) (stepId kind : String) : Transaction Unit := do
  let some run ← load Run runId | return ()
  if run.status ≠ running then return ()
  let entries ← entriesOf run.stepsExecuted
  edit Run runId (withStep entries (traceEntry now stepId kind))

/-- A run that has ended. -/
def ended (now : Moment) (how : RunEnd) (r : Run) : Run :=
  { r with
    status := RunEnd.status how
    error := RunEnd.error? how
    completedAt := some now }

/-- Ends an open run (`_finish`). -/
def finish (now : Moment) (runId : Int) (how : RunEnd) : Transaction Unit := do
  let some run ← load Run runId | return ()
  if run.status ≠ running then return ()
  edit Run runId (ended now how)

/-- Whether a run is listed before another one: the later first, and of two that began together
the one with the larger id. -/
def listsBefore (a b : Run) : Bool :=
  Moment.isBefore b.startedAt a.startedAt || (a.startedAt = b.startedAt && b.id ≤ a.id)

/-- The runs of an automation, the latest first. -/
def listed (runs : List Run) (automationId : Int) : List Run :=
  sortBy listsBefore (runs.filter fun r => r.automationId == automationId)

/-- The number of runs that a request for `offset` passes over. -/
def skipped (offset : Value) : Except Fault Int := do
  return max 0 (← (offset.orElse (.int 0)).toInt)

/-- A page of the runs of an automation, the latest first (`list_runs`). -/
def page (automationId limit offset : Value) : Transaction (List Run) := do
  let size ← History.pageSize limit
  let start ← skipped offset
  let id ← automationId.toInt
  let runs ← rows Run
  fit id
  fit start
  return ((listed runs id).drop start.toNat).take size

/-- The runs of a conversation, by ascending id (`list_conversation_runs`). -/
def ofConversation (conversationId : Int) : Transaction (List Run) := do
  let runs ← rows Run
  fit conversationId
  return runs.filter fun r => r.conversationId == conversationId

/-! ## Lemmas -/

@[simp] theorem entriesOf_list (entries : List Value) :
    entriesOf (.list entries) = .ok entries := by
  cases entries <;> rfl

/-- A run is opened under the next id, if the table of runs is there. -/
theorem openRun_eq_ok {now : Moment} {automationId conversationId : Int} {clientId : Option Int}
    {triggerData : Value} {s s' : Store} {id : Int}
    (h : (openRun now automationId conversationId clientId triggerData).run s = .ok (id, s')) :
    id = s.nextId Run ∧ s.absent.contains .automationRuns = false
      ∧ s' = s.insert (opened now automationId conversationId clientId triggerData id) := by
  unfold openRun at h
  obtain ⟨_, s₁, h₁, h⟩ := run_bind_eq_ok.mp h
  obtain ⟨_, s₂, h₂, h⟩ := run_bind_eq_ok.mp h
  obtain ⟨_, s₃, h₃, h⟩ := run_bind_eq_ok.mp h
  obtain ⟨_, s₄, h₄, h⟩ := run_bind_eq_ok.mp h
  obtain ⟨r, s₅, h₅, h⟩ := run_bind_eq_ok.mp h
  cases h
  obtain rfl := need_eq_ok h₁
  obtain rfl := fit_eq_ok h₂
  obtain rfl := fit_eq_ok h₃
  obtain rfl := fit?_eq_ok h₄
  rw [run_add] at h₅
  split at h₅
  · cases h₅
  · rename_i htable
    cases h₅
    exact ⟨rfl, Bool.not_eq_true _ ▸ htable, rfl⟩

/-- Where all ids fit, a run can be opened. -/
theorem run_openRun {now : Moment} {automationId conversationId : Int} {clientId : Option Int}
    {triggerData : Value} {s : Store} (hTable : s.absent.contains .automationRuns = false)
    (ha : fits automationId = true) (hc : fits conversationId = true)
    (hn : ∀ n, clientId = some n → fits n = true) :
    (openRun now automationId conversationId clientId triggerData).run s =
      .ok (s.nextId Run,
        s.insert (opened now automationId conversationId clientId triggerData (s.nextId Run))) := by
  have hTable' : s.absent.contains (Row.table Run) = false := hTable
  have hclient : (fit? clientId).run s = .ok ((), s) := by
    cases clientId with
    | none => rfl
    | some n => rw [fit?, run_fit, if_pos (hn n rfl)]
  refine run_bind_eq_ok.mpr ⟨(), s, by rw [run_need, hTable]; rfl, ?_⟩
  refine run_bind_eq_ok.mpr ⟨(), s, by rw [run_fit, if_pos ha], ?_⟩
  refine run_bind_eq_ok.mpr ⟨(), s, by rw [run_fit, if_pos hc], ?_⟩
  refine run_bind_eq_ok.mpr ⟨(), s, hclient, ?_⟩
  exact run_bind_eq_ok.mpr ⟨_, _, by rw [run_add, hTable']; rfl, rfl⟩

/-- A step is noted in a run that is open, and in no other. -/
theorem append_eq_ok {now : Moment} {runId : Int} {stepId kind : String} {s s' : Store}
    (h : (append now runId stepId kind).run s = .ok ((), s')) :
    ((∀ r, s.find? Run runId = some r → r.status ≠ running) ∧ s' = s) ∨
      ∃ r entries, s.find? Run runId = some r ∧ r.status = running
        ∧ entriesOf r.stepsExecuted = .ok entries
        ∧ s' = s.modify Run runId (withStep entries (traceEntry now stepId kind)) := by
  unfold append at h
  obtain ⟨found, s₁, h₁, h⟩ := run_bind_eq_ok.mp h
  obtain ⟨rfl, rfl, -⟩ := run_load_eq_ok h₁
  cases hr : s₁.find? Run runId with
  | none =>
    rw [hr] at h
    cases h
    exact .inl ⟨by simp, rfl⟩
  | some r =>
    rw [hr] at h
    simp only at h
    split at h
    · rename_i hne
      cases h
      exact .inl ⟨fun _ h => Option.some.inj h ▸ hne, rfl⟩
    · rename_i hopen
      obtain ⟨entries, s₂, h₂, h⟩ := run_bind_eq_ok.mp h
      obtain ⟨he, rfl⟩ := lift_eq_ok h₂
      cases h
      exact .inr ⟨r, entries, rfl, by simpa using hopen, he, rfl⟩

/-- A run ends that is open, and no other. -/
theorem finish_eq_ok {now : Moment} {runId : Int} {how : RunEnd} {s s' : Store}
    (h : (finish now runId how).run s = .ok ((), s')) :
    ((∀ r, s.find? Run runId = some r → r.status ≠ running) ∧ s' = s) ∨
      ∃ r, s.find? Run runId = some r ∧ r.status = running
        ∧ s' = s.modify Run runId (ended now how) := by
  unfold finish at h
  obtain ⟨found, s₁, h₁, h⟩ := run_bind_eq_ok.mp h
  obtain ⟨rfl, rfl, -⟩ := run_load_eq_ok h₁
  cases hr : s₁.find? Run runId with
  | none =>
    rw [hr] at h
    cases h
    exact .inl ⟨by simp, rfl⟩
  | some r =>
    rw [hr] at h
    simp only at h
    split at h
    · rename_i hne
      cases h
      exact .inl ⟨fun _ h => Option.some.inj h ▸ hne, rfl⟩
    · rename_i hopen
      cases h
      exact .inr ⟨r, rfl, by simpa using hopen, rfl⟩

/-- In a run that is open a step is noted. -/
theorem run_append_of_open {now : Moment} {runId : Int} {stepId kind : String} {s : Store} {r : Run}
    {entries : List Value} (hTable : s.absent.contains .automationRuns = false)
    (hFit : fits runId = true) (hr : s.find? Run runId = some r) (h : r.status = running)
    (he : entriesOf r.stepsExecuted = .ok entries) :
    (append now runId stepId kind).run s =
      .ok ((), s.modify Run runId (withStep entries (traceEntry now stepId kind))) := by
  refine run_bind_eq_ok.mpr ⟨some r, s, hr ▸ run_load_of_fits hTable hFit, ?_⟩
  simp only [if_neg (not_not_intro h)]
  exact run_bind_eq_ok.mpr ⟨entries, s, run_lift_ok he s, rfl⟩

/-- A run that is open ends. -/
theorem run_finish_of_open {now : Moment} {runId : Int} {how : RunEnd} {s : Store} {r : Run}
    (hTable : s.absent.contains .automationRuns = false) (hFit : fits runId = true)
    (hr : s.find? Run runId = some r) (h : r.status = running) :
    (finish now runId how).run s = .ok ((), s.modify Run runId (ended now how)) := by
  refine run_bind_eq_ok.mpr ⟨some r, s, hr ▸ run_load_of_fits hTable hFit, ?_⟩
  simp only [if_neg (not_not_intro h)]
  rfl

theorem status_ended_ne (now : Moment) (how : RunEnd) (r : Run) :
    (ended now how r).status ≠ running := by
  cases how <;> simp [ended, RunEnd.status, running]

theorem run_append_of_finished {now : Moment} {runId : Int} {stepId kind : String} {s : Store}
    {r : Run} (hTable : s.absent.contains .automationRuns = false) (hFit : fits runId = true)
    (hr : s.find? Run runId = some r) (h : r.status ≠ running) :
    (append now runId stepId kind).run s = .ok ((), s) := by
  refine run_bind_eq_ok.mpr ⟨some r, s, hr ▸ run_load_of_fits hTable hFit, ?_⟩
  simp only [if_pos h]
  rfl

theorem run_finish_of_finished {now : Moment} {runId : Int} {how : RunEnd} {s : Store} {r : Run}
    (hTable : s.absent.contains .automationRuns = false) (hFit : fits runId = true)
    (hr : s.find? Run runId = some r) (h : r.status ≠ running) :
    (finish now runId how).run s = .ok ((), s) := by
  refine run_bind_eq_ok.mpr ⟨some r, s, hr ▸ run_load_of_fits hTable hFit, ?_⟩
  simp only [if_pos h]
  rfl

theorem listsBefore_trans (a b c : Run) (h₁ : listsBefore a b = true)
    (h₂ : listsBefore b c = true) : listsBefore a c = true := by
  simp only [listsBefore, Bool.or_eq_true, Bool.and_eq_true, decide_eq_true_eq] at *
  rcases h₁ with h₁ | ⟨h₁, i₁⟩ <;> rcases h₂ with h₂ | ⟨h₂, i₂⟩
  · exact .inl (Moment.isBefore_trans h₂ h₁)
  · exact .inl (h₂ ▸ h₁)
  · exact .inl (h₁ ▸ h₂)
  · exact .inr ⟨h₁.trans h₂, Int.le_trans i₂ i₁⟩

theorem listsBefore_total (a b : Run) : (listsBefore a b || listsBefore b a) = true := by
  simp only [listsBefore, Bool.or_eq_true, Bool.and_eq_true, decide_eq_true_eq]
  rcases Moment.isBefore_or_eq a.startedAt b.startedAt with h | h | h
  · exact .inr (.inl h)
  · rcases Int.le_total b.id a.id with i | i
    · exact .inl (.inr ⟨h, i⟩)
    · exact .inr (.inr ⟨h.symm, i⟩)
  · exact .inl (.inl h)

theorem listed_pairwise (runs : List Run) (automationId : Int) :
    (listed runs automationId).Pairwise fun a b => listsBefore a b = true :=
  sortBy_pairwise listsBefore_trans listsBefore_total _

end RunLog

end Deskflow
