import Deskflow.Desk.Call
import Deskflow.Proofs.ResumeOnce

/-!
# The log is only added to

A run is opened, its steps are noted in its trace, and it ends once. Whoever writes the log, in
whatever order and with whatever ids, what has been written stays: between any two moments a run
that is open only gets entries at the end of its trace, and a run that has ended stays as it is. The
ids of runs can be any values here, of which some stand for a run and some for none.

What may become of a run is `Run.Onward`, and what may become of the log `Store.Continues`. Both say
by a predicate how runs may end, as the engine ends them in fewer ways than can be asked for: it
never leaves out what went wrong.

The log is written by `open_run`, `append_step`, `complete` and `fail`.

* `writes_performed`: what a call makes of the log.
* `Writes.continues`, `continues_after`: one call and any number of them add to the log only.
* `furthers_handle`: so does everything the engine does.
* `Chronicle.sound`: a run that the engine made is sound, and says what went wrong if it failed.
* `adds_only`: the result.
-/

namespace Deskflow

open Transaction

/-- An end of a run that does not leave out what went wrong. -/
def RunEnd.SaysWhy (how : RunEnd) : Prop := how ≠ .failed ""

/-! ## What may become of a run -/

namespace Run

/-- A run as it goes on: nothing but its trace changes, at its end, until it ends in one of some
ways; then nothing does. -/
structure Onward (Ends : RunEnd → Prop) (r q : Run) : Prop where
  settled : q = { r with
    status := q.status
    stepsExecuted := q.stepsExecuted
    error := q.error
    completedAt := q.completedAt }
  trace : q.stepsExecuted = r.stepsExecuted ∨
    ∃ entries more, RunLog.entriesOf r.stepsExecuted = .ok entries
      ∧ q.stepsExecuted = .list (entries ++ more)
  status : (q.status = r.status ∧ q.error = r.error ∧ q.completedAt = r.completedAt) ∨
    r.status = RunLog.running ∧ ∃ now how, Ends how ∧ q.status = RunLog.RunEnd.status how
      ∧ q.error = RunLog.RunEnd.error? how ∧ q.completedAt = some now
  finished : r.status ≠ RunLog.running → q = r

/-- A run that is open has not come to an end, one that failed says why, and its trace is a list. -/
structure Sound (r : Run) : Prop where
  status : r.status = RunLog.running ∨ ∃ how, r.status = RunLog.RunEnd.status how
  completedAt : r.completedAt = none ↔ r.status = RunLog.running
  error : r.error ≠ none ↔ r.status = "failed"
  trace : ∃ entries, r.stepsExecuted = .list entries

/-- A run that failed says what went wrong. -/
def SaysWhy (r : Run) : Prop := r.status = "failed" → ∃ error, r.error = some error ∧ error ≠ ""

section

variable {Ends : RunEnd → Prop} {p q r : Run}

theorem Onward.refl (r : Run) : Onward Ends r r where
  settled := rfl
  trace := .inl rfl
  status := .inl ⟨rfl, rfl, rfl⟩
  finished _ := rfl

theorem Onward.trans (h : Onward Ends p q) (k : Onward Ends q r) : Onward Ends p r where
  settled := by
    rw [k.settled, h.settled]
  trace := by
    rcases h.trace with hq | ⟨entries, more, hentries, hq⟩
    · rw [← hq]
      exact k.trace
    · rcases k.trace with hr | ⟨entries', more', hentries', hr⟩
      · exact .inr ⟨entries, more, hentries, hr.trans hq⟩
      · rw [hq, RunLog.entriesOf_list] at hentries'
        obtain rfl := Except.ok.inj hentries'
        exact .inr ⟨entries, more ++ more', hentries, by rw [hr, List.append_assoc]⟩
  status := by
    rcases h.status with ⟨hstatus, herror, hcompleted⟩ | ⟨hopen, now, how, hends, hstatus, herror,
      hcompleted⟩
    · rw [← hstatus, ← herror, ← hcompleted]
      exact k.status
    · obtain rfl := k.finished (hstatus ▸ RunLog.status_ended_ne now how q)
      exact .inr ⟨hopen, now, how, hends, hstatus, herror, hcompleted⟩
  finished hp := by
    obtain rfl := h.finished hp
    exact k.finished hp

theorem onward_withStep {entries : List Value} (hopen : r.status = RunLog.running)
    (he : RunLog.entriesOf r.stepsExecuted = .ok entries) (entry : Value) :
    Onward Ends r (RunLog.withStep entries entry r) where
  settled := rfl
  trace := .inr ⟨entries, [entry], he, rfl⟩
  status := .inl ⟨rfl, rfl, rfl⟩
  finished hne := absurd hopen hne

theorem onward_ended (hopen : r.status = RunLog.running) {how : RunEnd} (hends : Ends how)
    (now : Moment) : Onward Ends r (RunLog.ended now how r) where
  settled := rfl
  trace := .inl rfl
  status := .inr ⟨hopen, now, how, hends, rfl, rfl, rfl⟩
  finished hne := absurd hopen hne

theorem Onward.sound (h : Onward Ends r q) (hr : r.Sound) : q.Sound where
  status := by
    rcases h.status with ⟨hstatus, -, -⟩ | ⟨-, now, how, -, hstatus, -⟩
    · rw [hstatus]
      exact hr.status
    · exact .inr ⟨how, hstatus⟩
  completedAt := by
    rcases h.status with ⟨hstatus, -, hcompleted⟩ | ⟨-, now, how, -, hstatus, -, hcompleted⟩
    · rw [hstatus, hcompleted]
      exact hr.completedAt
    · rw [hstatus, hcompleted]
      exact iff_of_false (by simp) (RunLog.status_ended_ne now how q)
  error := by
    rcases h.status with ⟨hstatus, herror, -⟩ | ⟨-, now, how, -, hstatus, herror, -⟩
    · rw [hstatus, herror]
      exact hr.error
    · rw [hstatus, herror]
      cases how <;> simp [RunLog.RunEnd.status, RunLog.RunEnd.error?]
  trace := by
    rcases h.trace with htrace | ⟨entries, more, -, htrace⟩
    · rw [htrace]
      exact hr.trace
    · exact ⟨_, htrace⟩

theorem Onward.saysWhy (h : Onward RunEnd.SaysWhy r q) (hr : r.SaysWhy) : q.SaysWhy := by
  rcases h.status with ⟨hstatus, herror, -⟩ | ⟨-, now, how, hends, hstatus, herror, -⟩
  · unfold SaysWhy
    rw [hstatus, herror]
    exact hr
  · intro hfailed
    cases how with
    | completed => simp [hstatus, RunLog.RunEnd.status] at hfailed
    | failed error => exact ⟨error, herror, fun hempty => hends (hempty ▸ rfl)⟩

theorem sound_opened (now : Moment) (automationId conversationId : Int) (clientId : Option Int)
    (data : Value) (id : Int) :
    (RunLog.opened now automationId conversationId clientId data id).Sound where
  status := .inl rfl
  completedAt := by simp [RunLog.opened]
  error := by simp [RunLog.opened, RunLog.running]
  trace := ⟨[], rfl⟩

theorem saysWhy_opened (now : Moment) (automationId conversationId : Int) (clientId : Option Int)
    (data : Value) (id : Int) :
    (RunLog.opened now automationId conversationId clientId data id).SaysWhy := by
  intro hfailed
  simp [RunLog.opened, RunLog.running] at hfailed

end

end Run

/-! ## What may become of the log -/

namespace Store

/-- A log that goes on: every run is there still, and is carried on at most; every other run has
been opened since. -/
structure Continues (Ends : RunEnd → Prop) (s t : Store) : Prop where
  kept : ∀ id r, s.find? Run id = some r → ∃ q, t.find? Run id = some q ∧ r.Onward Ends q
  added : ∀ id q, s.find? Run id = none → t.find? Run id = some q →
    ∃ now automationId conversationId clientId data,
      (RunLog.opened now automationId conversationId clientId data id).Onward Ends q

section

variable {Ends : RunEnd → Prop} {s t u : Store}

theorem Continues.of_runs (h : t.runs = s.runs) : Continues Ends s t := by
  have hfind : ∀ id, t.find? Run id = s.find? Run id := fun id =>
    congrArg (List.find? fun r : Run => Row.id r == id) h
  refine ⟨fun id r hr => ⟨r, (hfind id).trans hr, .refl r⟩, fun id q hnone hq => ?_⟩
  rw [← hfind id, hq] at hnone
  cases hnone

theorem Continues.trans (h : Continues Ends s t) (k : Continues Ends t u) : Continues Ends s u where
  kept id r hr := by
    obtain ⟨q, hq, hrq⟩ := h.kept id r hr
    obtain ⟨p, hp, hqp⟩ := k.kept id q hq
    exact ⟨p, hp, hrq.trans hqp⟩
  added id p hnone hp := by
    cases ht : t.find? Run id with
    | none => exact k.added id p ht hp
    | some q =>
      obtain ⟨now, automationId, conversationId, clientId, data, hq⟩ := h.added id q hnone ht
      obtain ⟨p', hp', hqp⟩ := k.kept id q ht
      obtain rfl := Option.some.inj (hp.symm.trans hp')
      exact ⟨now, automationId, conversationId, clientId, data, hq.trans hqp⟩

/-- What holds of a run as it is opened, and still when it is carried on, holds of all that were
opened since. -/
theorem Continues.all {P : Run → Prop} (h : Continues Ends s t)
    (opened : ∀ now automationId conversationId clientId data id,
      P (RunLog.opened now automationId conversationId clientId data id))
    (onward : ∀ r q, r.Onward Ends q → P r → P q) {id : Int} {q : Run}
    (hq : t.find? Run id = some q) (hs : ∀ r, s.find? Run id = some r → P r) : P q := by
  cases hr : s.find? Run id with
  | none =>
    obtain ⟨now, automationId, conversationId, clientId, data, honward⟩ := h.added id q hr hq
    exact onward _ q honward (opened ..)
  | some r =>
    obtain ⟨q', hq', honward⟩ := h.kept id r hr
    obtain rfl := Option.some.inj (hq.symm.trans hq')
    exact onward r q honward (hs r hr)

/-- A run that is opened is added, -/
theorem continues_insert (s : Store) (now : Moment) (automationId conversationId : Int)
    (clientId : Option Int) (data : Value) :
    Continues Ends s
      (s.insert (RunLog.opened now automationId conversationId clientId data (s.nextId Run))) where
  kept id r hr := by
    have hne : s.nextId Run ≠ id := fun h => by
      rw [← h, find?_nextId] at hr
      cases hr
    exact ⟨r, (find?_insert_ne s _ hne).trans hr, .refl r⟩
  added id q hnone hq := by
    by_cases hid : s.nextId Run = id
    · subst hid
      have hself := find?_insert_self s
        (RunLog.opened now automationId conversationId clientId data (s.nextId Run)) hnone
      obtain rfl := Option.some.inj (hself.symm.trans hq)
      exact ⟨now, automationId, conversationId, clientId, data, .refl _⟩
    · have hother := find?_insert_ne s
        (RunLog.opened now automationId conversationId clientId data (s.nextId Run)) hid
      rw [hother, hnone] at hq
      cases hq

/-- and one that is there is carried on. -/
theorem continues_modify {id : Int} {r : Run} (hr : s.find? Run id = some r) {f : Run → Run}
    (hf : ∀ p, (f p).id = p.id) (honward : r.Onward Ends (f r)) :
    Continues Ends s (s.modify Run id f) where
  kept other p hp := by
    by_cases hid : other = id
    · subst hid
      obtain rfl := Option.some.inj (hr.symm.trans hp)
      exact ⟨f r, find?_modify_of_some hf hr, honward⟩
    · exact ⟨p, (find?_modify_ne s f hf hid).trans hp, .refl p⟩
  added other q hnone hq := by
    by_cases hid : other = id
    · subst hid
      rw [hr] at hnone
      cases hnone
    · rw [find?_modify_ne s f hf hid, hnone] at hq
      cases hq

end

end Store

/-! ## Calls that write the log -/

/-- A call that writes the log. -/
inductive LogCall where
  | openRun (automationId conversationId clientId triggerData : Value)
  | appendStep (runId : Value) (stepId kind : String)
  | finish (runId : Value) (how : RunEnd)

namespace LogCall

/-- The call as one on the desk's data. -/
def call : LogCall → Call
  | openRun automationId conversationId clientId data =>
    .openRun automationId conversationId clientId data
  | appendStep runId stepId kind => .appendStep runId stepId kind
  | finish runId .completed => .completeRun runId
  | finish runId (.failed error) => .failRun runId error

/-- The run that it is about, if it names one. -/
def runId? : LogCall → Option Int
  | openRun .. => none
  | appendStep runId .. | finish runId _ => runId.toInt.toOption

end LogCall

/-- The store after a call: as it was, if the call is refused. -/
def Store.performed (now : Moment) (s : Store) (c : LogCall) : Store :=
  match (c.call.perform now).run s with
  | .ok (_, t) => t
  | .error _ => s

/-- The store after calls at some times. -/
def Store.performedAll (s : Store) (calls : List (Moment × LogCall)) : Store :=
  calls.foldl (fun s p => s.performed p.1 p.2) s

/-- What a call makes of the log. -/
inductive Writes (now : Moment) (s : Store) : LogCall → Store → Prop
  | nothing (c : LogCall) : Writes now s c s
  | opens (automationId conversationId clientId data : Value) (a c : Int) (client : Option Int) :
      Writes now s (.openRun automationId conversationId clientId data)
        (s.insert (RunLog.opened now a c client data (s.nextId Run)))
  | notes (runId : Value) (stepId kind : String) (id : Int) (r : Run) (entries : List Value)
      (named : runId.toInt = .ok id) (found : s.find? Run id = some r)
      (going : r.status = RunLog.running)
      (readable : RunLog.entriesOf r.stepsExecuted = .ok entries) :
      Writes now s (.appendStep runId stepId kind)
        (s.modify Run id (RunLog.withStep entries (RunLog.traceEntry now stepId kind)))
  | ends (runId : Value) (how : RunEnd) (id : Int) (r : Run) (named : runId.toInt = .ok id)
      (found : s.find? Run id = some r) (going : r.status = RunLog.running) :
      Writes now s (.finish runId how) (s.modify Run id (RunLog.ended now how))

section

variable {now : Moment} {s t : Store} {c : LogCall} {v : Value}

/-- The call that ends a run reads its id, and then ends it. -/
theorem perform_finish (runId : Value) (how : RunEnd) :
    (LogCall.finish runId how).call.perform now = do
      RunLog.finish now (← runId.toInt) how
      return .null := by
  cases how <;> rfl

theorem writes_of_run (h : (c.call.perform now).run s = .ok (v, t)) : Writes now s c t := by
  cases c with
  | openRun automationId conversationId clientId data =>
    simp only [LogCall.call, Call.perform, Call.beginRun] at h
    obtain ⟨a, s₁, h₁, h⟩ := run_bind_eq_ok.mp h
    obtain ⟨-, rfl⟩ := lift_eq_ok h₁
    obtain ⟨conversation, s₂, h₂, h⟩ := run_bind_eq_ok.mp h
    obtain ⟨-, rfl⟩ := lift_eq_ok h₂
    have hopens : ∀ {client : Option Int}, (do
        return .int (← RunLog.openRun now a conversation client data) : Transaction Value).run s
          = .ok (v, t) → Writes now s (.openRun automationId conversationId clientId data) t := by
      intro client h
      obtain ⟨id, s₃, h₃, h⟩ := run_bind_eq_ok.mp h
      cases h
      obtain ⟨rfl, -, rfl⟩ := RunLog.openRun_eq_ok h₃
      exact .opens automationId conversationId clientId data a conversation client
    split at h
    · exact hopens h
    · rw [map_eq_pure_bind, bind_assoc] at h
      obtain ⟨client, s₃, h₃, h⟩ := run_bind_eq_ok.mp h
      obtain ⟨-, rfl⟩ := lift_eq_ok h₃
      exact hopens h
  | appendStep runId stepId kind =>
    simp only [LogCall.call, Call.perform] at h
    obtain ⟨id, s₁, h₁, h⟩ := run_bind_eq_ok.mp h
    obtain ⟨hid, rfl⟩ := lift_eq_ok h₁
    obtain ⟨_, s₂, h₂, h⟩ := run_bind_eq_ok.mp h
    cases h
    rcases RunLog.append_eq_ok h₂ with ⟨-, rfl⟩ | ⟨r, entries, hr, hopen, he, rfl⟩
    · exact .nothing _
    · exact .notes runId stepId kind id r entries hid hr hopen he
  | finish runId how =>
    rw [perform_finish] at h
    obtain ⟨id, s₁, h₁, h⟩ := run_bind_eq_ok.mp h
    obtain ⟨hid, rfl⟩ := lift_eq_ok h₁
    obtain ⟨_, s₂, h₂, h⟩ := run_bind_eq_ok.mp h
    cases h
    rcases RunLog.finish_eq_ok h₂ with ⟨-, rfl⟩ | ⟨r, hr, hopen, rfl⟩
    · exact .nothing _
    · exact .ends runId how id r hid hr hopen

theorem performed_of_run (h : (c.call.perform now).run s = .ok (v, t)) : s.performed now c = t := by
  rw [Store.performed, h]

/-- Where all ids fit, a run is opened, -/
theorem performed_openRun {automationId conversationId : Int} {clientId : Option Int} {data : Value}
    (table : s.absent.contains .automationRuns = false) (ha : fits automationId = true)
    (hc : fits conversationId = true) (hn : ∀ n, clientId = some n → fits n = true) :
    s.performed now (.openRun (.int automationId) (.int conversationId) (.ofInt? clientId) data)
      = s.insert
        (RunLog.opened now automationId conversationId clientId data (s.nextId Run)) := by
  have hopen : (RunLog.openRun now automationId conversationId clientId data).run s = _ :=
    RunLog.run_openRun table ha hc hn
  refine performed_of_run (v := .int (s.nextId Run)) ?_
  refine run_bind_eq_ok.mpr ⟨automationId, s, run_lift_ok (Value.toInt_int _) s, ?_⟩
  refine run_bind_eq_ok.mpr ⟨conversationId, s, run_lift_ok (Value.toInt_int _) s, ?_⟩
  cases clientId with
  | none =>
    refine run_bind_eq_ok.mpr ⟨none, s, rfl, ?_⟩
    exact run_bind_eq_ok.mpr ⟨_, _, hopen, rfl⟩
  | some n =>
    refine run_bind_eq_ok.mpr ⟨some n, s, rfl, ?_⟩
    exact run_bind_eq_ok.mpr ⟨_, _, hopen, rfl⟩

section

variable {id : Int} {r : Run} (table : s.absent.contains .automationRuns = false)
  (hid : fits id = true) (hr : s.find? Run id = some r) (hopen : r.status = RunLog.running)

include table hid hr hopen

/-- in an open run a step is noted, -/
theorem performed_appendStep {stepId kind : String} {entries : List Value}
    (he : RunLog.entriesOf r.stepsExecuted = .ok entries) :
    s.performed now (.appendStep (.int id) stepId kind)
      = s.modify Run id (RunLog.withStep entries (RunLog.traceEntry now stepId kind)) := by
  refine performed_of_run (v := .null) ?_
  refine run_bind_eq_ok.mpr ⟨id, s, run_lift_ok (Value.toInt_int _) s, ?_⟩
  exact run_bind_eq_ok.mpr ⟨(), _, RunLog.run_append_of_open table hid hr hopen he, rfl⟩

/-- and it ends. -/
theorem performed_finish {how : RunEnd} :
    s.performed now (.finish (.int id) how) = s.modify Run id (RunLog.ended now how) := by
  refine performed_of_run (v := .null) ?_
  rw [perform_finish]
  refine run_bind_eq_ok.mpr ⟨id, s, run_lift_ok (Value.toInt_int _) s, ?_⟩
  exact run_bind_eq_ok.mpr ⟨(), _, RunLog.run_finish_of_open table hid hr hopen, rfl⟩

end

/-- **Every call does one of these things to the log.** -/
theorem writes_performed (now : Moment) (s : Store) (c : LogCall) :
    Writes now s c (s.performed now c) := by
  unfold Store.performed
  split
  · rename_i h
    exact writes_of_run h
  · exact .nothing c

theorem Writes.continues (h : Writes now s c t) : s.Continues (fun _ => True) t := by
  cases h with
  | nothing => exact .of_runs rfl
  | opens => exact Store.continues_insert s now _ _ _ _
  | notes runId stepId kind id r entries named found going readable =>
    exact Store.continues_modify found (fun _ => rfl) (Run.onward_withStep going readable _)
  | ends runId how id r named found going =>
    exact Store.continues_modify found (fun _ => rfl) (Run.onward_ended going trivial now)

/-- A call writes nothing but runs, -/
theorem Writes.aside (h : Writes now s c t) : ∃ runs, t = { s with runs } := by
  cases h <;> exact ⟨_, rfl⟩

/-- and of these only the one that it names. -/
theorem Writes.other (h : Writes now s c t) {id : Int} (hid : c.runId? ≠ some id) {r : Run}
    (hr : s.find? Run id = some r) : t.find? Run id = some r := by
  cases h with
  | nothing => exact hr
  | opens =>
    have hne : s.nextId Run ≠ id := fun h => by
      rw [← h, Store.find?_nextId] at hr
      cases hr
    exact (Store.find?_insert_ne s _ hne).trans hr
  | notes runId stepId kind other _ entries named =>
    have hne : id ≠ other := fun h => hid (by rw [h, LogCall.runId?, named]; rfl)
    exact (Store.find?_modify_ne s (RunLog.withStep entries _) (fun _ => rfl) hne).trans hr
  | ends runId how other _ named =>
    have hne : id ≠ other := fun h => hid (by rw [h, LogCall.runId?, named]; rfl)
    exact (Store.find?_modify_ne s (RunLog.ended now how) (fun _ => rfl) hne).trans hr

/-- A call that names a run which is not there, or is over, does nothing. -/
theorem Writes.nothing_of_not_going (h : Writes now s c t) {id : Int} (hid : c.runId? = some id)
    (hgoing : ∀ r, s.find? Run id = some r → r.status ≠ RunLog.running) : t = s := by
  cases h with
  | nothing => rfl
  | opens => cases hid
  | notes runId stepId kind other r entries named found going =>
    rw [LogCall.runId?, named] at hid
    obtain rfl := Option.some.inj hid
    exact absurd going (hgoing r found)
  | ends runId how other r named found going =>
    rw [LogCall.runId?, named] at hid
    obtain rfl := Option.some.inj hid
    exact absurd going (hgoing r found)

end

theorem Store.performedAll_append (s : Store) (before after : List (Moment × LogCall)) :
    s.performedAll (before ++ after) = (s.performedAll before).performedAll after :=
  List.foldl_append

/-- **Any number of calls only adds to the log.** -/
theorem Store.continues_performedAll (s : Store) (calls : List (Moment × LogCall)) :
    s.Continues (fun _ => True) (s.performedAll calls) := by
  induction calls generalizing s with
  | nil => exact .of_runs rfl
  | cons p rest ih => exact (writes_performed p.1 s p.2).continues.trans (ih _)

/-- They change no other table. -/
theorem Store.performedAll_aside (s : Store) (calls : List (Moment × LogCall)) :
    ∃ runs, s.performedAll calls = { s with runs } := by
  induction calls generalizing s with
  | nil => exact ⟨s.runs, rfl⟩
  | cons p rest ih =>
    obtain ⟨runs, hfirst⟩ := (writes_performed p.1 s p.2).aside
    obtain ⟨runs', hrest⟩ := ih (s.performed p.1 p.2)
    exact ⟨runs', hrest.trans (by rw [hfirst])⟩

/-! ## The engine -/

namespace Engine

open Work World

variable {settings : Settings} {w v : World}

/-- The log goes on, and what failed says why, where no script deletes a run. -/
def Furthers (w v : World) : Prop :=
  w.rehearsal.Spares .automationRuns →
    v.rehearsal.Spares .automationRuns ∧ w.store.Continues RunEnd.SaysWhy v.store

instance : Std.Refl Furthers := ⟨fun _ hspares => ⟨hspares, .of_runs rfl⟩⟩

instance : IsTrans World Furthers := ⟨fun _ _ _ h k hspares =>
  ⟨(k (h hspares).1).1, (h hspares).2.trans (k (h hspares).1).2⟩⟩

theorem Furthers.of_runs (hspares : v.rehearsal = w.rehearsal)
    (hruns : v.store.runs = w.store.runs) : Furthers w v := fun h => ⟨hspares ▸ h, .of_runs hruns⟩

theorem Furthers.of_aside (h : Aside w v) : Furthers w v := fun hspares =>
  ⟨h.spares _ hspares, .of_runs (h.runs hspares)⟩

theorem furthers_begin (ctx : Context) (head : StepHead) :
    Work.Keeps Furthers (begin ctx head) :=
  Work.Keeps.transact fun w _ s hs => by
    rcases RunLog.append_eq_ok hs with ⟨-, rfl⟩ | ⟨r, entries, hr, hopen, he, rfl⟩
    · exact Std.Refl.refl w
    · exact fun hspares => ⟨hspares,
        Store.continues_modify hr (fun _ => rfl) (Run.onward_withStep hopen he _)⟩

/-- An execution always says what went wrong. -/
theorem saysWhy_endOf (r : Except Fault Progress) : (endOf r).SaysWhy := by
  cases r with
  | ok progress => simp [endOf, RunEnd.SaysWhy]
  | error fault => simp [endOf, RunEnd.SaysWhy, Fault.summary_ne_empty]

theorem furthers_endRun (id : Int) (r : Except Fault Progress) :
    Work.Keeps Furthers (endRun id r) := by
  refine Work.Keeps.bind (Work.Keeps.modify fun w => .of_runs rfl rfl) fun _ => ?_
  refine Work.Keeps.transact fun w _ s hs => ?_
  rcases RunLog.finish_eq_ok hs with ⟨-, rfl⟩ | ⟨p, hp, hopen, rfl⟩
  · exact Std.Refl.refl w
  · exact fun hspares => ⟨hspares,
      Store.continues_modify hp (fun _ => rfl) (Run.onward_ended hopen (saysWhy_endOf r) w.clock)⟩

theorem furthers_openRun {automationId c : Int} {clientId : Option Int} {data : Value} {id : Int}
    {s : Store}
    (h : (RunLog.openRun w.clock automationId c clientId data).run w.store = .ok (id, s)) :
    Furthers w { w with store := s } := fun hspares => by
  obtain ⟨rfl, -, rfl⟩ := RunLog.openRun_eq_ok h
  exact ⟨hspares, Store.continues_insert w.store w.clock automationId c clientId data⟩

theorem furthers_awaitCondition (ctx : Context) (stepId : String) (c : Condition) :
    Work.Keeps Furthers (awaitCondition ctx stepId c) := by
  refine keeps_awaitCondition fun w facts s _ hs => ?_
  rcases Slot.save_eq_ok hs with ⟨-, rfl⟩ | ⟨k, fields, -, -, rfl⟩
  · exact .of_runs rfl rfl
  · exact .of_runs rfl rfl

theorem runwork_furthers (settings : Settings) (c : Int) : Runwork settings c Furthers where
  executes handled flow data instead :=
    keeps_execute_of_log (.of_aside settings Furthers.of_aside) (fun _ => Furthers) id
      (fun ctx _ stepId c => furthers_awaitCondition ctx stepId c) furthers_begin furthers_endRun
      (fun w _ _ _ _ _ opened v h => IsTrans.trans w _ v (furthers_openRun opened) h) handled flow
      data instead
  remembers _ _ := .of_runs rfl rfl

theorem furthers_take {c : Int} {taken : Option Suspension} {s : Store}
    (h : (Slot.take c).run w.store = .ok (taken, s)) : Furthers w { w with store := s } := by
  rcases Slot.erased_of_take h with ⟨-, rfl⟩ | ⟨k, held, fields, -, -, -, rfl⟩
  · exact .of_runs rfl rfl
  · exact .of_runs rfl rfl

/-- **Everything the engine does only adds to the log**, and says why a run failed. -/
theorem furthers_handle (settings : Settings) (o : Occurrence) :
    Work.Keeps Furthers (o.handle settings) :=
  (runwork_furthers settings _).handle furthers_take rfl

end Engine

/-- Every run that the engine made is sound, and says what went wrong if it failed. -/
theorem Chronicle.sound {w : World} (h : Chronicle w) :
    ∀ id q, w.store.find? Run id = some q → q.Sound ∧ q.SaysWhy := by
  induction h with
  | @start w h =>
    intro id q hq
    have hnone : w.store.find? Run id = none := List.find?_eq_none.mpr fun r hr => by
      rw [show (Row.rows w.store : List Run) = [] from h.runs] at hr
      cases hr
    rw [hnone] at hq
    cases hq
  | @event w settings o h ih =>
    intro id q hq
    refine (Engine.furthers_handle settings o w h.orderly.spares).2.all
      (fun _ _ _ _ _ _ => ⟨Run.sound_opened .., Run.saysWhy_opened _ _ _ _ _ _⟩)
      (fun r p honward hr => ⟨honward.sound hr.1, honward.saysWhy hr.2⟩) hq (ih id)
  | @meanwhile w v _ hv ih =>
    intro id q hq
    have hsame : v.store.find? Run id = w.store.find? Run id :=
      congrArg (List.find? fun r : Run => Row.id r == id) hv.runs
    exact ih id q (hsame ▸ hq)

/-! ## The result -/

/-- The log is only added to. -/
structure AddsOnly (s : Store) (calls : List (Moment × LogCall)) : Prop where
  /-- Between any two moments, whatever is called in between, a run that is open keeps what was
  settled when it was opened, gets entries at the end of its trace, and may come to an end, and a
  run that has ended stays as it is. Runs are opened besides. -/
  onward : ∀ before after, calls = before ++ after →
    (s.performedAll before).Continues (fun _ => True) (s.performedAll calls)
  /-- No other table is changed. -/
  aside : ∃ runs, s.performedAll calls = { s with runs }
  /-- A run has a time of its end just if it has ended, and an error just if it failed, if that was
  so at first. -/
  sound : ∀ id q, (s.performedAll calls).find? Run id = some q →
    (∀ r, s.find? Run id = some r → r.Sound) → q.Sound
  /-- A call leaves alone every run but the one that it names, -/
  others : ∀ now (c : LogCall) id r, s.find? Run id = some r → c.runId? ≠ some id →
    (s.performed now c).find? Run id = some r
  /-- and does nothing at all where that is not there or has ended. -/
  still : ∀ now (c : LogCall) id, c.runId? = some id →
    (∀ r, s.find? Run id = some r → r.status ≠ RunLog.running) → s.performed now c = s
  /-- Otherwise runs are opened, -/
  opens : ∀ now automationId conversationId clientId data,
    s.absent.contains .automationRuns = false → fits automationId = true →
      fits conversationId = true → (∀ n, clientId = some n → fits n = true) →
        s.performed now (.openRun (.int automationId) (.int conversationId) (.ofInt? clientId) data)
          = s.insert
            (RunLog.opened now automationId conversationId clientId data (s.nextId Run))
  /-- steps are noted in them, -/
  notes : ∀ now id stepId kind r entries, s.absent.contains .automationRuns = false →
    fits id = true → s.find? Run id = some r → r.status = RunLog.running →
      RunLog.entriesOf r.stepsExecuted = .ok entries →
        s.performed now (.appendStep (.int id) stepId kind)
          = s.modify Run id (RunLog.withStep entries (RunLog.traceEntry now stepId kind))
  /-- and they end. -/
  ends : ∀ now id how r, s.absent.contains .automationRuns = false → fits id = true →
    s.find? Run id = some r → r.status = RunLog.running →
      s.performed now (.finish (.int id) how) = s.modify Run id (RunLog.ended now how)
  /-- What comes to the engine adds to the log in the same way, with all the runs that it sets off,
  and no run fails without a reason, -/
  engine : ∀ settings (o : Engine.Occurrence) (w : World), w.rehearsal.Spares .automationRuns →
    w.store.Continues RunEnd.SaysWhy ((o.handle settings).runOn w).2.store
  /-- so that over any chronicle runs are sound, and those that failed say why. -/
  made : ∀ w, Chronicle w → ∀ id q, w.store.find? Run id = some q → q.Sound ∧ q.SaysWhy

/-- **The log is only added to**, over any calls in any order, and so it is by the engine. -/
theorem adds_only (s : Store) (calls : List (Moment × LogCall)) : AddsOnly s calls where
  onward before after hcalls := by
    rw [hcalls, Store.performedAll_append]
    exact Store.continues_performedAll _ after
  aside := Store.performedAll_aside s calls
  sound id q hq hsound := (Store.continues_performedAll s calls).all
    (fun _ _ _ _ _ _ => Run.sound_opened ..) (fun _ _ honward hr => honward.sound hr) hq hsound
  others now c _ _ hr hid := (writes_performed now s c).other hid hr
  still now c _ hid hgoing := (writes_performed now s c).nothing_of_not_going hid hgoing
  opens _ _ _ _ _ table ha hc hn := performed_openRun table ha hc hn
  notes _ _ _ _ _ _ table hid hr hopen he := performed_appendStep table hid hr hopen he
  ends _ _ _ _ table hid hr hopen := performed_finish table hid hr hopen
  engine settings o w hspares := (Engine.furthers_handle settings o w hspares).2
  made _ h := h.sound

/-- A run that was completed stays so, whatever is tried after that. -/
example :
    ((({} : Store).performedAll
      [(⟨0⟩, .openRun (.int 1) (.int 1) .null .null), (⟨1⟩, .appendStep (.str "1") "s1" "delay"),
        (⟨2⟩, .finish (.int 1) .completed), (⟨3⟩, .finish (.int 1) (.failed "late")),
        (⟨4⟩, .appendStep (.int 1) "s2" "delay")]).runs.map fun r => (r.status, r.completedAt))
      = [("completed", some ⟨2⟩)] := by decide +kernel

end Deskflow
