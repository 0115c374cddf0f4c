import Deskflow.Proofs.RunCourse

/-!
# Runs leave each other alone

A run may set off other runs, which are opened, carried out and ended while it goes on. Each of
them writes its own row only: from one world to another, `Leaves` says of the runs that were there
that all but those of `own` stay as they are, and of those that were added that they are `Fine`.

Nobody else is at the desk meanwhile: no script deletes a run, an automation or a step
(`World.Undisturbed`).

* `isolates_execute`: an execution leaves every run alone that was there before.
* `isolates_handler`: so does whatever comes of a change of tags.
-/

namespace Deskflow

/-- The stored steps are these, and no script deletes a run, an automation or a step. -/
structure World.Undisturbed (steps : List StepRow) (w : World) : Prop where
  runs : w.rehearsal.Spares .automationRuns
  automations : w.rehearsal.Spares .automations
  stepRows : w.rehearsal.Spares .automationSteps
  stored : w.store.steps = steps

namespace Engine

open Work World

/-- Runs but those of `own` stay as they are, all stay in their automations and conversations, and
those that are added are fine. -/
structure Leaves (steps : List StepRow) (own : Int → Prop) (Fine : Run → Prop) (w v : World) :
    Prop where
  undisturbed : v.Undisturbed steps
  absent : v.store.absent = w.store.absent
  kept : ∀ id p, ¬own id → w.store.find? Run id = some p → v.store.find? Run id = some p
  owned : ∀ id p, w.store.find? Run id = some p → ∃ q, v.store.find? Run id = some q
    ∧ q.automationId = p.automationId ∧ q.conversationId = p.conversationId
  added : ∀ id p, ¬own id → w.store.find? Run id = none → v.store.find? Run id = some p → Fine p

/-- The same of a world that is not disturbed. -/
def Isolates (steps : List StepRow) (own : Int → Prop) (Fine : Run → Prop) (w v : World) : Prop :=
  w.Undisturbed steps → Leaves steps own Fine w v

variable {steps : List StepRow} {own : Int → Prop} {Fine : Run → Prop}

theorem Leaves.refl {w : World} (h : w.Undisturbed steps) : Leaves steps own Fine w w where
  undisturbed := h
  absent := rfl
  kept _ _ _ h := h
  owned _ p h := ⟨p, h, rfl, rfl⟩
  added _ p _ h h' := by rw [h] at h'; cases h'

theorem Leaves.trans {u v w : World} (h : Leaves steps own Fine u v)
    (k : Leaves steps own Fine v w) : Leaves steps own Fine u w where
  undisturbed := k.undisturbed
  absent := k.absent.trans h.absent
  kept id p hid hp := k.kept id p hid (h.kept id p hid hp)
  owned id p hp := by
    obtain ⟨q, hq, ha, hc⟩ := h.owned id p hp
    obtain ⟨r, hr, ha', hc'⟩ := k.owned id q hq
    exact ⟨r, hr, ha'.trans ha, hc'.trans hc⟩
  added id p hid hnone hp := by
    cases hv : v.store.find? Run id with
    | none => exact k.added id p hid hv hp
    | some q =>
      have hq := h.added id q hid hnone hv
      rw [k.kept id q hid hv] at hp
      exact Option.some.inj hp ▸ hq

instance : Std.Refl (Isolates steps own Fine) := ⟨fun _ => Leaves.refl⟩

instance : IsTrans World (Isolates steps own Fine) :=
  ⟨fun _ _ _ h k hu => (h hu).trans (k (h hu).undisturbed)⟩

/-- What leaves all runs alone leaves alone all but some. -/
theorem Isolates.weaken {w v : World} (h : Isolates steps (fun _ => False) Fine w v) :
    Isolates steps own Fine w v := fun hu =>
  { undisturbed := (h hu).undisturbed
    absent := (h hu).absent
    kept := fun n p _ => (h hu).kept n p not_false
    owned := (h hu).owned
    added := fun n p _ => (h hu).added n p not_false }

/-- What does not change the runs leaves every run alone. -/
theorem Leaves.of_runs {w v : World} (hv : v.Undisturbed steps)
    (hruns : v.store.runs = w.store.runs) (habsent : v.store.absent = w.store.absent) :
    Leaves steps own Fine w v :=
  have hfind : ∀ id, v.store.find? Run id = w.store.find? Run id := fun id =>
    congrArg (List.find? fun r : Run => Row.id r == id) hruns
  { undisturbed := hv
    absent := habsent
    kept := fun id p _ hp => (hfind id).trans hp
    owned := fun id p hp => ⟨p, (hfind id).trans hp, rfl, rfl⟩
    added := fun id p _ hnone hp => by
      rw [← hfind id, hp] at hnone
      cases hnone }

theorem Isolates.of_aside {w v : World} (h : Aside w v) : Isolates steps own Fine w v := fun hu =>
  Leaves.of_runs
    { runs := h.spares _ hu.runs
      automations := h.spares _ hu.automations
      stepRows := h.spares _ hu.stepRows
      stored := (h.steps hu.automations hu.stepRows).trans hu.stored }
    (h.runs hu.runs) h.absent

theorem Isolates.of_memory (w : World) (m : Memory) :
    Isolates steps own Fine w { w with memory := m } := fun hu =>
  Leaves.of_runs ⟨hu.runs, hu.automations, hu.stepRows, hu.stored⟩ rfl rfl

/-- A change of a run's own row that leaves alone what was settled when it was opened. -/
theorem Isolates.modify_run (w : World) {id : Int} {f : Run → Run}
    (hf : ∀ r, (f r).opening = r.opening) :
    Isolates steps (· = id) Fine w { w with store := w.store.modify Run id f } := fun hu =>
  have hid : ∀ r, (f r).id = r.id := fun r => congrArg Opening.id (hf r)
  have hne : ∀ other, other ≠ id →
      (w.store.modify Run id f).find? Run other = w.store.find? Run other := fun other h =>
    Store.find?_modify_ne w.store f hid h
  { undisturbed := ⟨hu.runs, hu.automations, hu.stepRows, hu.stored⟩
    absent := rfl
    kept := fun other p h hp => (hne other h).trans hp
    owned := fun other p hp => by
      refine ⟨if Row.id p == id then f p else p, ?_, ?_, ?_⟩
      · show (w.store.modify Run id f).find? Run other = _
        rw [Store.find?_modify w.store id other f hid, hp]
        rfl
      · split
        · exact congrArg Opening.automationId (hf p)
        · rfl
      · split
        · exact congrArg Opening.conversationId (hf p)
        · rfl
    added := fun other p h hnone hp => by
      have := hp.symm.trans ((hne other h).trans hnone)
      cases this }

theorem isolates_begin (ctx : Context) (head : StepHead) :
    Work.Keeps (Isolates steps (· = ctx.runId) Fine) (begin ctx head) :=
  keeps_begin ctx head fun w _ hf => Isolates.modify_run w hf

theorem isolates_endRun (id : Int) (r : Except Fault Progress) :
    Work.Keeps (Isolates steps (· = id) Fine) (endRun id r) :=
  keeps_endRun id r (fun w _ hf => Isolates.modify_run w hf) fun _ _ hu =>
    Leaves.of_runs ⟨hu.runs, hu.automations, hu.stepRows, hu.stored⟩ rfl rfl

theorem isolates_awaitCondition (ctx : Context) (stepId : String) (c : Condition) :
    Work.Keeps (Isolates steps own Fine) (awaitCondition ctx stepId c) := by
  refine keeps_awaitCondition fun w facts s _ hs hu => ?_
  rcases Slot.save_eq_ok hs with ⟨-, rfl⟩ | ⟨k, fields, -, -, rfl⟩
  · exact Leaves.of_runs ⟨hu.runs, hu.automations, hu.stepRows, hu.stored⟩ rfl rfl
  · exact Leaves.of_runs ⟨hu.runs, hu.automations, hu.stepRows, hu.stored⟩ rfl rfl

variable {settings : Settings} {onTags : TagHandler}

theorem isolates_playBeat (settings : Settings) {onTags : TagHandler}
    (handled : ∀ kind c channel tags,
      Work.Keeps (Isolates steps (fun _ => False) Fine) (onTags kind c channel tags))
    (ctx : Context) (b : Beat) :
    Work.Keeps (Isolates steps (fun _ => False) Fine) (playBeat settings onTags ctx b) :=
  keeps_playBeat (.of_aside settings Isolates.of_aside) (isolates_awaitCondition ctx)
    (fun kind _ => handled kind _) b

/-- While a run is carried out every other run is left alone. -/
theorem isolates_runBeats (settings : Settings) {onTags : TagHandler}
    (handled : ∀ kind c channel tags,
      Work.Keeps (Isolates steps (fun _ => False) Fine) (onTags kind c channel tags))
    (ctx : Context) (bs : List Beat) :
    Work.Keeps (Isolates steps (· = ctx.runId) Fine) (runBeats settings onTags ctx bs) :=
  keeps_runBeats (isolates_begin ctx)
    (fun b => .mono Isolates.weaken (isolates_playBeat settings handled ctx b)) bs

/-! ## Executions -/

/-- A run that is opened is a new one. -/
theorem leaves_opened (Fine : Run → Prop) {w : World} (hu : w.Undisturbed steps) {now : Moment}
    {a c : Int} {clientId : Option Int} {data : Value} {id : Int} {s : Store}
    (h : (RunLog.openRun now a c clientId data).run w.store = .ok (id, s)) :
    Leaves steps (· = id) Fine w { w with store := s }
      ∧ w.store.find? Run id = none
      ∧ s.find? Run id = some (RunLog.opened now a c clientId data id) := by
  obtain ⟨rfl, -, rfl⟩ := RunLog.openRun_eq_ok h
  have hnone : w.store.find? Run (w.store.nextId Run) = none := Store.find?_nextId w.store
  have hne : ∀ other, other ≠ w.store.nextId Run →
      (w.store.insert (RunLog.opened now a c clientId data (w.store.nextId Run))).find? Run other
        = w.store.find? Run other :=
    fun other h => Store.find?_insert_ne _ _ (Ne.symm h)
  refine ⟨?_, hnone, Store.find?_insert_self _ _ hnone⟩
  exact
    { undisturbed := ⟨hu.runs, hu.automations, hu.stepRows, hu.stored⟩
      absent := rfl
      kept := fun other p h hp => (hne other h).trans hp
      owned := fun other p hp => by
        have h : other ≠ w.store.nextId Run := by
          rintro rfl
          rw [hnone] at hp
          cases hp
        exact ⟨p, (hne other h).trans hp, rfl, rfl⟩
      added := fun other p h hn hp => by
        have := hp.symm.trans ((hne other h).trans hn)
        cases this }

/-- What is new about one run only, and is fine about it, leaves every run alone that was there. -/
theorem Leaves.of_new {w v : World} {id : Int} (h : Leaves steps (· = id) Fine w v)
    (hnone : w.store.find? Run id = none) (fine : ∀ p, v.store.find? Run id = some p → Fine p) :
    Leaves steps (fun _ => False) Fine w v where
  undisturbed := h.undisturbed
  absent := h.absent
  kept other p _ hp := by
    refine h.kept other p ?_ hp
    rintro rfl
    rw [hnone] at hp
    cases hp
  owned := h.owned
  added other p _ hn hp := by
    by_cases heq : other = id
    · exact fine p (heq ▸ hp)
    · exact h.added other p heq hn hp

/-- A run that is there is no longer open once it ended. -/
theorem status_of_endRun {w : World} {id : Int} {p q : Run} (r : Except Fault Progress)
    (hTable : w.store.absent.contains .automationRuns = false)
    (hFit : Transaction.fits id = true) (hp : w.store.find? Run id = some p)
    (hq : ((endRun id r).runOn w).2.store.find? Run id = some q) : q.status ≠ RunLog.running := by
  rw [runOn_endRun, run_transact] at hq
  by_cases hopen : p.status = RunLog.running
  · rw [RunLog.run_finish_of_open hTable hFit hp hopen] at hq
    have hself : (w.store.modify Run id (RunLog.ended w.clock (endOf r))).find? Run id
        = some (RunLog.ended w.clock (endOf r) p) := Store.find?_modify_of_some (fun _ => rfl) hp
    exact Option.some.inj (hself.symm.trans hq) ▸ RunLog.status_ended_ne w.clock (endOf r) p
  · rw [RunLog.run_finish_of_finished hTable hFit hp hopen] at hq
    exact Option.some.inj (hp.symm.trans hq) ▸ hopen

/-- A run that is there can be ended, whether it is open or not. -/
theorem ok_of_endRun {w : World} {id : Int} {p : Run} (r : Except Fault Progress)
    (hTable : w.store.absent.contains .automationRuns = false)
    (hFit : Transaction.fits id = true) (hp : w.store.find? Run id = some p) :
    ((endRun id r).runOn w).1 = .ok () := by
  rw [runOn_endRun, run_transact]
  by_cases hopen : p.status = RunLog.running
  · rw [RunLog.run_finish_of_open hTable hFit hp hopen]
  · rw [RunLog.run_finish_of_finished hTable hFit hp hopen]

/-- **An execution leaves alone every run that was there before**, and its own run is as the
reading of the steps decides: left open if they cannot be read, and ended if they can. -/
theorem isolates_execute
    (handled : ∀ kind c channel tags,
      Work.Keeps (Isolates steps (fun _ => False) Fine) (onTags kind c channel tags))
    {flow : Flow} {c : Int} {data : Value} {instead : Option (List Step)}
    (unread : ∀ fault p, plan flow instead = .error fault → p.automationId = flow.automation.id →
      p.conversationId = c → p.status = RunLog.running → Fine p)
    (ended : ∀ ss p, plan flow instead = .ok ss → p.automationId = flow.automation.id →
      p.conversationId = c → (Transaction.fits p.id = true → p.status ≠ RunLog.running) → Fine p) :
    Work.Keeps (Isolates steps (fun _ => False) Fine)
      (execute settings onTags flow c data instead) := by
  intro w hu
  have he := executed_execute settings onTags flow c data instead w
  generalize (execute settings onTags flow c data instead).runOn w = out at he
  cases he with
  | refused fault => exact Leaves.refl hu
  | missing => exact Leaves.refl hu
  | unread thread id s fault loaded opened unreadable =>
    obtain ⟨hleaves, hnone, hrun⟩ := leaves_opened Fine hu opened
    refine hleaves.of_new hnone fun p hp => ?_
    obtain rfl := Option.some.inj (hrun.symm.trans hp)
    have hc : thread.conversation.id = c := Store.id_of_find? (find?_of_loadThread loaded).2
    exact unread fault _ unreadable rfl hc rfl
  | ran thread id s ss r v loaded opened readable played =>
    obtain ⟨hopened, hnone, hrun⟩ := leaves_opened Fine hu opened
    have hplayed := isolates_runBeats settings handled
      ⟨flow.automation.id, id, thread.conversation.id⟩ (beats none ss) { w with store := s }
      hopened.undisturbed
    rw [played] at hplayed
    rw [snd_runOn_endRun]
    have hended : Leaves steps (· = id) Fine v ((endRun id r).runOn v).2 :=
      isolates_endRun id r v hplayed.undisturbed
    refine ((hopened.trans hplayed).trans hended).of_new hnone fun p hp => ?_
    obtain ⟨q, hq, haq, hcq⟩ := hplayed.owned id _ hrun
    obtain ⟨p', hp', ha, hc⟩ := hended.owned id q hq
    obtain rfl := Option.some.inj (hp'.symm.trans hp)
    have hconv : thread.conversation.id = c := Store.id_of_find? (find?_of_loadThread loaded).2
    refine ended ss p' readable (ha.trans haq) ((hc.trans hcq).trans hconv) ?_
    intro hfit
    rw [show p'.id = id from Store.id_of_find? hp] at hfit
    refine status_of_endRun r ?_ hfit hq hp
    rw [hplayed.absent, hopened.absent]
    exact (RunLog.openRun_eq_ok opened).2.1

/-! ## Where nothing is asked of added runs -/

/-- The handlers that executions are handed. -/
def IsHandler (settings : Settings) (onTags : TagHandler) : Prop :=
  onTags = quiet ∨ onTags = chained settings

theorem isolates_dispatchWith (event : Event) :
    Work.Keeps (Isolates steps (fun _ => False) fun _ => True)
      (dispatchWith settings quiet event) :=
  keeps_dispatchWith (fun w m _ => Isolates.of_memory w m) fun _ =>
    isolates_execute keeps_quiet (fun _ _ _ _ _ _ => trivial) fun _ _ _ _ _ _ => trivial

/-- Whatever comes of a change of tags leaves alone the runs that were there. -/
theorem isolates_handler (h : IsHandler settings onTags) (kind : EventKind) (c channel : Int)
    (tags : List Int) :
    Work.Keeps (Isolates steps (fun _ => False) fun _ => True) (onTags kind c channel tags) := by
  rcases h with rfl | rfl
  · exact keeps_quiet kind c channel tags
  · exact keeps_chained (fun event _ => isolates_dispatchWith event) kind channel tags

theorem isolates_handed (h : IsHandler settings onTags) (flow : Flow) (c : Int) (data : Value)
    (instead : Option (List Step)) :
    Work.Keeps (Isolates steps (fun _ => False) fun _ => True)
      (execute settings onTags flow c data instead) :=
  isolates_execute (isolates_handler h) (fun _ _ _ _ _ _ => trivial) fun _ _ _ _ _ _ => trivial

end Engine

end Deskflow
