import Deskflow.Proofs.GroupEntries
import Deskflow.Proofs.RunIsolation

/-!
# The trace of a run

The trace of a run holds the steps that were begun: those of the line that the run goes along, from
the first one up to where it stops. What comes after that in the line has no part in what the run
does, and might as well be something else.

The line is gone along by `run_steps`, and the trace is written by `append_step`.

* `steps_inOrder`: the steps of a flow are its rows by `order`, and then by row id.
* `going_runBeats`: along beats the trace grows by what is begun, whatever other runs do meanwhile.
* `played_playBeat`, `along_runBeats`: only a condition suspends a run, once, and is put on record.
* `exists_stop`, `runOn_runBeats_of_stop`: where a run stops, and that what follows has no part in
  it.
* `trace_exact`: the result.
-/

namespace Deskflow

/-- What an entry of a trace says of a step: its id and its type. -/
def RunLog.named (entry : Value) : Value × Value :=
  (entry.fields.getD "step_id", entry.fields.getD "type")

/-- The ids and types of the steps in the trace of a run. -/
def Run.traced (r : Run) : List (Value × Value) :=
  match r.stepsExecuted with
  | .list entries => entries.map RunLog.named
  | _ => []

/-- The last step in the trace of a run is a condition. -/
def Run.EndsAtCondition (r : Run) : Prop :=
  ∃ stepId, r.traced.getLast? = some (stepId, .str "condition")

/-- The id and the type of a step as a trace names them. -/
def StepHead.traced (h : StepHead) : Value × Value := (.str h.stepId, .str h.kind)

/-- A step that is noted comes last in the trace. -/
theorem RunLog.getLast?_traced_withStep (entries : List Value) (now : Moment) (head : StepHead)
    (r : Run) : (withStep entries (traceEntry now head.stepId head.kind) r).traced.getLast?
      = some head.traced := by
  simp only [Run.traced, withStep, List.map_append, List.map_cons, List.map_nil,
    List.getLast?_concat]
  rfl

/-! ## The steps of a flow -/

/-- Whether a stored step comes before another: by `order`, and then by row id. -/
def StepRow.NotAfter (a b : StepRow) : Prop := a.order < b.order ∨ a.order = b.order ∧ a.id ≤ b.id

/-- Steps are those of stored rows, by `order` and then by row id. -/
def InOrder (rows : List StepRow) (steps : List Step) : Prop :=
  ∃ sorted : List StepRow, sorted.Perm rows ∧ sorted.Pairwise StepRow.NotAfter
    ∧ List.Forall₂ (fun row step => Step.parse row.draft = .ok step) sorted steps

/-- Stored steps are read by `order` and then by row id. -/
theorem inOrder_of_parseSteps {rows : List StepRow} {steps : List Step}
    (h : Step.parseSteps (rows.map StepRow.draft) = .ok steps) : InOrder rows steps := by
  have hsorted : Step.ordered (rows.map StepRow.draft)
      = (sortBy (fun a b => Step.precedes a.draft b.draft) rows).map StepRow.draft :=
    (map_sortBy Step.precedes StepRow.draft (fun _ _ => rfl) rows).symm
  refine ⟨sortBy (fun a b => Step.precedes a.draft b.draft) rows, sortBy_perm _, ?_, ?_⟩
  · have hpair := Step.ordered_pairwise (rows.map StepRow.draft)
    rw [hsorted, List.pairwise_map] at hpair
    refine hpair.imp fun {a b} hab => ?_
    have hab : (decide (a.order < b.order) || decide (a.order = b.order) && decide (a.id ≤ b.id))
        = true := hab
    simpa [StepRow.NotAfter] using hab
  · have hall := Fault.mapM_eq_ok.mp h
    rwa [hsorted, List.forall₂_map_left_iff] at hall

theorem steps_inOrder {flow : Flow} {steps : List Step} (h : flow.steps = .ok steps) :
    InOrder flow.rows steps := inOrder_of_parseSteps h

namespace Engine

open Work World

/-- The steps of a flow were read from rows. -/
theorem exists_parse_of_steps {flow : Flow} {steps : List Step} (h : flow.steps = .ok steps) :
    ∀ s ∈ steps, ∃ d, Step.parse d = .ok s := fun _ hs =>
  let ⟨d, _, hd⟩ := (mem_iff_of_mapM h).mp hs
  ⟨d, hd⟩

/-- On the line of steps that were read, a condition is a step of its own kind. -/
theorem kind_of_beats {steps : List Step} (hread : ∀ s ∈ steps, ∃ d, Step.parse d = .ok s)
    {owner : Option String} {b : Beat} (hb : b ∈ beats owner steps) {c : Condition}
    (hc : b.action = some (.condition c)) : b.head.kind = "condition" := by
  have hone := mem_singles_of_beats hc steps hb
  rw [Step.singles_eq_flatMap] at hone
  obtain ⟨s, hs, hone⟩ := List.mem_flatMap.mp hone
  obtain ⟨d, hd⟩ := hread s hs
  exact Step.kind_of_parse_condition hd hone

variable {settings : Settings} {onTags : TagHandler} {ctx : Context}

/-! ## Where a run stops -/

/-- A run goes along all of its beats, or there is one at which it stops. -/
theorem exists_stop : ∀ (bs : List Beat) (w : World) {r : Except Fault Progress} {v : World},
    (runBeats settings onTags ctx bs).runOn w = (r, v) →
      r = .ok .goesOn ∨ r ≠ .ok .goesOn ∧ ∃ before last after m, bs = before ++ last :: after
        ∧ (runBeats settings onTags ctx before).runOn w = (.ok .goesOn, m)
        ∧ (runBeat settings onTags ctx last).runOn m = (r, v)
  | [], w, r, v, h => by
    cases h
    exact .inl rfl
  | b :: rest, w, r, v, h => by
    rw [runBeats, runOn_bind] at h
    rcases hb : (runBeat settings onTags ctx b).runOn w with ⟨fault | _ | _, m⟩ <;> rw [hb] at h
    · cases h
      exact .inr ⟨(fun h => by cases h), [], b, rest, w, rfl, rfl, hb⟩
    · rcases exists_stop rest m h with hr | ⟨hr, before, last, after, m', rfl, hbefore, hlast⟩
      · exact .inl hr
      · refine .inr ⟨hr, b :: before, last, after, m', rfl, ?_, hlast⟩
        rw [runBeats, runOn_bind, hb]
        exact hbefore
    · cases h
      exact .inr ⟨(fun h => by cases h), [], b, rest, w, rfl, rfl, hb⟩

/-- What follows the beat at which a run stops has no part in it. -/
theorem runOn_runBeats_of_stop {before : List Beat} {last : Beat} {w m v : World}
    {r : Except Fault Progress}
    (hbefore : (runBeats settings onTags ctx before).runOn w = (.ok .goesOn, m))
    (hlast : (runBeat settings onTags ctx last).runOn m = (r, v)) (hr : r ≠ .ok .goesOn)
    (after : List Beat) :
    (runBeats settings onTags ctx (before ++ last :: after)).runOn w = (r, v) := by
  rw [runBeats_append, runOn_bind, hbefore]
  simp only
  rw [runBeats, runOn_bind, hlast]
  rcases r with fault | _ | _
  · rfl
  · exact absurd rfl hr
  · rfl

theorem runOn_runBeats_cons_of_stop {b : Beat} {w v : World} {r : Except Fault Progress}
    (h : (runBeat settings onTags ctx b).runOn w = (r, v)) (hr : r ≠ .ok .goesOn)
    (rest : List Beat) : (runBeats settings onTags ctx (b :: rest)).runOn w = (r, v) := by
  have hnil : (runBeats settings onTags ctx []).runOn w = (.ok .goesOn, w) := rfl
  exact runOn_runBeats_of_stop hnil h hr rest

theorem runOn_runBeats_of_goesOn {b : Beat} {w v : World}
    (h : (runBeat settings onTags ctx b).runOn w = (.ok .goesOn, v)) (rest : List Beat) :
    (runBeats settings onTags ctx (b :: rest)).runOn w
      = (runBeats settings onTags ctx rest).runOn v := by
  rw [runBeats, runOn_bind, h]

/-- A beat whose start is noted is carried out from there; -/
theorem runOn_runBeat_of_begun {b : Beat} {w m : World}
    (h : (begin ctx b.head).runOn w = (.ok (), m)) :
    (runBeat settings onTags ctx b).runOn w = (playBeat settings onTags ctx b).runOn m := by
  rw [runBeat, runOn_bind, h]

/-- one whose start is not is not carried out. -/
theorem runOn_runBeat_of_fault {b : Beat} {w m : World} {fault : Fault}
    (h : (begin ctx b.head).runOn w = (.error fault, m)) :
    (runBeat settings onTags ctx b).runOn w = (.error fault, m) := by
  rw [runBeat, runOn_bind, h]

/-- How a beat goes that is carried out: it stops its run at a condition that is judged not to hold,
or it keeps what other beats keep. -/
inductive Played (ctx : Context) (b : Beat) (R : World → World → Prop) (w : World) :
    Except Fault Progress × World → Prop
  | kept (r : Except Fault Progress) (v : World) (passes : r ≠ .ok .suspended) (keeps : R w v) :
      Played ctx b R w (r, v)
  | stopped (c : Condition) (facts : Facts) (s : Store)
      (isCondition : b.action = some (.condition c)) (knows : Knows ctx w facts)
      (isFalse : c.holds facts = .ok false)
      (saved : (Slot.save ctx.conversationId (ctx.suspension b.owner c)).run w.store
        = .ok ((), s)) :
      Played ctx b R w (.ok .suspended,
        { w with store := s, pauses := w.pauses ++ [ctx.pause b.owner c facts] })

/-- What is no condition does not suspend a run. -/
theorem runAction_ne_suspended {owner : String} {head : StepHead} {action : StepAction}
    (h : ∀ c, action ≠ .condition c) (w : World) :
    ((runAction settings onTags ctx owner head action).runOn w).1 ≠ .ok .suspended := by
  have goesOn : ∀ x : Work Unit,
      ((do x; return Progress.goesOn : Work Progress).runOn w).1 ≠ .ok .suspended := by
    intro x hx
    rw [runOn_bind] at hx
    rcases hr : x.runOn w with ⟨_ | _, u⟩ <;> rw [hr] at hx <;> cases hx
  cases action with
  | condition c => exact absurd rfl (h c)
  | delay seconds =>
    simp only [runAction]
    split
    · exact goesOn _
    · simp
  | close =>
    simp only [runAction, runOn_bind]
    rcases (query (Thread.setStatus ctx.conversationId "closed")).runOn w with ⟨_ | _, u⟩ <;> simp
  | unknown kind => simp [runAction]
  | _ => exact goesOn _

/-- **Only a condition suspends a run**, when it does not hold in view of what is known. -/
theorem played_playBeat {R : World → World → Prop} [Std.Refl R] [IsTrans World R]
    (work : Stepwork settings ctx.conversationId R)
    (handled : ∀ kind, kind.isTagEvent = true → ∀ channel tags,
      Work.Keeps R (onTags kind ctx.conversationId channel tags)) (b : Beat) (w : World) :
    Played ctx b R w ((playBeat settings onTags ctx b).runOn w) := by
  unfold playBeat
  rcases hact : b.action with _ | action
  · exact .kept _ _ nofun (Std.Refl.refl w)
  · by_cases hcond : ∃ c, action = .condition c
    · obtain ⟨c, rfl⟩ := hcond
      have hj := judged_awaitCondition ctx b.owner c w
      show Played ctx b R w ((awaitCondition ctx b.owner c).runOn w)
      generalize (awaitCondition ctx b.owner c).runOn w = out at hj ⊢
      cases hj with
      | stopped fault => exact .kept _ _ nofun (Std.Refl.refl w)
      | held facts hk hc => exact .kept _ _ nofun (Std.Refl.refl w)
      | suspended facts s hk hc hs => exact .stopped c facts s hact hk hc hs
    · have hne : ∀ c, action ≠ .condition c := fun c hc => hcond ⟨c, hc⟩
      exact .kept _ _ (runAction_ne_suspended hne w)
        (keeps_runAction work rfl handled b.owner b.head hne w)

theorem suspended_playBeat {b : Beat} {w v : World}
    (h : (playBeat settings onTags ctx b).runOn w = (.ok .suspended, v)) :
    ∃ c facts, b.action = some (.condition c) ∧ Knows ctx w facts ∧ c.holds facts = .ok false
      ∧ v.pauses = w.pauses ++ [ctx.pause b.owner c facts] := by
  unfold playBeat at h
  rcases hact : b.action with _ | action <;> rw [hact] at h
  · cases h
  · by_cases hcond : ∃ c, action = .condition c
    · obtain ⟨c, rfl⟩ := hcond
      have hj := judged_awaitCondition ctx b.owner c w
      rw [show (awaitCondition ctx b.owner c).runOn w = (.ok .suspended, v) from h] at hj
      cases hj with
      | suspended facts s hk hc hs => exact ⟨c, facts, rfl, hk, hc, rfl⟩
    · exact absurd (congrArg Prod.fst h)
        (runAction_ne_suspended (fun c hc => hcond ⟨c, hc⟩) w)

/-- How a run goes along beats: it does not stop at a condition, or it does at the last beat that is
begun, and is put into the slot of its conversation and on record. -/
inductive Along (settings : Settings) (onTags : TagHandler) (ctx : Context)
    (R : World → World → Prop) (bs : List Beat) (w : World) : Except Fault Progress × World → Prop
  | passed (r : Except Fault Progress) (v : World) (passes : r ≠ .ok .suspended) (keeps : R w v) :
      Along settings onTags ctx R bs w (r, v)
  | stopped (before : List Beat) (last : Beat) (after : List Beat) (m' m : World) (c : Condition)
      (facts : Facts) (s : Store) (upTo : bs = before ++ last :: after)
      (goesOn : (runBeats settings onTags ctx before).runOn w = (.ok .goesOn, m'))
      (begins : (begin ctx last.head).runOn m' = (.ok (), m)) (keeps : R w m)
      (isCondition : last.action = some (.condition c)) (isFalse : c.holds facts = .ok false)
      (saved : (Slot.save ctx.conversationId (ctx.suspension last.owner c)).run m.store
        = .ok ((), s)) :
      Along settings onTags ctx R bs w (.ok .suspended,
        { m with store := s, pauses := m.pauses ++ [ctx.pause last.owner c facts] })

/-- **A run is put on record once at most while it goes along beats**, and if it is, then in the
end. -/
theorem along_runBeats {R : World → World → Prop} [Std.Refl R] [IsTrans World R]
    (work : Stepwork settings ctx.conversationId R)
    (handled : ∀ kind, kind.isTagEvent = true → ∀ channel tags,
      Work.Keeps R (onTags kind ctx.conversationId channel tags))
    (begins : ∀ head, Work.Keeps R (begin ctx head)) (bs : List Beat) (w : World) :
    Along settings onTags ctx R bs w ((runBeats settings onTags ctx bs).runOn w) := by
  induction bs generalizing w with
  | nil => exact .passed _ _ (by simp) (Std.Refl.refl w)
  | cons b rest ih =>
    have hbegin := begins b.head w
    rcases hm : (begin ctx b.head).runOn w with ⟨fault | _, m⟩ <;> rw [hm] at hbegin
    · rw [runOn_runBeats_cons_of_stop (runOn_runBeat_of_fault hm) (by simp) rest]
      exact .passed _ _ (by simp) hbegin
    have hplayed := played_playBeat work handled b m
    rcases hb : (playBeat settings onTags ctx b).runOn m with ⟨r, v⟩
    rw [hb] at hplayed
    have hbeat := (runOn_runBeat_of_begun hm).trans hb
    cases hplayed with
    | kept _ _ passes keeps =>
      have hv : R w v := IsTrans.trans w m v hbegin keeps
      by_cases hr : r = .ok .goesOn
      · subst hr
        have hrest := ih v
        rw [runOn_runBeats_of_goesOn hbeat rest]
        generalize (runBeats settings onTags ctx rest).runOn v = out at hrest ⊢
        cases hrest with
        | passed r u passes keeps => exact .passed r u passes (IsTrans.trans w v u hv keeps)
        | stopped before last after m' u c facts s upTo goesOn begins keeps isCondition isFalse
            saved =>
          exact .stopped (b :: before) last after m' u c facts s (congrArg (b :: ·) upTo)
            ((runOn_runBeats_of_goesOn hbeat before).trans goesOn) begins
            (IsTrans.trans w v u hv keeps) isCondition isFalse saved
      · rw [runOn_runBeats_cons_of_stop hbeat hr rest]
        exact .passed _ _ passes hv
    | stopped c facts s isCondition knows isFalse saved =>
      rw [runOn_runBeats_cons_of_stop hbeat (by simp) rest]
      exact .stopped [] b rest w m c facts s rfl rfl hm hbegin isCondition isFalse saved

/-! ## The trace of a run that goes on -/

variable {rows : List StepRow}

/-- A run goes on, and these are the steps in its trace. -/
structure Going (rows : List StepRow) (id : Int) (heads : List StepHead) (w : World) : Prop where
  undisturbed : w.Undisturbed rows
  table : w.store.absent.contains .automationRuns = false
  row : ∃ r entries, w.store.find? Run id = some r ∧ r.status = RunLog.running
    ∧ r.stepsExecuted = .list entries ∧ entries.map RunLog.named = heads.map StepHead.traced

/-- A step that begins is noted in the trace of the run. -/
theorem going_begin {heads : List StepHead} {w : World} (h : Going rows ctx.runId heads w)
    (hfit : Transaction.fits ctx.runId = true) (head : StepHead) :
    ((begin ctx head).runOn w).1 = .ok ()
      ∧ Going rows ctx.runId (heads ++ [head]) ((begin ctx head).runOn w).2 := by
  obtain ⟨r, entries, hr, hopen, hentries, hnames⟩ := h.row
  have hle : Leaves rows (· = ctx.runId) (fun _ => True) w ((begin ctx head).runOn w).2 :=
    isolates_begin ctx head w h.undisturbed
  have hrun : (begin ctx head).runOn w = (.ok (), { w with
      store := w.store.modify Run ctx.runId
        (RunLog.withStep entries (RunLog.traceEntry w.clock head.stepId head.kind)) }) := by
    rw [begin, run_transact, RunLog.run_append_of_open h.table hfit hr hopen
      (hentries ▸ RunLog.entriesOf_list entries)]
  rw [hrun] at hle ⊢
  refine ⟨rfl, hle.undisturbed, h.table, ?_⟩
  refine ⟨RunLog.withStep entries (RunLog.traceEntry w.clock head.stepId head.kind) r,
    entries ++ [RunLog.traceEntry w.clock head.stepId head.kind], ?_, hopen, rfl, ?_⟩
  · exact Store.find?_modify_of_some (fun _ => rfl) hr
  · rw [List.map_append, List.map_append, hnames]
    rfl

/-- What leaves every run alone leaves a run going on. -/
theorem Going.of_leaves {id : Int} {heads : List StepHead} {w v : World} (h : Going rows id heads w)
    (hv : Leaves rows (fun _ => False) (fun _ => True) w v) : Going rows id heads v := by
  obtain ⟨r, entries, hr, hrest⟩ := h.row
  exact ⟨hv.undisturbed, hv.absent ▸ h.table, r, entries, hv.kept id r not_false hr, hrest⟩

/-- **A beat is noted before it is carried out**, however it ends. -/
theorem going_runBeat (honTags : IsHandler settings onTags) {heads : List StepHead} {w v : World}
    {b : Beat} {r : Except Fault Progress} (h : Going rows ctx.runId heads w)
    (hfit : Transaction.fits ctx.runId = true)
    (hr : (runBeat settings onTags ctx b).runOn w = (r, v)) :
    Going rows ctx.runId (heads ++ [b.head]) v ∧
      ∃ m, (begin ctx b.head).runOn w = (.ok (), m)
        ∧ (playBeat settings onTags ctx b).runOn m = (r, v) := by
  obtain ⟨hok, hbegun⟩ := going_begin h hfit b.head
  unfold runBeat at hr
  rw [runOn_bind] at hr
  rcases hb : (begin ctx b.head).runOn w with ⟨fault | _, m⟩ <;> rw [hb] at hok hbegun hr
  · cases hok
  · have hplayed := isolates_playBeat settings (isolates_handler honTags) ctx b m hbegun.undisturbed
    rw [show (playBeat settings onTags ctx b).runOn m = (r, v) from hr] at hplayed
    exact ⟨hbegun.of_leaves hplayed, m, rfl, hr⟩

/-- Along beats the trace grows by their heads. -/
theorem going_runBeats (honTags : IsHandler settings onTags)
    (hfit : Transaction.fits ctx.runId = true) : ∀ (bs : List Beat) {heads : List StepHead}
      {w v : World}, Going rows ctx.runId heads w →
      (runBeats settings onTags ctx bs).runOn w = (.ok .goesOn, v) →
        Going rows ctx.runId (heads ++ bs.map Beat.head) v
  | [], heads, w, v, h, hr => by
    cases hr
    simpa using h
  | b :: rest, heads, w, v, h, hr => by
    rw [runBeats, runOn_bind] at hr
    rcases hb : (runBeat settings onTags ctx b).runOn w with ⟨fault | _ | _, m⟩ <;> rw [hb] at hr
    · cases hr
    · have hm := (going_runBeat honTags h hfit hb).1
      have := going_runBeats honTags hfit rest hm hr
      simpa using this
    · cases hr

/-- A run that goes on can be ended, and its trace stays as it is. -/
theorem Going.endRun {id : Int} {heads : List StepHead} {v : World} (h : Going rows id heads v)
    (hfit : Transaction.fits id = true) (r : Except Fault Progress) :
    ∃ run u, (do endRun id r; return some id : Work (Option Int)).runOn v = (.ok (some id), u)
      ∧ u.store.find? Run id = some run ∧ run.traced = heads.map StepHead.traced
      ∧ run.status = RunLog.RunEnd.status (endOf r) ∧ run.error = RunLog.RunEnd.error? (endOf r)
      ∧ u.pauses = v.pauses := by
  obtain ⟨run, entries, hrun, hopen, hentries, hnames⟩ := h.row
  refine ⟨RunLog.ended v.clock (endOf r) run,
    { v with
      conclusions := v.conclusions ++ [⟨id, r⟩]
      store := v.store.modify Run id (RunLog.ended v.clock (endOf r)) }, ?_, ?_, ?_, rfl, rfl,
    rfl⟩
  · rw [runOn_bind, runOn_endRun, run_transact,
      RunLog.run_finish_of_open h.table hfit hrun hopen]
    rfl
  · exact Store.find?_modify_of_some (fun _ => rfl) hrun
  · simp only [Run.traced, RunLog.ended, hentries]
    exact hnames

/-! ## Executions -/

/-- How a run came to its end, with the beats that were begun: at the end of the line; at a
condition that was judged not to hold, where it is put on record; or at a beat that raised a fault,
which the run keeps. -/
inductive Ending (settings : Settings) (onTags : TagHandler) (ctx : Context)
    (line begun : List Beat) (opened : World) (run : Run) (v : World) : Prop
  | completed (whole : begun = line) (status : run.status = "completed") (error : run.error = none)
  | suspended (before : List Beat) (last : Beat) (c : Condition) (facts : Facts)
      (upTo : begun = before ++ [last]) (isCondition : last.action = some (.condition c))
      (isFalse : c.holds facts = .ok false) (onRecord : ctx.pause last.owner c facts ∈ v.pauses)
      (status : run.status = "completed") (error : run.error = none)
  | failed (before : List Beat) (last : Beat) (fault : Fault) (m m' u : World)
      (upTo : begun = before ++ [last])
      (passed : (runBeats settings onTags ctx before).runOn opened = (.ok .goesOn, m))
      (noted : (begin ctx last.head).runOn m = (.ok (), m'))
      (raised : (playBeat settings onTags ctx last).runOn m' = (.error fault, u))
      (status : run.status = "failed") (error : run.error = some fault.summary)

/-- The run of an execution is opened, goes along its steps, and ends. -/
theorem ending_of_ran (ctx : Context) (honTags : IsHandler settings onTags) {steps : List Step}
    {w v : World} {r : Except Fault Progress} (h : Going rows ctx.runId [] w)
    (hfit : Transaction.fits ctx.runId = true)
    (played : (runBeats settings onTags ctx (beats none steps)).runOn w = (r, v)) :
    ∃ run begun rest u,
      (do endRun ctx.runId r; return some ctx.runId : Work (Option Int)).runOn v
        = (.ok (some ctx.runId), u)
      ∧ u.store.find? Run ctx.runId = some run
      ∧ beats none steps = begun ++ rest
      ∧ run.traced = begun.map (fun b => b.head.traced)
      ∧ Ending settings onTags ctx (beats none steps) begun w run u
      ∧ (rest ≠ [] →
          ∀ other, (runBeats settings onTags ctx (begun ++ other)).runOn w = (r, v)) := by
  rcases exists_stop _ _ played with rfl | ⟨hr, before, last, after, m, hbeats, hbefore, hlast⟩
  · have hv := going_runBeats honTags hfit _ h played
    obtain ⟨run, u, hend, hrun, htraced, hstatus, herror, -⟩ := hv.endRun hfit (.ok .goesOn)
    refine ⟨run, beats none steps, [], u, hend, hrun, by simp, ?_, .completed rfl hstatus herror,
      by simp⟩
    simpa [Function.comp_def] using htraced
  · obtain ⟨hv, m', hnoted, hplayed⟩ :=
      going_runBeat honTags (going_runBeats honTags hfit before h hbefore) hfit hlast
    obtain ⟨run, u, hend, hrun, htraced, hstatus, herror, hpauses⟩ := hv.endRun hfit r
    refine ⟨run, before ++ [last], after, u, hend, hrun, by simp [hbeats], ?_, ?_,
      fun _ other => ?_⟩
    · simpa [Function.comp_def] using htraced
    · rcases r with fault | _ | _
      · exact .failed before last fault m m' v rfl hbefore hnoted hplayed hstatus herror
      · exact absurd rfl hr
      · obtain ⟨c, facts, hact, -, hc, hp⟩ := suspended_playBeat hplayed
        exact .suspended before last c facts rfl hact hc (by simp [hpauses, hp]) hstatus herror
    · rw [List.append_assoc]
      exact runOn_runBeats_of_stop hbefore hlast hr other

/-- **The trace of a run is what it began.** An execution of steps that can be read opens a run
whose trace is a first part of the entries of the steps: all of them if the run came to their end,
up to a condition that was judged not to hold if it was suspended, and up to the step that raised
the fault if it failed. What comes after that first part has no effect: with anything else in its
place the execution is the same. Only in a conversation that is not there, and in a store that
refuses the run, none is opened, and nothing changes. -/
theorem trace_exact (honTags : IsHandler settings onTags) {flow : Flow} {c : Int} {data : Value}
    {instead : Option (List Step)} {steps : List Step} {w : World}
    (readable : plan flow instead = .ok steps) (hw : w.Undisturbed w.store.steps)
    (hfit : Transaction.fits (w.store.nextId Run) = true) :
    (w.store.find? Conversation c = none
        ∧ (execute settings onTags flow c data instead).runOn w = (.ok none, w)) ∨
      (w.store.Refuses flow.automation.id c ∧
        ∃ fault, (execute settings onTags flow c data instead).runOn w = (.error fault, w)) ∨
      ∃ k run begun v, w.store.find? Conversation c = some k
        ∧ w.store.find? Run (w.store.nextId Run) = none
        ∧ (execute settings onTags flow c data instead).runOn w
          = (.ok (some (w.store.nextId Run)), v)
        ∧ v.store.find? Run (w.store.nextId Run) = some run
        ∧ (instead = none → InOrder flow.rows steps)
        ∧ begun <+: beats none steps
        ∧ begun.map Beat.head <+: Step.entries steps
        ∧ run.traced = begun.map (fun b => b.head.traced)
        ∧ Ending settings onTags ⟨flow.automation.id, w.store.nextId Run, c⟩ (beats none steps)
          begun
          { w with
            store := w.store.insert (RunLog.opened w.clock flow.automation.id c k.clientId data
              (w.store.nextId Run)) } run v
        ∧ (begun ≠ beats none steps → ∀ other steps', plan flow other = .ok steps' →
          begun <+: beats none steps' →
          (execute settings onTags flow c data other).runOn w
            = (.ok (some (w.store.nextId Run)), v)) := by
  have he := executed_execute settings onTags flow c data instead w
  generalize hout : (execute settings onTags flow c data instead).runOn w = out at he
  cases he with
  | refused fault refuses => exact .inr (.inl ⟨refuses, fault, rfl⟩)
  | missing gone => exact .inl ⟨gone, rfl⟩
  | unread thread id s fault loaded opened unreadable =>
    rw [readable] at unreadable
    cases unreadable
  | ran thread id s ss r v loaded opened hplan played =>
    obtain rfl := Except.ok.inj (hplan.symm.trans readable)
    obtain ⟨-, hk⟩ := find?_of_loadThread loaded
    obtain rfl : thread.conversation.id = c := Store.id_of_find? hk
    obtain ⟨hopened, hnone, hrun⟩ := leaves_opened (fun _ => True) hw opened
    obtain ⟨rfl, htable, rfl⟩ := RunLog.openRun_eq_ok opened
    have hgoing : Going w.store.steps (w.store.nextId Run) [] { w with
        store := w.store.insert (RunLog.opened w.clock flow.automation.id thread.conversation.id
          thread.conversation.clientId data (w.store.nextId Run)) } :=
      ⟨hopened.undisturbed, htable, _, [], hrun, rfl, rfl, rfl⟩
    obtain ⟨run, begun, rest, u, hend, hu, hbeats, htraced, hending, hother⟩ :=
      ending_of_ran ⟨flow.automation.id, w.store.nextId Run, _⟩ honTags hgoing hfit played
    refine .inr (.inr ⟨_, run, begun, u, hk, hnone, hend, hu, ?_, ⟨rest, hbeats.symm⟩, ?_, htraced,
      hending, ?_⟩)
    · rintro rfl
      exact steps_inOrder hplan
    · rw [← heads_beats none ss, hbeats, List.map_append]
      exact List.prefix_append _ _
    · rintro hne other steps' hplan' ⟨others, hbeats'⟩
      have hrest : rest ≠ [] := by
        rintro rfl
        exact hne (by simpa using hbeats.symm)
      have hplayed := hother hrest others
      rw [hbeats'] at hplayed
      rw [runOn_execute_of_readable loaded opened hplan' hplayed]
      exact hend

/-! ### A run that stops within a group -/

/-- A conversation, in which an automation is to be carried out. -/
def parlour : World :=
  { store :=
      { conversations :=
          [{ id := 1, channelId := 1, clientId := none, operatorId := none, status := "open",
             metadata := .null, unreadCount := 0, lastMessageAt := none }] } }

/-- The automation: a group that closes the conversation and then waits, and a step after it. -/
def visit : List Step :=
  [.group { stepId := "visit", kind := "group" } "Visit"
    [.single { stepId := "leave", kind := "close_conversation" } .close,
      .single { stepId := "new", kind := "condition" } (.condition ⟨"is_new_client", ""⟩),
      .single { stepId := "hello", kind := "send_text" } (.sendText "Hello")],
    .single { stepId := "wait", kind := "delay" } (.delay 10)]

/-- The automation that the visit is of. -/
def visiting : Flow :=
  ⟨{ id := 7, name := "visit", description := none, channelId := none, trigger := "",
     triggerConfig := .null, isActive := true }, []⟩

/-- A tag that a client was given in the parlour. -/
def given : Event := { kind := .tagAdded, conversationId := 1, channelId := 1, tagIds := [3] }

/-- In the parlour the visit, set off by a tag, stops at its condition. -/
theorem trace_exact_parlour :
    ∃ (run : Run) (begun : List Beat) (v : World),
      (execute {} (chained {}) visiting 1 (.object given.triggerData) (some visit)).runOn parlour
        = (.ok (some 1), v)
      ∧ v.store.find? Run 1 = some run
      ∧ run.traced = [(.str "visit", .str "group"), (.str "leave", .str "close_conversation"),
          (.str "new", .str "condition")]
      ∧ run.traced = begun.map (fun b => b.head.traced)
      ∧ begun.map Beat.head <+: Step.entries visit := by
  have hout : ((execute {} (chained {}) visiting 1 (.object given.triggerData) (some visit)).runOn
      parlour).1 = .ok (some 1) := by decide +kernel
  have htrace : (((execute {} (chained {}) visiting 1 (.object given.triggerData)
      (some visit)).runOn parlour).2.store.find? Run 1).map Run.traced
        = some [(.str "visit", .str "group"), (.str "leave", .str "close_conversation"),
          (.str "new", .str "condition")] := by decide +kernel
  have hspared : parlour.Undisturbed parlour.store.steps :=
    ⟨by simp [Rehearsal.Spares, parlour], by simp [Rehearsal.Spares, parlour],
      by simp [Rehearsal.Spares, parlour], rfl⟩
  rcases @trace_exact {} (chained {}) (Or.inr rfl) visiting 1 (.object given.triggerData)
      (some visit) visit parlour rfl hspared (by decide) with
    ⟨-, hnone⟩ | ⟨-, fault, hfault⟩ | ⟨k, run, begun, v, -, -, hrun, hv, -, -, hprefix, htraced, -⟩
  · rw [hnone] at hout
    cases hout
  · rw [hfault] at hout
    cases hout
  · rw [hrun] at htrace
    rw [show v.store.find? Run 1 = some run from hv] at htrace
    exact ⟨run, begun, v, hrun, hv, by simpa using htrace, htraced, hprefix⟩

end Engine

end Deskflow
