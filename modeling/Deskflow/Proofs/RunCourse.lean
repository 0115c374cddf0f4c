import Deskflow.Engine.Dispatch
import Deskflow.Proofs.StepPieces

/-!
# The course of runs

A run goes through a forest of steps in one line: each step is noted as it is come to, and what is
no group is carried out then. `beats` is that line, and `runBeats` goes along it, so that what a run
does is an induction over a list, however deep its groups lie in each other.

* `runSteps_eq_runBeats`: steps are carried out beat by beat.
* `heads_beats`: the beats come in the order of the entries of the forest.
* `executed_execute`: how the execution of a flow goes as a whole.
* `keeps_execute_of_log`: what is kept by executions, if it is kept when the log is written.
* `keeps_execute_of_own`, `keeps_execute_of_opens`, `keeps_execute`: what the opening of a run keeps
  is kept by executions, and so is what does not depend on the log of runs.
* `keeps_dispatchWith`, `keeps_chained`, `Runwork`: what every execution keeps is kept by events.
* `Unlogged.execute`, `Unlogged.chained`: the same of what depends on neither log nor slots.
-/

namespace Deskflow

/-! ## Stores that refuse runs -/

namespace Store

open Transaction

/-- What keeps a run of an automation from being opened in a conversation, although that may be
there: a table that is needed is gone, or an id does not fit 64 bits. -/
def Refuses (s : Store) (automationId c : Int) : Prop :=
  (∃ t ∈ .automationRuns :: Thread.tables, s.absent.contains t = true) ∨ fits automationId = false ∨ fits c = false
    ∨ ∃ k, s.find? Conversation c = some k
      ∧ (fits k.channelId = false ∨ ∃ n, k.clientId = some n ∧ fits n = false)

variable {s : Store} {automationId c : Int} {fault : Fault}

/-- A conversation that cannot be loaded is one of a store that refuses runs, -/
theorem refuses_of_load (h : (Thread.load? c).run s = .error fault) :
    s.Refuses automationId c := by
  refine Classical.byContradiction fun hruns => ?_
  simp only [Refuses, not_or, not_exists, not_and, Bool.not_eq_true, Bool.not_eq_false] at hruns
  obtain ⟨htables, -, hc, hids⟩ := hruns
  have hthread : ∀ t ∈ Thread.tables, s.absent.contains t = false :=
    fun t ht => htables t (List.mem_cons_of_mem _ ht)
  cases hk : s.find? Conversation c with
  | none =>
    have hload : (load Conversation c).run s = .ok (none, s) :=
      hk ▸ run_load_of_fits (hthread .conversations (by decide)) hc
    have hnone : (Thread.load? c).run s = .ok (none, s) :=
      run_bind_eq_ok.mpr ⟨none, s, hload, rfl⟩
    cases hnone.symm.trans h
  | some k =>
    obtain ⟨hchannel, hclient⟩ := hids k hk
    obtain ⟨thread, hload, -⟩ := Thread.run_load?_of_find? hthread hk hc hchannel hclient
    cases hload.symm.trans h

/-- and so is one in which no run can be opened. -/
theorem refuses_of_openRun {k : Conversation} {now : Moment} {data : Value}
    (hk : s.find? Conversation c = some k)
    (h : (RunLog.openRun now automationId k.id k.clientId data).run s = .error fault) :
    s.Refuses automationId c := by
  refine Classical.byContradiction fun hruns => ?_
  simp only [Refuses, not_or, not_exists, not_and, Bool.not_eq_true, Bool.not_eq_false] at hruns
  obtain ⟨htables, ha, hc, hids⟩ := hruns
  rw [show k.id = c from id_of_find? hk] at h
  have htable : s.absent.contains .automationRuns = false := htables _ List.mem_cons_self
  cases (RunLog.run_openRun htable ha hc (hids k hk).2).symm.trans h

end Store

namespace Engine

open Work World

/-- A step as a run comes to it. -/
structure Beat where
  head : StepHead
  /-- The id of the step of the top level that it lies in, where a suspension waits. -/
  owner : String
  /-- What is carried out; of a group nothing, as its members follow. -/
  action : Option StepAction

mutual

/-- The beats of a step; within a group, `owner` is the id of the outermost group. -/
def beatsOf (owner : Option String) : Step → List Beat
  | .single head action => [⟨head, owner.getD head.stepId, some action⟩]
  | .group head _ members =>
    ⟨head, owner.getD head.stepId, none⟩ :: beats (some (owner.getD head.stepId)) members

/-- The beats of a forest. -/
def beats (owner : Option String) : List Step → List Beat
  | [] => []
  | step :: rest => beatsOf owner step ++ beats owner rest

end

mutual

theorem heads_beatsOf (owner : Option String) :
    (step : Step) → (beatsOf owner step).map Beat.head = Step.entriesOf step
  | .single _ _ => rfl
  | .group _ _ members => by simp [beatsOf, Step.entriesOf, heads_beats _ members]

/-- The beats come in the order of the entries of the forest. -/
theorem heads_beats (owner : Option String) :
    (steps : List Step) → (beats owner steps).map Beat.head = Step.entries steps
  | [] => rfl
  | step :: rest => by simp [beats, Step.entries, heads_beatsOf owner step, heads_beats owner rest]

end

mutual

/-- A beat lies in its step, among whose single steps is what it carries out. -/
theorem mem_singlesOf_of_beatsOf {owner : Option String} {b : Beat} {action : StepAction}
    (haction : b.action = some action) :
    (s : Step) → b ∈ beatsOf owner s → (b.head, action) ∈ Step.singlesOf s
  | .single head _, h => by
    obtain rfl := List.mem_singleton.mp h
    cases haction
    exact List.mem_singleton_self _
  | .group head name members, h => by
    rcases List.mem_cons.mp h with rfl | h
    · cases haction
    · exact mem_singles_of_beats haction members h

theorem mem_singles_of_beats {owner : Option String} {b : Beat} {action : StepAction}
    (haction : b.action = some action) :
    (steps : List Step) → b ∈ beats owner steps → (b.head, action) ∈ Step.singles steps
  | [], h => by cases h
  | s :: rest, h => by
    rcases List.mem_append.mp h with h | h
    · exact List.mem_append_left _ (mem_singlesOf_of_beatsOf haction s h)
    · exact List.mem_append_right _ (mem_singles_of_beats haction rest h)

end

/-! ## Beat by beat -/

section

variable (settings : Settings) (onTags : TagHandler) (ctx : Context)

/-- Carries out what a beat is to carry out. -/
def playBeat (b : Beat) : Work Progress :=
  match b.action with
  | some action => runAction settings onTags ctx b.owner b.head action
  | none => pure .goesOn

/-- Notes a beat and carries it out. -/
def runBeat (b : Beat) : Work Progress := do
  begin ctx b.head
  playBeat settings onTags ctx b

/-- Goes along beats until one suspends. -/
def runBeats : List Beat → Work Progress
  | [] => return .goesOn
  | b :: rest => do
    match ← runBeat settings onTags ctx b with
    | .suspended => return .suspended
    | .goesOn => runBeats rest

theorem runBeats_append (xs ys : List Beat) :
    runBeats settings onTags ctx (xs ++ ys) = (do
      match ← runBeats settings onTags ctx xs with
      | .suspended => return .suspended
      | .goesOn => runBeats settings onTags ctx ys) := by
  induction xs with
  | nil => simp [runBeats]
  | cons b rest ih =>
    simp only [List.cons_append, runBeats, bind_assoc]
    congr 1
    funext p
    cases p with
    | goesOn => exact ih
    | suspended => simp

mutual

theorem runStep_eq_runBeats (owner : Option String) :
    (step : Step) → runStep settings onTags ctx owner step
      = runBeats settings onTags ctx (beatsOf owner step)
  | .single head action => by
    simp only [runStep, beatsOf, runBeats, runBeat, playBeat, bind_assoc]
    congr 1
    funext _
    refine (bind_pure _).symm.trans (congrArg _ (funext fun p => ?_))
    cases p <;> rfl
  | .group head _ members => by
    simp only [runStep, beatsOf, runBeats, runBeat, playBeat, bind_assoc, pure_bind,
      runSteps_eq_runBeats _ members]

/-- **Steps are carried out beat by beat.** -/
theorem runSteps_eq_runBeats (owner : Option String) :
    (steps : List Step) → runSteps settings onTags ctx owner steps
      = runBeats settings onTags ctx (beats owner steps)
  | [] => rfl
  | step :: rest => by
    rw [beats, runBeats_append, ← runStep_eq_runBeats owner step,
      ← runSteps_eq_runBeats owner rest]
    rfl

end

variable {settings onTags ctx}

/-- What a condition keeps that a beat is to await, and what becomes of changes of tags, is kept by
the beat when it is carried out, if the other pieces of steps keep it. -/
theorem keeps_playBeat_of_awaits {R : World → World → Prop} [Std.Refl R] [IsTrans World R]
    (work : Stepwork settings ctx.conversationId R) (b : Beat)
    (awaits : ∀ c, b.action = some (.condition c) → Work.Keeps R (awaitCondition ctx b.owner c))
    (handled : ∀ kind, kind.isTagEvent = true → ∀ channel tags,
      Work.Keeps R (onTags kind ctx.conversationId channel tags)) :
    Work.Keeps R (playBeat settings onTags ctx b) := by
  unfold playBeat
  rcases hact : b.action with _ | action
  · exact Work.Keeps.pure _
  · by_cases hcond : ∃ c, action = .condition c
    · obtain ⟨c, rfl⟩ := hcond
      exact awaits c hact
    · exact keeps_runAction work rfl handled b.owner b.head fun c hc => hcond ⟨c, hc⟩

/-- What conditions keep, and what becomes of changes of tags, is kept by every beat that is carried
out if the other pieces of steps keep it. -/
theorem keeps_playBeat {R : World → World → Prop} [Std.Refl R] [IsTrans World R]
    (work : Stepwork settings ctx.conversationId R)
    (awaits : ∀ stepId c, Work.Keeps R (awaitCondition ctx stepId c))
    (handled : ∀ kind, kind.isTagEvent = true → ∀ channel tags,
      Work.Keeps R (onTags kind ctx.conversationId channel tags)) (b : Beat) :
    Work.Keeps R (playBeat settings onTags ctx b) :=
  keeps_playBeat_of_awaits work b (fun c _ => awaits b.owner c) handled

/-- What the noting of every step keeps, and what is carried out, is kept along beats. -/
theorem keeps_runBeats_of_mem {R : World → World → Prop} [Std.Refl R] [IsTrans World R]
    (begins : ∀ head, Work.Keeps R (begin ctx head)) :
    ∀ bs, (∀ b ∈ bs, Work.Keeps R (playBeat settings onTags ctx b)) →
      Work.Keeps R (runBeats settings onTags ctx bs)
  | [], _ => Work.Keeps.pure _
  | b :: rest, plays => by
    refine Work.Keeps.bind
      (Work.Keeps.bind (begins b.head) fun _ => plays b List.mem_cons_self) fun p => ?_
    cases p with
    | goesOn =>
      exact keeps_runBeats_of_mem begins rest fun b' hb => plays b' (List.mem_cons_of_mem b hb)
    | suspended => exact Work.Keeps.pure _

/-- The same where it does not matter which beats they are. -/
theorem keeps_runBeats {R : World → World → Prop} [Std.Refl R] [IsTrans World R]
    (begins : ∀ head, Work.Keeps R (begin ctx head))
    (plays : ∀ b, Work.Keeps R (playBeat settings onTags ctx b)) (bs : List Beat) :
    Work.Keeps R (runBeats settings onTags ctx bs) :=
  keeps_runBeats_of_mem begins bs fun b _ => plays b

end

/-! ## Executions -/

/-- The steps that an execution carries out. -/
def plan (flow : Flow) (instead : Option (List Step)) : Except Fault (List Step) :=
  match instead with
  | some steps => .ok steps
  | none => flow.steps

/-- How a run ends: what its steps came to is put on record, and then its row is changed. -/
theorem runOn_endRun (runId : Int) (r : Except Fault Progress) (w : World) :
    (endRun runId r).runOn w = (transact fun now => RunLog.finish now runId (endOf r)).runOn
      { w with conclusions := w.conclusions ++ [⟨runId, r⟩] } := rfl

/-- Only the ending of a run changes the world once its steps ended. -/
theorem snd_runOn_endRun (id : Int) (r : Except Fault Progress) (v : World) :
    ((do endRun id r; return some id : Work (Option Int)).runOn v).2
      = ((endRun id r).runOn v).2 := snd_runOn_returning _ _ v

/-- How the execution of a flow in a conversation goes: refused or with nothing to do before a run
is opened; given up because the steps cannot be read, with the run left as it was opened; or carried
out, which leads to the end of the run. -/
inductive Executed (settings : Settings) (onTags : TagHandler) (flow : Flow) (c : Int)
    (data : Value) (instead : Option (List Step)) (w : World) :
    Except Fault (Option Int) × World → Prop
  | refused (fault : Fault) (refuses : w.store.Refuses flow.automation.id c) :
      Executed settings onTags flow c data instead w (.error fault, w)
  | missing (gone : w.store.find? Conversation c = none) :
      Executed settings onTags flow c data instead w (.ok none, w)
  | unread (thread : Thread) (id : Int) (s : Store) (fault : Fault)
      (loaded : (query (Thread.load? c)).runOn w = (.ok (some thread), w))
      (opened : (RunLog.openRun w.clock flow.automation.id thread.conversation.id
        thread.conversation.clientId data).run w.store = .ok (id, s))
      (unreadable : plan flow instead = .error fault) :
      Executed settings onTags flow c data instead w (.error fault, { w with store := s })
  | ran (thread : Thread) (id : Int) (s : Store) (steps : List Step) (r : Except Fault Progress)
      (v : World)
      (loaded : (query (Thread.load? c)).runOn w = (.ok (some thread), w))
      (opened : (RunLog.openRun w.clock flow.automation.id thread.conversation.id
        thread.conversation.clientId data).run w.store = .ok (id, s))
      (readable : plan flow instead = .ok steps)
      (played : (runBeats settings onTags ⟨flow.automation.id, id, thread.conversation.id⟩
        (beats none steps)).runOn { w with store := s } = (r, v)) :
      Executed settings onTags flow c data instead w
        ((do endRun id r; return some id : Work (Option Int)).runOn v)

section

variable {settings : Settings} {onTags : TagHandler} {flow : Flow} {c : Int} {data : Value}
  {instead : Option (List Step)} {w : World} {thread : Thread} {id : Int} {s : Store}

theorem runOn_execute_of_unread {fault : Fault}
    (loaded : (query (Thread.load? c)).runOn w = (.ok (some thread), w))
    (opened : (RunLog.openRun w.clock flow.automation.id thread.conversation.id
      thread.conversation.clientId data).run w.store = .ok (id, s))
    (unreadable : plan flow instead = .error fault) :
    (execute settings onTags flow c data instead).runOn w
      = (.error fault, { w with store := s }) := by
  unfold execute
  rw [runOn_bind, loaded]
  simp only [runOn_bind, run_transact, opened]
  cases instead with
  | some steps => cases unreadable
  | none =>
    simp only [plan] at unreadable
    simp only [runOn_bind, runOn_lift, unreadable]

theorem runOn_execute_of_readable {steps : List Step} {r : Except Fault Progress} {v : World}
    (loaded : (query (Thread.load? c)).runOn w = (.ok (some thread), w))
    (opened : (RunLog.openRun w.clock flow.automation.id thread.conversation.id
      thread.conversation.clientId data).run w.store = .ok (id, s))
    (readable : plan flow instead = .ok steps)
    (played : (runBeats settings onTags ⟨flow.automation.id, id, thread.conversation.id⟩
      (beats none steps)).runOn { w with store := s } = (r, v)) :
    (execute settings onTags flow c data instead).runOn w =
      (do endRun id r; return some id : Work (Option Int)).runOn v := by
  unfold execute
  rw [runOn_bind, loaded]
  simp only [runOn_bind, run_transact, opened]
  rw [← runSteps_eq_runBeats] at played
  cases instead with
  | some ss =>
    obtain rfl := Except.ok.inj readable
    simp only [runOn_bind, runOn_pure, run_attempt, played]
  | none =>
    simp only [plan] at readable
    simp only [runOn_bind, runOn_lift, run_attempt, readable, played]

end

/-- **Every execution goes in one of these ways.** -/
theorem executed_execute (settings : Settings) (onTags : TagHandler) (flow : Flow) (c : Int)
    (data : Value) (instead : Option (List Step)) (w : World) :
    Executed settings onTags flow c data instead w
      ((execute settings onTags flow c data instead).runOn w) := by
  have hw := Work.Keeps.reads (R := Eq) (Transaction.reads_loadThread c) w
  rcases ht : (query (Thread.load? c)).runOn w with ⟨fault | _ | thread, v⟩ <;> rw [ht] at hw <;>
    obtain rfl : w = v := hw
  · unfold execute
    rw [runOn_bind, ht]
    exact .refused fault (Store.refuses_of_load (run_of_runOn_query_error ht))
  · rw [runOn_execute_of_missing ht]
    exact .missing (conversation_of_loadThread ht).2
  · cases ho : (RunLog.openRun w.clock flow.automation.id thread.conversation.id
        thread.conversation.clientId data).run w.store with
    | error fault =>
      unfold execute
      rw [runOn_bind, ht]
      simp only [runOn_bind, run_transact, ho]
      exact .refused fault (Store.refuses_of_openRun (find?_of_loadThread ht).2 ho)
    | ok p =>
      obtain ⟨id, s⟩ := p
      cases hs : plan flow instead with
      | error fault =>
        rw [runOn_execute_of_unread ht ho hs]
        exact .unread thread id s fault ht ho hs
      | ok steps =>
        rw [runOn_execute_of_readable ht ho hs rfl]
        exact .ran thread id s steps _ _ ht ho hs rfl

/-! ## What the log of runs does not matter to -/

section

variable {R : World → World → Prop} [Std.Refl R]

/-- What a change of its run keeps is kept when a step is noted. -/
theorem keeps_begin (ctx : Context) (head : StepHead)
    (modifies : ∀ w {f : Run → Run}, (∀ r, (f r).opening = r.opening) →
      R w { w with store := w.store.modify Run ctx.runId f }) :
    Work.Keeps R (begin ctx head) :=
  Work.Keeps.transact fun w _ s hs => by
    rcases RunLog.append_eq_ok hs with ⟨-, rfl⟩ | ⟨r, entries, -, -, -, rfl⟩
    · exact Std.Refl.refl w
    · exact modifies w fun _ => rfl

/-- What a change of its run keeps, and the record of conclusions, is kept when the run ends. -/
theorem keeps_endRun [IsTrans World R] (id : Int) (r : Except Fault Progress)
    (modifies : ∀ w {f : Run → Run}, (∀ r, (f r).opening = r.opening) →
      R w { w with store := w.store.modify Run id f })
    (concludes : ∀ w x, R w { w with conclusions := w.conclusions ++ [x] }) :
    Work.Keeps R (endRun id r) := by
  refine Work.Keeps.bind (Work.Keeps.modify fun w => concludes w _) fun _ => ?_
  refine Work.Keeps.transact fun w _ s hs => ?_
  rcases RunLog.finish_eq_ok hs with ⟨-, rfl⟩ | ⟨r, -, -, rfl⟩
  · exact Std.Refl.refl w
  · exact modifies w fun _ => rfl

/-- What is kept by executions, where conditions in the conversation keep it and what becomes of
changes of tags. From its opening on a run keeps a relation of its own, `Mine`, as what is known of
the run is known then: it has to be kept when a step is noted and when the run ends. -/
theorem keeps_execute_of_log [IsTrans World R] {settings : Settings} {c : Int}
    (work : Stepwork settings c R) (Mine : Int → World → World → Prop)
    [∀ id, Std.Refl (Mine id)] [∀ id, IsTrans World (Mine id)]
    (mine : ∀ {id w v}, R w v → Mine id w v)
    (awaits : ∀ ctx : Context, ctx.conversationId = c → ∀ stepId c,
      Work.Keeps R (awaitCondition ctx stepId c))
    (begins : ∀ ctx head, Work.Keeps (Mine ctx.runId) (begin ctx head))
    (ends : ∀ id r, Work.Keeps (Mine id) (endRun id r))
    (opens : ∀ w {automationId clientId data id s},
      (RunLog.openRun w.clock automationId c clientId data).run w.store = .ok (id, s) →
        ∀ {v}, Mine id { w with store := s } v → R w v) {onTags : TagHandler}
    (handled : ∀ kind channel tags, Work.Keeps R (onTags kind c channel tags)) (flow : Flow)
    (data : Value) (instead : Option (List Step)) :
    Work.Keeps R (execute settings onTags flow c data instead) := by
  intro w
  have he := executed_execute settings onTags flow c data instead w
  generalize (execute settings onTags flow c data instead).runOn w = out at he
  cases he with
  | refused fault => exact Std.Refl.refl w
  | missing => exact Std.Refl.refl w
  | unread thread id s fault loaded opened unreadable =>
    obtain rfl : thread.conversation.id = c := Store.id_of_find? (find?_of_loadThread loaded).2
    exact opens w opened (Std.Refl.refl _)
  | ran thread id s steps r v loaded opened readable played =>
    obtain rfl : thread.conversation.id = c := Store.id_of_find? (find?_of_loadThread loaded).2
    have plays : ∀ b, Work.Keeps (Mine id) (playBeat settings onTags
        ⟨flow.automation.id, id, thread.conversation.id⟩ b) := fun b w =>
      mine (keeps_playBeat work (awaits _ rfl) (fun kind _ => handled kind) b w)
    have hplayed := keeps_runBeats (begins ⟨flow.automation.id, id, thread.conversation.id⟩) plays
      (beats none steps) { w with store := s }
    rw [played] at hplayed
    rw [snd_runOn_endRun]
    exact opens w opened (IsTrans.trans _ v _ hplayed (ends id r v))

/-- Where changes of a run keep its relation that leave alone what was settled at first, and the
record of conclusions does, it does not matter what the changes are. -/
theorem keeps_execute_of_own [IsTrans World R] {settings : Settings} {c : Int}
    (work : Stepwork settings c R) (Mine : Int → World → World → Prop)
    [∀ id, Std.Refl (Mine id)] [∀ id, IsTrans World (Mine id)]
    (mine : ∀ {id w v}, R w v → Mine id w v)
    (awaits : ∀ ctx : Context, ctx.conversationId = c → ∀ stepId c,
      Work.Keeps R (awaitCondition ctx stepId c))
    (modifies : ∀ w id {f : Run → Run}, (∀ r, (f r).opening = r.opening) →
      Mine id w { w with store := w.store.modify Run id f })
    (concludes : ∀ w id x, Mine id w { w with conclusions := w.conclusions ++ [x] })
    (opens : ∀ w {automationId clientId data id s},
      (RunLog.openRun w.clock automationId c clientId data).run w.store = .ok (id, s) →
        ∀ {v}, Mine id { w with store := s } v → R w v) {onTags : TagHandler}
    (handled : ∀ kind channel tags, Work.Keeps R (onTags kind c channel tags)) (flow : Flow)
    (data : Value) (instead : Option (List Step)) :
    Work.Keeps R (execute settings onTags flow c data instead) :=
  keeps_execute_of_log work Mine mine awaits
    (fun ctx head => keeps_begin ctx head fun w _ hf => modifies w _ hf)
    (fun id r => keeps_endRun id r (fun w _ hf => modifies w _ hf) fun w => concludes w id) opens
    handled flow data instead

/-- What the opening of a run keeps, changes of it that leave alone what was settled then, and the
record of conclusions, is kept by executions, where conditions in the conversation keep it and what
becomes of changes of tags. -/
theorem keeps_execute_of_awaits [IsTrans World R] {settings : Settings} {c : Int}
    (work : Stepwork settings c R)
    (awaits : ∀ ctx : Context, ctx.conversationId = c → ∀ stepId c,
      Work.Keeps R (awaitCondition ctx stepId c))
    (modifies : ∀ w id {f : Run → Run}, (∀ r, (f r).opening = r.opening) →
      R w { w with store := w.store.modify Run id f })
    (concludes : ∀ w x, R w { w with conclusions := w.conclusions ++ [x] })
    (opens : ∀ w {automationId c clientId data id s},
      (RunLog.openRun w.clock automationId c clientId data).run w.store = .ok (id, s) →
        R w { w with store := s }) {onTags : TagHandler}
    (handled : ∀ kind channel tags, Work.Keeps R (onTags kind c channel tags)) (flow : Flow)
    (data : Value) (instead : Option (List Step)) :
    Work.Keeps R (execute settings onTags flow c data instead) :=
  keeps_execute_of_own work (fun _ => R) id awaits modifies (fun w _ => concludes w)
    (fun w _ _ _ _ _ opened v h => IsTrans.trans w _ v (opens w opened) h) handled flow data instead

/-- The same where conditions keep it in any conversation. -/
theorem keeps_execute_of_opens [IsTrans World R] {settings : Settings} {c : Int}
    (work : Stepwork settings c R)
    (awaits : ∀ ctx stepId c, Work.Keeps R (awaitCondition ctx stepId c))
    (modifies : ∀ w id {f : Run → Run}, (∀ r, (f r).opening = r.opening) →
      R w { w with store := w.store.modify Run id f })
    (concludes : ∀ w x, R w { w with conclusions := w.conclusions ++ [x] })
    (opens : ∀ w {automationId c clientId data id s},
      (RunLog.openRun w.clock automationId c clientId data).run w.store = .ok (id, s) →
        R w { w with store := s }) {onTags : TagHandler}
    (handled : ∀ kind channel tags, Work.Keeps R (onTags kind c channel tags)) (flow : Flow)
    (data : Value) (instead : Option (List Step)) :
    Work.Keeps R (execute settings onTags flow c data instead) :=
  keeps_execute_of_awaits work (fun ctx _ => awaits ctx) modifies concludes opens handled flow data
    instead

/-- What does not depend on the log of runs or the record of conclusions is kept by executions,
where conditions keep it and what becomes of changes of tags. -/
theorem keeps_execute [IsTrans World R]
    (runs : ∀ w rows, R w { w with store := { w.store with runs := rows } })
    (concludes : ∀ w x, R w { w with conclusions := w.conclusions ++ [x] })
    {settings : Settings} {c : Int} (work : Stepwork settings c R)
    (awaits : ∀ ctx stepId c, Work.Keeps R (awaitCondition ctx stepId c)) {onTags : TagHandler}
    (handled : ∀ kind channel tags, Work.Keeps R (onTags kind c channel tags)) (flow : Flow)
    (data : Value) (instead : Option (List Step)) :
    Work.Keeps R (execute settings onTags flow c data instead) := by
  refine keeps_execute_of_opens work awaits (fun w id f _ => runs w _) concludes
    (fun w _ _ _ _ _ _ h => ?_) handled flow data instead
  obtain ⟨-, -, rfl⟩ := RunLog.openRun_eq_ok h
  exact runs w _

end

/-! ## What neither the log of runs nor the slots matter to -/

section

variable {R : World → World → Prop} [Std.Refl R] [IsTrans World R]

/-- What does not depend on the log of runs, on slots, on the records of pauses and conclusions or
on what is remembered. -/
structure Unlogged (R : World → World → Prop) : Prop where
  aside : ∀ {w v}, Aside w v → R w v
  remembers : ∀ w m, R w { w with memory := m }
  runs : ∀ w rows, R w { w with store := { w.store with runs := rows } }
  slots : ∀ w c fields, R w { w with store := w.store.withMetadata c fields }
  pauses : ∀ w p, R w { w with pauses := w.pauses ++ [p] }
  concludes : ∀ w x, R w { w with conclusions := w.conclusions ++ [x] }

variable (hR : Unlogged R)

include hR

theorem Unlogged.awaitCondition (ctx : Context) (stepId : String) (c : Condition) :
    Work.Keeps R (awaitCondition ctx stepId c) := by
  refine keeps_awaitCondition fun w facts s _ hs => ?_
  have hstore : R w { w with store := s } := by
    rcases Slot.save_eq_ok hs with ⟨-, rfl⟩ | ⟨k, fields, -, -, rfl⟩
    · exact Std.Refl.refl w
    · exact hR.slots w ctx.conversationId fields
  exact IsTrans.trans w _ _ hstore (hR.pauses { w with store := s } _)

/-- What does not depend on the log of runs, on slots or on the records is kept by executions. -/
theorem Unlogged.execute {settings : Settings} {onTags : TagHandler}
    (handled : ∀ kind c channel tags, Work.Keeps R (onTags kind c channel tags)) (flow : Flow)
    (c : Int) (data : Value) (instead : Option (List Step)) :
    Work.Keeps R (execute settings onTags flow c data instead) :=
  keeps_execute hR.runs hR.concludes (.of_aside settings hR.aside) hR.awaitCondition
    (fun kind => handled kind c) flow data instead

end

/-! ## Events -/

/-- Whether a tag automation fired is looked up in the record of firings, and nowhere else. -/
theorem runOn_recentlyFired (settings : Settings) (automationId : Int) (event : Event) (w : World) :
    ∃ fired firings, (recentlyFired settings automationId event).runOn w
      = (.ok fired, { w with memory := { w.memory with firings } }) := by
  unfold recentlyFired
  split
  · exact ⟨false, w.memory.firings, rfl⟩
  · exact ⟨_, _, rfl⟩

section

variable {R : World → World → Prop} [Std.Refl R] [IsTrans World R] {settings : Settings}
  {onTags : TagHandler}

section

-- Events change what is remembered, but not which clicks were seen.
variable (remembers : ∀ w m, m.clicks = w.memory.clicks → R w { w with memory := m })

include remembers

omit [Std.Refl R] [IsTrans World R] in
theorem keeps_recentlyFired (automationId : Int) (event : Event) :
    Work.Keeps R (recentlyFired settings automationId event) := by
  intro w
  obtain ⟨fired, firings, hfired⟩ := runOn_recentlyFired settings automationId event w
  rw [hfired]
  exact remembers w _ rfl

omit [Std.Refl R] in
theorem keeps_guarded {α : Type} {x : Work α} (hx : Work.Keeps R x) :
    Work.Keeps R (guarded x) := by
  intro w
  let raised : World := { w with memory := { w.memory with tagGuard := true } }
  let after : World := (x.runOn raised).2
  refine IsTrans.trans w raised _ (remembers w raised.memory rfl) ?_
  exact IsTrans.trans raised after _ (hx raised)
    (remembers after { after.memory with tagGuard := w.memory.tagGuard } rfl)

theorem keeps_fire {event : Event} {flow : Flow}
    (executes : Work.Keeps R
      (execute settings onTags flow event.conversationId (.object event.triggerData) none)) :
    Work.Keeps R (fire settings onTags event flow) := by
  unfold fire
  split
  · refine Work.Keeps.bind (keeps_recentlyFired remembers _ _) fun fired => ?_
    split
    · exact Work.Keeps.pure _
    · exact keeps_guarded remembers executes
  · exact executes

theorem keeps_fireAll {event : Event} :
    ∀ flows, (∀ flow ∈ flows, Work.Keeps R
      (execute settings onTags flow event.conversationId (.object event.triggerData) none)) →
    Work.Keeps R (fireAll settings onTags event flows)
  | [], _ => Work.Keeps.pure _
  | flow :: rest, executes =>
    Work.Keeps.bind (keeps_fire remembers (executes flow List.mem_cons_self)) fun _ =>
      Work.Keeps.bind (keeps_fireAll rest fun f hf => executes f (List.mem_cons_of_mem flow hf))
        fun _ => Work.Keeps.pure _

/-- What every execution keeps that an event sets off is kept by the event, if of what is remembered
it depends on nothing but the clicks. -/
theorem keeps_dispatchWith {event : Event}
    (executes : ∀ flow, Work.Keeps R
      (execute settings onTags flow event.conversationId (.object event.triggerData) none)) :
    Work.Keeps R (dispatchWith settings onTags event) :=
  Work.Keeps.bind (.reads (Transaction.reads_matching event)) fun flows =>
    keeps_fireAll remembers flows fun flow _ => executes flow

end

omit [IsTrans World R] in
theorem keeps_quiet (kind : EventKind) (c channel : Int) (tags : List Int) :
    Work.Keeps R (quiet kind c channel tags) := Work.Keeps.pure _

/-- What events in a conversation keep of which nothing more comes is kept when changes of tags
there are events. -/
theorem keeps_chained {c : Int}
    (dispatches : ∀ event : Event, event.conversationId = c →
      Work.Keeps R (dispatchWith settings quiet event))
    (kind : EventKind) (channel : Int) (tags : List Int) :
    Work.Keeps R (chained settings kind c channel tags) := by
  refine Work.Keeps.bind Work.Keeps.get fun w => ?_
  split
  · exact Work.Keeps.pure _
  · exact Work.Keeps.returning (dispatches _ rfl)

/-- What every execution in a conversation keeps, if changes of tags there keep it, and what does
not depend on what is remembered. -/
structure Runwork (settings : Settings) (c : Int) (R : World → World → Prop) : Prop where
  executes : ∀ {onTags : TagHandler},
    (∀ kind channel tags, Work.Keeps R (onTags kind c channel tags)) →
      ∀ flow data instead, Work.Keeps R (execute settings onTags flow c data instead)
  remembers : ∀ w m, R w { w with memory := m }

namespace Runwork

variable {c : Int} (work : Runwork settings c R)

include work

theorem dispatchWith
    (handled : ∀ kind channel tags, Work.Keeps R (onTags kind c channel tags)) {event : Event}
    (hc : event.conversationId = c) : Work.Keeps R (dispatchWith settings onTags event) := by
  subst hc
  exact keeps_dispatchWith (fun w m _ => work.remembers w m) fun flow =>
    work.executes handled flow _ none

theorem chained (kind : EventKind) (channel : Int) (tags : List Int) :
    Work.Keeps R (chained settings kind c channel tags) :=
  keeps_chained (fun _ hc => work.dispatchWith (fun kind => keeps_quiet kind c) hc) kind channel
    tags

theorem dispatch {event : Event} (hc : event.conversationId = c) :
    Work.Keeps R (dispatch settings event) := work.dispatchWith work.chained hc

end Runwork

variable (hR : Unlogged R)

include hR

theorem Unlogged.chained (kind : EventKind) (c channel : Int) (tags : List Int) :
    Work.Keeps R (chained settings kind c channel tags) :=
  keeps_chained (fun _ _ => keeps_dispatchWith (fun w m _ => hR.remembers w m)
    fun flow => hR.execute keeps_quiet flow _ _ _) kind channel tags

theorem Unlogged.dispatch (event : Event) : Work.Keeps R (dispatch settings event) :=
  keeps_dispatchWith (fun w m _ => hR.remembers w m) fun flow => hR.execute hR.chained flow _ _ _

theorem Unlogged.playBeat (ctx : Context) (b : Beat) :
    Work.Keeps R (playBeat settings (Engine.chained settings) ctx b) :=
  keeps_playBeat (.of_aside settings hR.aside) (hR.awaitCondition ctx)
    (fun kind _ => hR.chained kind _) b

end

end Engine

end Deskflow
