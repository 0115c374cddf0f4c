import Deskflow.Proofs.RunLedger

/-!
# Going on from a suspension

However events follow each other, a run is gone on from once at most, and only if it stopped at a
condition that did not hold. Every operation of the engine leaves a world orderly, in the sense of
`World.Orderly`; so does the desk between events, as long as it leaves runs and slots alone
(`World.Meanwhile`). `Chronicle` is what can happen to a desk in this way.

A run is gone on from in `_resume`, which takes the slot that `save` had filled.

* `orderly_runBeats`: a run is put into a slot once at most while it is carried out.
* `ripe?_eq_ok`, `resumed_resume`: when a run goes on, and how it goes when a conversation is looked
  at.
* `tidy_dispatch`, `tidy_resume`: the events.
* `keeps_handle`, `Runwork.handle`: what these two keep, or every execution, is kept by everything
  that can come to the engine.
* `Chronicle.resumed_once`: the result.
-/

namespace Deskflow

namespace Engine

open Work World Ledger

/-- The world is left orderly, whatever runs are being carried out. -/
def Tidy (w v : World) : Prop := ∀ active, Orderly active w → Orderly active v

instance : Std.Refl Tidy := ⟨fun _ _ h => h⟩

instance : IsTrans World Tidy := ⟨fun _ _ _ h k active hw => k active (h active hw)⟩

theorem Tidy.of_aside {w v : World} (h : Aside w v) : Tidy w v := fun _ hw => hw.of_aside h

theorem Tidy.of_memory (w : World) (m : Memory) : Tidy w { w with memory := m } := fun _ hw =>
  hw.congr rfl (fun _ _ h => h) rfl hw.spares

variable {settings : Settings} {onTags : TagHandler} {active : List Context}

/-- A run that is not carried out any longer is ended. -/
theorem orderly_endRun {id : Int} (hid : id ∉ active.map Context.runId)
    (r : Except Fault Progress) {w : World} (h : Orderly active w) :
    Orderly active ((endRun id r).runOn w).2 := by
  rw [runOn_endRun, run_transact]
  have h : Orderly active { w with conclusions := w.conclusions ++ [⟨id, r⟩] } :=
    h.congr rfl (fun _ _ hx => hx) rfl h.spares
  cases hs : (RunLog.finish w.clock id (endOf r)).run w.store with
  | error fault => exact h
  | ok out =>
    obtain ⟨_, s⟩ := out
    rcases RunLog.finish_eq_ok hs with ⟨-, rfl⟩ | ⟨-, -, -, rfl⟩
    · exact h
    · exact h.ends hid w.clock (endOf r)

/-- A beat leaves the world orderly, where the run that it is of may be put into a slot once more
only if it goes on. -/
theorem orderly_runBeat
    (handled : ∀ kind c channel tags, Work.Keeps Tidy (onTags kind c channel tags))
    {ctx : Context} {b : Beat}
    (hkind : ∀ c, b.action = some (.condition c) → b.head.kind = "condition") {w v : World}
    {r : Except Fault Progress} (h : Orderly (ctx :: active) w)
    (hr : (runBeat settings onTags ctx b).runOn w = (r, v)) :
    Orderly active v ∧ (r = .ok .goesOn → Orderly (ctx :: active) v) := by
  unfold runBeat at hr
  rw [runOn_bind] at hr
  rcases hbegin : (begin ctx b.head).runOn w with ⟨fault | _, m⟩ <;> rw [hbegin] at hr <;>
    obtain ⟨hb, hlast⟩ := h.begins hbegin
  · cases hr
    exact ⟨hb.tail, fun h => by cases h⟩
  have hplayed := played_playBeat (.of_aside settings Tidy.of_aside)
    (fun kind _ => handled kind ctx.conversationId) b m
  rw [show (playBeat settings onTags ctx b).runOn m = (r, v) from hr] at hplayed
  cases hplayed with
  | kept _ _ passes keeps => exact ⟨(keeps _ hb).tail, fun _ => keeps _ hb⟩
  | stopped c facts s hact hk hc hs =>
    -- The condition is the step that was noted last.
    have hends : ∀ p ∈ m.store.runs, p.id = ctx.runId → p.EndsAtCondition := fun p hp hid =>
      ⟨.str b.head.stepId, hkind c hact ▸ hlast rfl p hp hid⟩
    exact ⟨hb.save hends hc hs, fun h => by cases h⟩

/-- **A run that is carried out is put into a slot once at most**, on the line of steps that were
read. -/
theorem orderly_runBeats (settings : Settings) {onTags : TagHandler}
    (handled : ∀ kind c channel tags, Work.Keeps Tidy (onTags kind c channel tags))
    {ctx : Context} : ∀ (bs : List Beat),
      (∀ b ∈ bs, ∀ c, b.action = some (.condition c) → b.head.kind = "condition") →
      ∀ {w : World}, Orderly (ctx :: active) w →
        Orderly active ((runBeats settings onTags ctx bs).runOn w).2
  | [], _, w, h => h.tail
  | b :: rest, hkinds, w, h => by
    rw [runBeats, runOn_bind]
    rcases hb : (runBeat settings onTags ctx b).runOn w with ⟨r, v⟩
    obtain ⟨hv, hgoes⟩ := orderly_runBeat handled (hkinds b List.mem_cons_self) h hb
    rcases r with fault | _ | _
    · exact hv
    · exact orderly_runBeats settings handled rest
        (fun b' hb' => hkinds b' (List.mem_cons_of_mem b hb')) (hgoes rfl)
    · exact hv

/-- An execution of steps that were read leaves a world orderly where the opening of its run
does. -/
theorem orderly_execute
    (handled : ∀ kind c channel tags, Work.Keeps Tidy (onTags kind c channel tags)) {flow : Flow}
    {c : Int} {triggerData : Value} {instead : Option (List Step)}
    (hread : ∀ steps, plan flow instead = .ok steps → ∀ s ∈ steps, ∃ d, Step.parse d = .ok s)
    {w : World} (h : Orderly active w)
    (opens : ∀ k id s, w.store.find? Conversation c = some k →
      (RunLog.openRun w.clock flow.automation.id k.id k.clientId triggerData).run w.store
        = .ok (id, s) →
      Orderly (⟨flow.automation.id, id, k.id⟩ :: active) { w with store := s }) :
    Orderly active ((execute settings onTags flow c triggerData instead).runOn w).2 := by
  have he := executed_execute settings onTags flow c triggerData instead w
  generalize (execute settings onTags flow c triggerData instead).runOn w = out at he
  cases he with
  | refused fault => exact h
  | missing => exact h
  | unread thread id s fault loaded opened _ =>
    exact (opens _ id s (find?_of_loadThread loaded).2 opened).tail
  | ran thread id s steps r v loaded opened readable played =>
    have hopened := opens _ id s (find?_of_loadThread loaded).2 opened
    have hv := orderly_runBeats settings handled (beats none steps)
      (fun b hb cond hcond => kind_of_beats (hread steps readable) hb hcond) hopened
    rw [played] at hv
    rw [snd_runOn_endRun]
    have hnodup := List.nodup_cons.mp hopened.claimed_nodup
    exact orderly_endRun (fun hid => hnodup.1 (List.mem_append_left _ hid)) r hv

/-! ## Opening a run -/

theorem previousRun?_opened (now : Moment) (automationId c : Int) (clientId : Option Int)
    (f : String × Value) (fields : Record) (id : Int) :
    (RunLog.opened now automationId c clientId (.object (f :: fields)) id).previousRun? =
      match Record.get? (f :: fields) "previous_run_id" with
      | some (.int n) => some n
      | _ => none := rfl

/-- A run that an event sets off goes on from no run. -/
theorem previousRun?_of_event (now : Moment) (automationId c : Int) (clientId : Option Int)
    (event : Event) (id : Int) :
    (RunLog.opened now automationId c clientId (.object event.triggerData) id).previousRun?
      = none := by
  have hnone : Record.get? event.triggerData "previous_run_id" = none := by
    unfold Event.triggerData Record.get?
    cases event.messageId <;> cases event.messageText <;> cases event.tagIds <;> rfl
  unfold Event.triggerData at hnone ⊢
  simp only [List.cons_append, List.nil_append] at hnone ⊢
  rw [previousRun?_opened, hnone]

/-- A run that goes on from a suspension names the run that was suspended. -/
theorem previousRun?_of_suspension (now : Moment) (automationId c : Int) (clientId : Option Int)
    (s : Suspension) (id : Int) :
    (RunLog.opened now automationId c clientId (.object (resumeData s)) id).previousRun?
      = some s.runId := rfl

/-- The opening of a run, where what it goes on from, if anything, stopped at a condition and is
named by no other. -/
theorem orderly_openRun {w : World} (h : Orderly active w) {automationId c : Int}
    {clientId : Option Int} {triggerData : Value} {id : Int} {s : Store} {previous : Option Int}
    (hrun : (RunLog.opened w.clock automationId c clientId triggerData id).previousRun? = previous)
    (hopen : (RunLog.openRun w.clock automationId c clientId triggerData).run w.store = .ok (id, s))
    (hprev : ∀ r, previous = some r →
      Stopped w.store w.pauses ⟨automationId, r, c⟩
        ∧ r ∉ claimed active w.store.legs
        ∧ ∀ d (t : Suspension), w.store.slot? d = some (.object t.record) → t.runId ≠ r) :
    Orderly (⟨automationId, id, c⟩ :: active) { w with store := s } := by
  obtain ⟨rfl, -, rfl⟩ := RunLog.openRun_eq_ok hopen
  have hrows : (w.store.insert (RunLog.opened w.clock automationId c clientId triggerData
      (w.store.nextId Run))).runs = w.store.runs ++ [RunLog.opened w.clock automationId c clientId
        triggerData (w.store.nextId Run)] :=
    Store.rows_insert_nextId w.store (RunLog.opened w.clock automationId c clientId triggerData 0)
  refine h.push (v := { w with store := _ }) hrows (fun m hm => ?_) (fun _ => rfl) rfl rfl
    ⟨rfl, _, rfl⟩ fun r hr => hprev r (hrun.symm.trans hr)
  obtain ⟨r, hr, rfl⟩ := List.mem_map.mp hm
  exact Store.id_lt_nextId hr

/-! ## Events -/

theorem tidy_execute
    (handled : ∀ kind c channel tags, Work.Keeps Tidy (onTags kind c channel tags))
    (event : Event) (flow : Flow) : Work.Keeps Tidy
      (execute settings onTags flow event.conversationId (.object event.triggerData) none) := by
  intro w active h
  have hread : ∀ steps, plan flow none = .ok steps → ∀ s ∈ steps, ∃ d, Step.parse d = .ok s :=
    fun _ => exists_parse_of_steps
  refine orderly_execute handled hread h fun k id s found opened => ?_
  exact orderly_openRun h (previousRun?_of_event _ _ _ _ event _) opened fun _ h => by cases h

theorem tidy_chained (kind : EventKind) (c channel : Int) (tags : List Int) :
    Work.Keeps Tidy (chained settings kind c channel tags) :=
  keeps_chained (fun event _ => keeps_dispatchWith (fun w m _ => Tidy.of_memory w m)
    (tidy_execute keeps_quiet event)) kind channel tags

theorem tidy_dispatch (event : Event) : Work.Keeps Tidy (dispatch settings event) :=
  keeps_dispatchWith (fun w m _ => Tidy.of_memory w m) (tidy_execute tidy_chained event)

/-- The flow that is loaded by an id is that of the automation in the store, if there is one, with
its stored steps. -/
theorem found_of_loadFlow {id : Int} {w : World} {found : Option Flow}
    (h : (query (Flow.load? id)).runOn w = (.ok found, w)) :
    w.store.find? Automation id = found.map Flow.automation
      ∧ ∀ flow ∈ found, flow.rows = w.store.stepsOf id := by
  obtain ⟨s, hload, -⟩ := runOn_query_eq_ok.mp h
  unfold Flow.load? at hload
  obtain ⟨automation, s', hfound, hload⟩ := Transaction.run_bind_eq_ok.mp hload
  obtain ⟨rfl, rfl, -⟩ := Transaction.run_load_eq_ok hfound
  cases ha : w.store.find? Automation id with
  | none =>
    rw [ha] at hload
    cases hload
    exact ⟨rfl, by simp⟩
  | some a =>
    rw [ha] at hload
    obtain ⟨_, s₁, hneed, hload⟩ := Transaction.run_bind_eq_ok.mp hload
    obtain rfl := Transaction.need_eq_ok hneed
    cases hload
    refine ⟨rfl, ?_⟩
    rintro _ ⟨⟩
    exact congrArg w.store.stepsOf (Store.id_of_find? ha)

/-- A suspension of a conversation is ripe: its automation is there and active, the condition that
it waits for holds by now, and these are the steps after the one that it waits at. -/
structure Ripe (c : Int) (w : World) (t : Suspension) (flow : Flow) (remaining : List Step) :
    Prop where
  found : w.store.find? Automation t.automationId = some flow.automation
  rows : flow.rows = w.store.stepsOf t.automationId
  active : flow.automation.isActive = true
  holds : ∃ k facts, w.store.find? Conversation c = some k
    ∧ (loadFacts c k.clientId).runOn w = (.ok facts, w)
    ∧ Condition.evaluate facts (t.condition.getD "condition_type")
        (t.condition.getD "condition_value") = .ok true
  after : ∃ steps, flow.steps = .ok steps ∧ stepsAfter? t.stepId steps = some remaining

theorem Ripe.own {c : Int} {w : World} {t : Suspension} {flow : Flow} {remaining : List Step}
    (h : Ripe c w t flow remaining) : flow.automation.id = t.automationId :=
  Store.id_of_find? h.found

/-- Looks whether a suspension is ripe; tells its flow and the steps after the one that it waits
at. -/
def ripe? (c : Int) (t : Suspension) : Work (Option (Flow × List Step)) := do
  let some flow ← query (Flow.load? t.automationId) | return none
  if !flow.automation.isActive then return none
  let some thread ← query (Thread.load? c) | return none
  let facts ← loadFacts c thread.conversation.clientId
  let holds ← (Condition.evaluate facts (t.condition.getD "condition_type")
    (t.condition.getD "condition_value") : Work Bool)
  if !holds then return none
  let steps ← (flow.steps : Work (List Step))
  return (stepsAfter? t.stepId steps).map (Prod.mk flow)

/-- A run goes on from a suspension that was taken and is ripe. -/
theorem resume_eq_ripe? (settings : Settings) (c : Int) : resume settings c = (do
    let some t ← query (Slot.take c) | return none
    let some (flow, remaining) ← ripe? c t | return none
    execute settings (chained settings) flow c (.object (resumeData t)) (some remaining)) := by
  unfold resume ripe?
  congr 1
  funext taken?
  cases taken? with
  | none => rfl
  | some t =>
    simp only [bind_assoc]
    congr 1
    funext found
    cases found with
    | none => simp
    | some flow =>
      dsimp only
      split
      · simp
      simp only [bind_assoc]
      congr 1
      funext thread
      cases thread with
      | none => simp
      | some thread =>
        simp only [bind_assoc]
        congr 1
        funext facts
        congr 1
        funext holds
        split
        · simp
        simp only [bind_assoc]
        congr 1
        funext steps
        cases stepsAfter? t.stepId steps <;> simp

theorem keeps_ripe? (c : Int) (t : Suspension) : Work.Keeps Eq (ripe? c t) := by
  refine Work.Keeps.bind (.reads (Transaction.reads_loadFlow _)) fun found => ?_
  cases found with
  | none => exact Work.Keeps.pure _
  | some flow =>
    dsimp only
    split
    · exact Work.Keeps.pure _
    refine Work.Keeps.bind (.reads (Transaction.reads_loadThread _)) fun thread => ?_
    cases thread with
    | none => exact Work.Keeps.pure _
    | some thread =>
      refine Work.Keeps.bind (keeps_loadFacts _ _) fun facts => ?_
      refine Work.Keeps.bind (Work.Keeps.lift _) fun holds => ?_
      split
      · exact Work.Keeps.pure _
      · exact Work.Keeps.returning (Work.Keeps.lift _)

/-- **A suspension is found ripe exactly if it is.** -/
theorem ripe?_eq_ok {c : Int} {w v : World} {t : Suspension} {out : Option (Flow × List Step)}
    (h : (ripe? c t).runOn w = (.ok out, v)) (flow : Flow) (remaining : List Step) :
    out = some (flow, remaining) ↔ Ripe c w t flow remaining := by
  unfold ripe? at h
  obtain ⟨found, m, hload, h₁⟩ := runOn_bind_eq_ok.mp h
  obtain rfl := eq_of_reads (.reads (Transaction.reads_loadFlow _)) hload
  obtain ⟨hfound, hrows⟩ := found_of_loadFlow hload
  rcases found with _ | stored
  · cases h₁
    exact iff_of_false nofun fun hripe => nomatch hfound.symm.trans hripe.found
  -- The flow is told by what is stored.
  have told (hripe : Ripe c m t flow remaining) : flow = stored := by
    obtain ⟨automation, rows⟩ := flow
    obtain ⟨automation', rows'⟩ := stored
    obtain rfl : automation' = automation := Option.some.inj (hfound.symm.trans hripe.found)
    rw [show rows = m.store.stepsOf t.automationId from hripe.rows,
      show rows' = m.store.stepsOf t.automationId from hrows _ rfl]
  dsimp only at h₁
  split at h₁
  · rename_i hidle
    cases h₁
    exact iff_of_false nofun fun hripe => by simp [← told hripe, hripe.active] at hidle
  rename_i hactive
  obtain ⟨thread, m, hthread, h₂⟩ := runOn_bind_eq_ok.mp h₁
  obtain ⟨rfl, hk⟩ := conversation_of_loadThread hthread
  rcases thread with _ | thread
  · cases h₂
    refine iff_of_false nofun fun hripe => ?_
    obtain ⟨k, facts, hthere, -⟩ := hripe.holds
    cases hk.symm.trans hthere
  obtain ⟨facts, m, hfacts, h₃⟩ := runOn_bind_eq_ok.mp h₂
  obtain rfl := eq_of_reads (keeps_loadFacts _ _) hfacts
  obtain ⟨holds, m, hholds, h₄⟩ := runOn_bind_eq_ok.mp h₃
  obtain rfl := eq_of_reads (Work.Keeps.lift _) hholds
  have hheld : Condition.evaluate facts _ _ = .ok holds := congrArg Prod.fst hholds
  split at h₄
  · rename_i hfails
    cases h₄
    refine iff_of_false nofun fun hripe => ?_
    obtain ⟨k, facts', hthere, hfacts', htrue⟩ := hripe.holds
    cases hk.symm.trans hthere
    cases congrArg Prod.fst (hfacts.symm.trans hfacts')
    cases hheld.symm.trans htrue
    cases hfails
  rename_i hnot
  obtain rfl : holds = true := by simpa using hnot
  obtain ⟨steps, m, hsteps, h₅⟩ := runOn_bind_eq_ok.mp h₄
  obtain rfl := eq_of_reads (Work.Keeps.lift _) hsteps
  have hread : stored.steps = .ok steps := congrArg Prod.fst hsteps
  cases h₅
  constructor
  · intro hout
    obtain ⟨_, hafter, hpair⟩ := Option.map_eq_some_iff.mp hout
    cases hpair
    exact
      { found := hfound
        rows := hrows flow rfl
        active := by simpa using hactive
        holds := ⟨_, facts, hk, hfacts, hheld⟩
        after := ⟨steps, hread, hafter⟩ }
  · intro hripe
    obtain rfl := told hripe
    obtain ⟨steps', hsteps', hafter⟩ := hripe.after
    cases hread.symm.trans hsteps'
    rw [hafter]
    rfl

/-- What the slot of a conversation yields: a suspension that is ripe once the slot is emptied. -/
structure Yields (c : Int) (w : World) (s : Store) (t : Suspension) (flow : Flow)
    (remaining : List Step) : Prop where
  taken : (Slot.take c).run w.store = .ok (some t, s)
  ripe : Ripe c { w with store := s } t flow remaining

/-- How it goes when a conversation is looked at: the slot cannot be read, or something goes wrong
once it was emptied; or it yields nothing, or else what it yields is gone on from. -/
inductive Resumed (settings : Settings) (c : Int) (w : World) :
    Except Fault (Option Int) × World → Prop
  | untaken (fault : Fault) (failed : (Slot.take c).run w.store = .error fault) :
      Resumed settings c w (.error fault, w)
  | stopped (t : Suspension) (s : Store) (fault : Fault)
      (taken : (Slot.take c).run w.store = .ok (some t, s)) :
      Resumed settings c w (.error fault, { w with store := s })
  | dropped (taken? : Option Suspension) (s : Store)
      (taken : (Slot.take c).run w.store = .ok (taken?, s))
      (unripe : ∀ s t flow remaining, ¬Yields c w s t flow remaining) :
      Resumed settings c w (.ok none, { w with store := s })
  | went (t : Suspension) (s : Store) (flow : Flow) (remaining : List Step)
      (yields : Yields c w s t flow remaining) :
      Resumed settings c w ((execute settings (chained settings) flow c (.object (resumeData t))
        (some remaining)).runOn { w with store := s })

/-- **Looking at a conversation goes in one of these ways.** -/
theorem resumed_resume (settings : Settings) (c : Int) (w : World) :
    Resumed settings c w ((resume settings c).runOn w) := by
  rw [resume_eq_ripe?, runOn_bind, query, run_transact]
  cases htake : (Slot.take c).run w.store with
  | error fault => exact .untaken fault htake
  | ok p =>
    obtain ⟨taken?, s⟩ := p
    rcases taken? with _ | t
    · refine .dropped none s htake ?_
      rintro _ _ _ _ ⟨htaken, -⟩
      cases htake.symm.trans htaken
    refine (keeps_ripe? c t).outcome_bind (fun fault => .stopped t s fault htake) fun out hout => ?_
    rcases out with _ | ⟨flow, remaining⟩
    · refine .dropped (some t) s htake ?_
      rintro _ _ flow remaining ⟨htaken, hripe⟩
      cases htake.symm.trans htaken
      cases (ripe?_eq_ok hout flow remaining).mpr hripe
    · exact .went t s flow remaining ⟨htake, (ripe?_eq_ok hout flow remaining).mp rfl⟩

/-- What holds if nothing can be taken from a slot, and when something was, and after every
execution that goes on from it, holds once a conversation was looked at. -/
theorem resume_induct {P : World → Prop} {c : Int} {w : World}
    (untaken : ∀ fault, (Slot.take c).run w.store = .error fault → P w)
    (taken : ∀ t s, (Slot.take c).run w.store = .ok (t, s) → P { w with store := s })
    (executed : ∀ t s flow remaining, Yields c w s t flow remaining →
      P ((execute settings (chained settings) flow c (.object (resumeData t))
        (some remaining)).runOn { w with store := s }).2) :
    P ((resume settings c).runOn w).2 := by
  have hr := resumed_resume settings c w
  generalize (resume settings c).runOn w = out at hr
  cases hr with
  | untaken fault failed => exact untaken fault failed
  | stopped t s fault htaken => exact taken (some t) s htaken
  | dropped taken? s htaken _ => exact taken taken? s htaken
  | went t s flow remaining yields => exact executed t s flow remaining yields

/-- **What is taken from a slot is gone on from once at most**, and by its own automation in its own
conversation. -/
theorem tidy_resume (c : Int) : Work.Keeps Tidy (resume settings c) := by
  intro w active h
  refine resume_induct (fun _ _ => h) (fun t s htake => (h.take htake).1) ?_
  intro t s flow remaining hyields
  obtain ⟨hafter, hnext⟩ := h.take hyields.taken
  obtain ⟨hstopped, hunclaimed, hslots⟩ := hnext t rfl
  obtain ⟨steps, hsteps, hremaining⟩ := hyields.ripe.after
  have hread : ∀ line, plan flow (some remaining) = .ok line →
      ∀ s ∈ line, ∃ d, Step.parse d = .ok s := by
    rintro _ ⟨⟩ step hstep
    obtain ⟨paused, -, rfl⟩ := Option.map_eq_some_iff.mp hremaining
    exact exists_parse_of_steps hsteps step (List.mem_of_mem_filter hstep)
  refine orderly_execute tidy_chained hread hafter fun k id s found opened => ?_
  obtain rfl : k.id = c := Store.id_of_find? found
  refine orderly_openRun hafter (previousRun?_of_suspension _ _ _ _ t _) opened ?_
  rintro r hr
  obtain rfl := Option.some.inj hr
  exact ⟨hyields.ripe.own ▸ hstopped, hunclaimed, hslots⟩

/-- What holds once the conversation of a message was looked at, and is kept by events, holds once
the message was handled. -/
theorem handleIncoming_induct {P : World → Prop} {r : Receipt} {w : World}
    (duplicate : r.duplicate = true → P w)
    (resumed : P ((resume settings r.conversationId).runOn w).2)
    (dispatched : ∀ event : Event, event.conversationId = r.conversationId →
      ∀ v, P v → P ((dispatch settings event).runOn v).2) :
    P ((handleIncoming settings r).runOn w).2 := by
  unfold handleIncoming
  split
  · exact duplicate ‹_›
  rw [runOn_bind]
  rcases hr : (resume settings r.conversationId).runOn w with ⟨fault | resumedRun, v⟩ <;>
    rw [hr] at resumed
  · exact resumed
  have bind : ∀ {α : Type} (kind : EventKind) (f : List Int → Work α) (u : World), P u →
      (∀ ids v, P v → P ((f ids).runOn v).2) →
        P (((dispatch settings (eventOf kind r)) >>= f).runOn u).2 := by
    intro α kind f u hu hf
    have hdispatched := dispatched (eventOf kind r) rfl u hu
    rw [runOn_bind]
    rcases hd : (dispatch settings (eventOf kind r)).runOn u with ⟨fault | ids, v⟩ <;>
      rw [hd] at hdispatched
    · exact hdispatched
    · exact hf ids v hdispatched
  simp only
  split
  · exact resumed
  split
  · exact bind _ _ v resumed fun ids u hu => bind _ _ u hu fun _ _ h => h
  · exact bind _ _ v resumed fun _ _ h => h

/-- What can come to the engine. -/
inductive Occurrence where
  | dispatched (event : Event)
  | triggered (kind : EventKind) (c : Int) (tags : List Int)
  | cameIn (r : Receipt)
  | lookedAt (c : Int)

/-- The conversation that it is about. -/
def Occurrence.conversationId : Occurrence → Int
  | .dispatched event => event.conversationId
  | .triggered _ c _ => c
  | .cameIn r => r.conversationId
  | .lookedAt c => c

/-- What the engine does about it. -/
def Occurrence.handle (settings : Settings) : Occurrence → Work Unit
  | .dispatched event => do let _ ← dispatch settings event
  | .triggered kind c tags => do let _ ← trigger settings kind c tags
  | .cameIn r => do let _ ← handleIncoming settings r
  | .lookedAt c => do let _ ← resume settings c

section

variable {R : World → World → Prop} [Std.Refl R] [IsTrans World R]

omit [IsTrans World R] in
theorem keeps_trigger {c : Int}
    (dispatches : ∀ event : Event, event.conversationId = c →
      Work.Keeps R (dispatch settings event)) (kind : EventKind) (tags : List Int) :
    Work.Keeps R (trigger settings kind c tags) := by
  intro w
  refine Work.Keeps.eq_bind (.reads (Transaction.reads_loadThread c)) (Std.Refl.refl w)
    fun thread loaded => ?_
  cases thread with
  | none => exact Std.Refl.refl w
  | some thread => exact dispatches _ (Store.id_of_find? (find?_of_loadThread loaded).2) w

/-- What is kept when an event in a conversation sets off runs, and when a run is gone on from
there, is kept by everything the engine does about it. -/
theorem keeps_handle (o : Occurrence)
    (dispatches : ∀ event : Event, event.conversationId = o.conversationId →
      Work.Keeps R (dispatch settings event))
    (resumes : Work.Keeps R (resume settings o.conversationId)) :
    Work.Keeps R (o.handle settings) := by
  cases o with
  | dispatched event => exact Work.Keeps.returning (dispatches event rfl)
  | triggered kind c tags => exact Work.Keeps.returning (keeps_trigger dispatches kind tags)
  | cameIn r =>
    exact Work.Keeps.returning fun w =>
      handleIncoming_induct (fun _ => Std.Refl.refl w) (resumes w) fun event hevent v h =>
        IsTrans.trans w v _ h (dispatches event hevent v)
  | lookedAt c => exact Work.Keeps.returning resumes

section

variable {c : Int} (work : Runwork settings c R)
  (takes : ∀ {w t s}, (Slot.take c).run w.store = .ok (t, s) → R w { w with store := s })

include work takes

/-- What the runs in a conversation keep is kept when one is gone on from there, if it is kept when
the slot is emptied. -/
theorem Runwork.resume : Work.Keeps R (resume settings c) := by
  intro w
  refine resume_induct (fun _ _ => Std.Refl.refl w) (fun _ _ => takes) ?_
  intro t s flow remaining hyields
  exact IsTrans.trans _ _ _ (takes hyields.taken)
    (work.executes work.chained flow _ (some remaining) _)

/-- It is kept by everything the engine does about the conversation. -/
theorem Runwork.handle {o : Occurrence} (ho : o.conversationId = c) :
    Work.Keeps R (o.handle settings) := by
  subst ho
  exact keeps_handle o (fun _ hc => work.dispatch hc) (work.resume takes)

end

end

theorem tidy_handle (o : Occurrence) : Work.Keeps Tidy (o.handle settings) :=
  keeps_handle o (fun event _ => tidy_dispatch event) (tidy_resume _)

end Engine

/-- What leaves the metadata of conversations alone leaves slots alone. -/
theorem Store.slot?_modify (s : Store) (id c : Int) {f : Conversation → Conversation}
    (hid : ∀ k, (f k).id = k.id) (hmetadata : ∀ k, (f k).metadata = k.metadata) :
    (s.modify Conversation id f).slot? c = s.slot? c := by
  unfold slot?
  rw [find?_modify s id c f hid, Option.bind_map]
  congr 1
  funext k
  simp only [Function.comp]
  split
  · rw [hmetadata]
  · rfl

/-! ## Chronicles -/

/-- A world in which nothing ran yet: no runs, nothing in a slot, and no script that would take
runs away. -/
structure World.Fresh (w : World) : Prop where
  runs : w.store.runs = []
  slots : ∀ c, w.store.slot? c = none
  spares : w.rehearsal.Spares .automationRuns

/-- What may happen to a world between events: runs and the record of pauses stay as they are, and
no slot is filled. Automations, conversations, clients, the clock and what the gateway will answer
may change at will. -/
structure World.Meanwhile (w v : World) : Prop where
  runs : v.store.runs = w.store.runs
  slots : ∀ c x, v.store.slot? c = some x → w.store.slot? c = some x
  pauses : v.pauses = w.pauses
  spares : v.rehearsal.Spares .automationRuns

/-- A conversation may change but for its metadata, and clients may come. -/
theorem World.meanwhile_of_known (w : World) (id : Int) (clients : List Client)
    {f : Conversation → Conversation} (hid : ∀ k, (f k).id = k.id)
    (hmetadata : ∀ k, (f k).metadata = k.metadata) (hspares : w.rehearsal.Spares .automationRuns) :
    w.Meanwhile
      { w with store := { w.store.modify Conversation id f with clients := clients } } where
  runs := rfl
  slots c _ hx := (Store.slot?_modify w.store id c hid hmetadata).symm.trans hx
  pauses := rfl
  spares := hspares

/-- The worlds that a fresh one can become, by events in any order and what happens between them. -/
inductive Chronicle : World → Prop
  | start {w : World} (h : w.Fresh) : Chronicle w
  | event {w : World} (settings : Settings) (o : Engine.Occurrence) (h : Chronicle w) :
      Chronicle ((o.handle settings).runOn w).2
  | meanwhile {w v : World} (h : Chronicle w) (hv : w.Meanwhile v) : Chronicle v

namespace Chronicle

open World

theorem orderly {w : World} (h : Chronicle w) : Orderly [] w := by
  induction h with
  | @start w h =>
    have hlegs : w.store.legs = [] := by rw [Store.legs, h.runs]; rfl
    exact
      { spares := h.spares
        legs_nodup := by simp [hlegs]
        opened := by simp
        underway := by simp
        slots := fun c x hx => by simp [h.slots] at hx
        resumed := by simp [hlegs]
        claimed_nodup := by simp [hlegs, Ledger.claimed] }
  | @event w settings o _ ih => exact Engine.tidy_handle o w [] ih
  | meanwhile _ hv ih =>
    exact ih.congr hv.runs hv.slots hv.pauses hv.spares

/-- **A run is gone on from once at most**, and only by a later run of its automation in its
conversation, after it stopped at a condition that did not hold: the condition is the last step in
its trace. -/
theorem resumed_once {w : World} (h : Chronicle w) (r : Int) :
    (w.store.runs.filter fun q => q.previousRun? == some r).length ≤ 1 ∧
      ∀ q ∈ w.store.runs, q.previousRun? = some r →
        ∃ p ∈ w.store.runs, p.id = r ∧ p.id < q.id ∧ p.automationId = q.automationId
          ∧ p.conversationId = q.conversationId ∧ p.EndsAtCondition
          ∧ ∃ z ∈ w.pauses, z.runId = r ∧ z.automationId = q.automationId
            ∧ z.conversationId = q.conversationId ∧ z.condition.holds z.facts = .ok false := by
  have ho := h.orderly
  constructor
  · have hnodup : (w.store.runs.filterMap Run.previousRun?).Nodup := by
      have := ho.claimed_nodup
      simpa [Ledger.claimed, Store.legs, List.filterMap_map, Function.comp_def, Run.leg] using this
    have hcount := List.nodup_iff_count_le_one.mp hnodup r
    rw [List.count, List.countP_filterMap] at hcount
    rw [← List.countP_eq_length_filter]
    refine le_of_eq_of_le (List.countP_congr fun q _ => ?_) hcount
    cases q.previousRun? <;> simp
  · intro q hq hprev
    obtain ⟨hlt, ⟨l, hl, hid, ha, hc⟩, ⟨z, hz, hctx, hfalse⟩, p, hp, hpid, hend⟩ :=
      ho.resumed q.leg (List.mem_map_of_mem hq) r hprev
    -- The run that the record is about is the one whose trace it is.
    obtain rfl : l = p.leg :=
      List.inj_on_of_nodup_map ho.legs_nodup hl (List.mem_map_of_mem hp) (hid.trans hpid.symm)
    have hz' := Engine.Context.mk.inj hctx
    exact ⟨p, hp, hpid, lt_of_eq_of_lt hpid hlt, ha, hc, hend, z, hz, hz'.2.1, hz'.1, hz'.2.2,
      hfalse⟩

/-! ### A run that is gone on from -/

/-- A conversation in which an automation waits until its client is new. -/
def lobby : World :=
  { store :=
      { conversations :=
          [{ id := 1, channelId := 1, clientId := none, operatorId := none, status := "open",
             metadata := .null, unreadCount := 0, lastMessageAt := none }]
        automations :=
          [{ id := 1, name := "welcome", description := none, channelId := none,
             trigger := "new_conversation", triggerConfig := .null, isActive := true }]
        steps :=
          [{ id := 1, automationId := 1, stepId := "wait", kind := "condition",
             config := .object [("condition_type", .str "is_new_client")], position := .null,
             order := 0, nextStepId := none, trueStepId := none, falseStepId := none }] } }

/-- The lobby once its conversation has begun, where the automation waits. -/
def waiting : World :=
  (((Engine.Occurrence.dispatched
    { kind := .newConversation, conversationId := 1, channelId := 1 }).handle {}).runOn lobby).2

/-- The same when the client is known. -/
def introduced : World :=
  { waiting with
    store :=
      { waiting.store.modify Conversation 1 fun c => { c with clientId := some 1 } with
        clients := [⟨1, none, none, none, none, .null⟩] } }

/-- The same when the conversation was looked at again. -/
def welcomed : World := (((Engine.Occurrence.lookedAt 1).handle {}).runOn introduced).2

theorem lobby_fresh : lobby.Fresh where
  runs := rfl
  slots c := by
    by_cases h : (1 : Int) = c
    · subst h
      rfl
    · exact Store.slot?_of_none (by simp [Store.find?, Row.rows, Row.id, lobby, h])
  spares := by simp [Rehearsal.Spares, lobby]

theorem waiting_meanwhile : waiting.Meanwhile introduced := by
  have hscript : waiting.rehearsal.script = [] := by decide +kernel
  have hspares : waiting.rehearsal.Spares .automationRuns := by simp [Rehearsal.Spares, hscript]
  exact meanwhile_of_known waiting 1 _ (fun _ => rfl) (fun _ => rfl) hspares

theorem welcomed_of_lobby : Chronicle welcomed :=
  .event {} (.lookedAt 1)
    (.meanwhile (.event {} (.dispatched _) (.start lobby_fresh)) waiting_meanwhile)

/-- In the lobby the second run goes on from the first, and nothing else does. -/
theorem resumed_once_welcomed :
    Chronicle welcomed ∧ welcomed.store.runs.map Run.previousRun? = [none, some 1] ∧
      (welcomed.store.runs.filter fun q => q.previousRun? == some 1).length ≤ 1 ∧
      (∃ p ∈ welcomed.store.runs, p.id = 1 ∧ p.EndsAtCondition) ∧
      ∃ z ∈ welcomed.pauses, z.runId = 1 ∧ z.condition.holds z.facts = .ok false := by
  have hruns : welcomed.store.runs.map Run.previousRun? = [none, some 1] := by decide +kernel
  obtain ⟨hone, hall⟩ := resumed_once welcomed_of_lobby 1
  refine ⟨welcomed_of_lobby, hruns, hone, ?_⟩
  obtain ⟨q, hq, hprev⟩ : ∃ q ∈ welcomed.store.runs, q.previousRun? = some 1 :=
    List.mem_map.mp (hruns ▸ by simp)
  obtain ⟨p, hp, hid, -, -, -, hend, z, hz, hrun, -, -, hfalse⟩ := hall q hq hprev
  exact ⟨⟨p, hp, hid, hend⟩, z, hz, hrun, hfalse⟩

end Chronicle

end Deskflow
