import Deskflow.Proofs.RunClosing
import Deskflow.Proofs.GroupTransparency
import Deskflow.Proofs.SlotJams

/-!
# When a suspension is gone on from

A conversation waits for a condition at a step of an automation. Once it is looked at, its slot is
emptied before anything else, and what the slot held is gone on from exactly if the automation is
there and active, has a step of that id, and the condition step, judged now, would let the run go
on. What a suspension keeps of the condition is judged as the step judges it, so that nothing comes
of it while what the condition looks at stays as it was.

It is assumed that every table is there and that ids fit their columns, so that nothing is refused
for want of a table; a script may delete rows while the run goes on.

The slot is emptied and its content judged in `_resume`; a condition step is judged by
`_condition_holds`.

* `runOn_loadFacts`, `factsOf_withMetadata`: what is known in a conversation does not depend on its
  slot.
* `awaitCondition_goesOn_iff`: when a condition step lets a run go on.
* `resume_exactly`: the result.
-/

namespace Deskflow

/-! ## What conditions look at -/

namespace Condition

/-- What a condition looks at is the same in two views of a conversation. -/
def SeesAlike (c : Condition) (f g : Facts) : Prop :=
  match c.kind with
  | "has_tag" => ∀ id, id ∈ f.tagIds ↔ id ∈ g.tagIds
  | "message_contains" => f.latestText = g.latestText
  | "is_new_client" => f.conversations = g.conversations
  | _ => True

theorem holds_congr {c : Condition} {f g : Facts} (h : c.SeesAlike f g) :
    c.holds f = c.holds g := by
  obtain ⟨kind, value⟩ := c
  unfold SeesAlike at h
  unfold holds evaluate
  split at h
  · rename_i hkind
    obtain rfl : kind = "has_tag" := hkind
    have hcontains : ∀ id, f.tagIds.contains id = g.tagIds.contains id := fun id => by
      simp [List.contains_eq_mem, h id]
    simp only [hcontains]
  · rename_i hkind
    obtain rfl : kind = "message_contains" := hkind
    simp only [h]
  · rename_i hkind
    obtain rfl : kind = "is_new_client" := hkind
    simp only [h]
  · split <;> simp_all

/-- A condition of a step can always be judged. -/
theorem exists_holds (c : Condition) (f : Facts) : ∃ b, c.holds f = .ok b := by
  have hfree : ¬Suspension.Trips ⟨0, "", 0, c.record⟩ := by
    rintro (h | ⟨-, h⟩)
    · cases h
    · obtain ⟨x, hx, -⟩ := Value.toInt_eq_infinite_iff.mp h
      cases hx
  exact Suspension.evaluate_of_not_trips hfree f

end Condition

namespace Store

/-- The text that came in last in a conversation, if any did. -/
def latestTextOf (s : Store) (c : Int) : Option String :=
  ((History.messagesOf s.messages c).filter fun m => m.direction == "incoming").getLast?.map
    fun m => m.content.getD ""

/-- What is known in a conversation with a client, if it has one. -/
def factsOf (s : Store) (c : Int) : Option Int → Facts
  | none => { latestText := s.latestTextOf c }
  | some n =>
    { tagIds := ((s.find? Client n).map fun k => (s.tagsOf k.id).map Tag.id).getD []
      latestText := s.latestTextOf c
      conversations := (s.conversations.filter fun k => k.clientId = some n).length }

/-- What is known does not depend on metadata. -/
theorem factsOf_withMetadata (s : Store) (other : Int) (fields : Record) (c : Int)
    (clientId : Option Int) :
    (s.withMetadata other fields).factsOf c clientId = s.factsOf c clientId := by
  cases clientId with
  | none => rfl
  | some n =>
    have hcount : ((s.withMetadata other fields).conversations.filter fun k =>
        k.clientId = some n).length
          = (s.conversations.filter fun k => k.clientId = some n).length := by
      show ((s.conversations.map fun k : Conversation =>
        if Row.id k == other then { k with metadata := .object fields } else k).filter _).length = _
      rw [List.filter_map, List.length_map]
      congr 2
      funext k
      simp only [Function.comp]
      split <;> rfl
    simp only [factsOf, hcount]
    rfl

end Store

/-- The steps after a place in the order are those of the rows after it. -/
theorem InOrder.after {rows : List StepRow} {steps : List Step} (h : InOrder rows steps)
    (order : Int) :
    InOrder (rows.filter fun row => order < row.order)
      (steps.filter fun s => order < s.head.order) := by
  obtain ⟨sorted, hperm, hsorted, hread⟩ := h
  refine ⟨sorted.filter fun row => order < row.order, hperm.filter _,
    hsorted.sublist List.filter_sublist, ?_⟩
  refine List.rel_filter (fun row step hstep => ?_) hread
  have horder : step.head.order = row.order := by
    rw [Step.head_of_ofConfig hstep]
    rfl
  show decide (order < row.order) = true ↔ decide (order < step.head.order) = true
  rw [horder]

namespace Engine

open Work World

section

variable {w : World} {c : Int}

/-- Where every table is there and ids fit, what is known in a conversation can be looked up. -/
theorem runOn_loadFacts (htables : w.store.absent = []) (hc : Transaction.fits c = true)
    {clientId : Option Int} (hclient : ∀ n, clientId = some n → Transaction.fits n = true) :
    (loadFacts c clientId).runOn w = (.ok (w.store.factsOf c clientId), w) := by
  have hneed : ∀ t, (Transaction.need t).run w.store = .ok ((), w.store) := fun t => by
    rw [Transaction.run_need, if_neg (by simp [htables])]
  have hrows : ∀ (ρ : Type) [Row ρ],
      (Transaction.rows ρ).run w.store = .ok (Row.rows w.store, w.store) := fun ρ _ =>
    Transaction.run_rows_eq_ok.mpr ⟨by simp [htables], rfl, rfl⟩
  have hfit : ∀ {n}, Transaction.fits n = true →
      (Transaction.fit n).run w.store = .ok ((), w.store) := fun h => by
    rw [Transaction.run_fit, if_pos h]
  have htext : (query (History.latestText c)).runOn w = (.ok (w.store.latestTextOf c), w) :=
    runOn_query_eq_ok.mpr ⟨w.store, Transaction.run_bind_eq_ok.mpr ⟨_, _, hrows Message,
      Transaction.run_bind_eq_ok.mpr ⟨_, _, hfit hc, rfl⟩⟩, rfl⟩
  cases clientId with
  | none => exact runOn_bind_eq_ok.mpr ⟨_, w, htext, rfl⟩
  | some n =>
    have hn := hclient n rfl
    have hcount : (query (Thread.countOfClient n)).runOn w
        = (.ok (w.store.factsOf c (some n)).conversations, w) :=
      runOn_query_eq_ok.mpr ⟨w.store, Transaction.run_bind_eq_ok.mpr ⟨_, _, hrows Conversation,
        Transaction.run_bind_eq_ok.mpr ⟨_, _, hfit hn, rfl⟩⟩, rfl⟩
    have htags : (query (Tagging.idsOfClient n)).runOn w
        = (.ok (w.store.factsOf c (some n)).tagIds, w) := by
      have hload : (Transaction.load Client n).run w.store
          = .ok (w.store.find? Client n, w.store) :=
        Transaction.run_load_of_fits (by simp [htables]) hn
      have hclient : (Tagging.client? n).run w.store
          = .ok (w.store.find? Client n, w.store) := by
        refine Transaction.run_bind_eq_ok.mpr ⟨_, _, hload, ?_⟩
        cases w.store.find? Client n with
        | none => rfl
        | some k =>
          exact Transaction.run_bind_eq_ok.mpr ⟨_, _, hneed _,
            Transaction.run_bind_eq_ok.mpr ⟨_, _, hneed _, rfl⟩⟩
      refine runOn_query_eq_ok.mpr ⟨w.store,
        Transaction.run_bind_eq_ok.mpr ⟨_, _, hclient, ?_⟩, rfl⟩
      simp only [Store.factsOf]
      cases w.store.find? Client n <;> rfl
    exact runOn_bind_eq_ok.mpr ⟨_, w, htags, runOn_bind_eq_ok.mpr ⟨_, w, htext,
      runOn_bind_eq_ok.mpr ⟨_, w, hcount, rfl⟩⟩⟩

/-- What is known when a condition is judged is told by the store. -/
theorem knows_iff (htables : w.store.absent = []) {ctx : Context}
    (hc : Transaction.fits ctx.conversationId = true) {k : Conversation}
    (hk : w.store.find? Conversation ctx.conversationId = some k)
    (hchannel : Transaction.fits k.channelId = true)
    (hclient : ∀ n, k.clientId = some n → Transaction.fits n = true) (facts : Facts) :
    Knows ctx w facts ↔ facts = w.store.factsOf ctx.conversationId k.clientId := by
  obtain ⟨thread, hload, rfl⟩ := Thread.run_load?_of_find? (fun _ _ => by simp [htables]) hk hc
    hchannel hclient
  have loaded : (query (Thread.load? ctx.conversationId)).runOn w = (.ok (some thread), w) :=
    runOn_query_eq_ok.mpr ⟨_, hload, rfl⟩
  have hfacts := runOn_loadFacts htables hc hclient
  constructor
  · rintro ⟨thread', loaded', hfacts'⟩
    cases loaded.symm.trans loaded'
    cases hfacts.symm.trans hfacts'
    rfl
  · rintro rfl
    exact ⟨thread, loaded, hfacts⟩

theorem Knows.unique {ctx : Context} {f g : Facts} (hf : Knows ctx w f) (hg : Knows ctx w g) :
    f = g := by
  obtain ⟨thread, loaded, hf⟩ := hf
  obtain ⟨thread', loaded', hg⟩ := hg
  cases loaded.symm.trans loaded'
  cases hf.symm.trans hg
  rfl

/-- A condition step lets a run go on exactly if the condition holds in view of what is known. -/
theorem awaitCondition_goesOn_iff {ctx : Context} {facts : Facts} (hk : Knows ctx w facts)
    (stepId : String) (cond : Condition) :
    ((awaitCondition ctx stepId cond).runOn w).1 = .ok .goesOn ↔ cond.holds facts = .ok true := by
  constructor
  · intro h
    have hj := judged_awaitCondition ctx stepId cond w
    generalize (awaitCondition ctx stepId cond).runOn w = out at h hj
    cases hj with
    | stopped fault => cases h
    | held facts' hk' hc => exact hk.unique hk' ▸ hc
    | suspended facts' s hk' hc hs => cases h
  · intro hc
    obtain ⟨thread, loaded, hfacts⟩ := hk
    unfold awaitCondition threadOf
    simp only [runOn_bind, loaded, runOn_pure, hfacts, runOn_lift, hc, if_true]

end

/-! ## Runs that go on -/

/-- Where the log of runs is there, a run can be ended. -/
theorem exists_endRun {id : Int} (hfit : Transaction.fits id = true) {v : World}
    (htable : v.store.absent.contains .automationRuns = false) (r : Except Fault Progress) :
    ∃ u, (endRun id r).runOn v = (.ok (), u) := by
  have hfinish : ∃ s, (RunLog.finish v.clock id (endOf r)).run v.store = .ok ((), s) := by
    cases hrun : v.store.find? Run id with
    | none =>
      refine ⟨v.store, Transaction.run_bind_eq_ok.mpr ⟨none, v.store, ?_, rfl⟩⟩
      exact hrun ▸ Transaction.run_load_of_fits htable hfit
    | some run =>
      by_cases hopen : run.status = RunLog.running
      · exact ⟨_, RunLog.run_finish_of_open htable hfit hrun hopen⟩
      · exact ⟨_, RunLog.run_finish_of_finished htable hfit hrun hopen⟩
  obtain ⟨s, hs⟩ := hfinish
  exact ⟨_, by rw [runOn_endRun, run_transact, hs]⟩

/-- The steps of a run leave the tables where they are. -/
theorem sameTables_runSteps (settings : Settings) (ctx : Context) (steps : List Step) :
    Work.Keeps SameTables (runSteps settings (chained settings) ctx none steps) := by
  rw [runSteps_eq_runBeats]
  refine keeps_runBeats (fun head => keeps_begin ctx head fun _ _ _ => rfl) (fun b => ?_) _
  exact keeps_playBeat (.of_aside settings unlogged_sameTables.aside)
    (unlogged_sameTables.awaitCondition ctx)
    (fun kind _ => unlogged_sameTables.chained kind ctx.conversationId) b

/-! ## The result -/

/-- A conversation in whose slot the engine keeps the suspension of a run at a step, for want of a
condition. -/
structure Waiting (w : World) (ctx : Context) (stepId : String) (cond : Condition) (r : Record) :
    Prop where
  slot : Slot.Holds w.store ctx.conversationId r (.object (ctx.suspension stepId cond).record)
  step : stepId ≠ ""
  /-- The steps of automations can be read, -/
  readable : ∀ a ∈ w.store.automations, w.store.Readable a.id
  /-- and ids fit their columns. -/
  thread : ∀ k, w.store.find? Conversation ctx.conversationId = some k →
    Transaction.fits k.channelId = true ∧ ∀ n, k.clientId = some n → Transaction.fits n = true
  automation : Transaction.fits ctx.automationId = true
  log : Transaction.fits (w.store.nextId Run) = true

/-- What a suspension waits for has come about: its automation is there and active, has a step of
that id, and the condition step lets the run go on if it is judged now. -/
structure Ready (w : World) (ctx : Context) (stepId : String) (cond : Condition) (a : Automation)
    (steps : List Step) (paused : Step) : Prop where
  conversation : ∃ k, w.store.find? Conversation ctx.conversationId = some k
  automation : w.store.find? Automation ctx.automationId = some a
  active : a.isActive = true
  read : Step.parseSteps ((w.store.stepsOf ctx.automationId).map StepRow.draft) = .ok steps
  paused : steps.find? (fun s => s.head.stepId == stepId) = some paused
  holds : ((awaitCondition ctx stepId cond).runOn w).1 = .ok .goesOn

/-- A world with its slot emptied, where `r` is the metadata of the conversation. -/
def emptied (w : World) (c : Int) (r : Record) : World :=
  { w with store := w.store.withMetadata c (r.erase Suspension.slotField) }

section

variable {settings : Settings} {w : World} {ctx : Context} {stepId : String} {cond : Condition}
  {r : Record}

/-- The suspension is taken, and the slot is emptied by that. -/
theorem Waiting.taken (h : Waiting w ctx stepId cond r) :
    (Slot.take ctx.conversationId).run w.store = .ok (some (ctx.suspension stepId cond),
      (emptied w ctx.conversationId r).store) := by
  rw [h.slot.run_take, Suspension.read?_record h.step]
  rfl

/-- What is known does not depend on the slot. -/
theorem Waiting.knows (h : Waiting w ctx stepId cond r) : ∃ k,
    w.store.find? Conversation ctx.conversationId = some k
      ∧ Knows ctx w (w.store.factsOf ctx.conversationId k.clientId)
      ∧ Knows ctx (emptied w ctx.conversationId r)
          (w.store.factsOf ctx.conversationId k.clientId) := by
  obtain ⟨k, hk, -⟩ := h.slot.there
  obtain ⟨hchannel, hclient⟩ := h.thread k hk
  refine ⟨k, hk, (knows_iff h.slot.tables h.slot.fits hk hchannel hclient _).mpr rfl, ?_⟩
  have hk' := Store.find?_withMetadata_self w.store ctx.conversationId
    (r.erase Suspension.slotField)
  rw [hk] at hk'
  refine (knows_iff (w := emptied w _ r) h.slot.tables h.slot.fits hk' hchannel hclient _).mpr ?_
  exact (Store.factsOf_withMetadata w.store _ _ _ _).symm

/-- Whether a suspension is ripe can always be told. -/
theorem Waiting.exists_ripe? (h : Waiting w ctx stepId cond r) :
    ∃ out, (ripe? ctx.conversationId (ctx.suspension stepId cond)).runOn
      (emptied w ctx.conversationId r) = (.ok out, emptied w ctx.conversationId r) := by
  obtain ⟨k, -, -, thread, loaded, hfacts⟩ := h.knows
  obtain ⟨found, hload⟩ := exists_load (s := (emptied w ctx.conversationId r).store) h.slot.tables
    h.automation
  have hload : (query (Flow.load? ctx.automationId)).runOn (emptied w ctx.conversationId r)
      = (.ok found, emptied w ctx.conversationId r) := runOn_query_eq_ok.mpr ⟨_, hload, rfl⟩
  cases found with
  | none => exact ⟨none, runOn_bind_eq_ok.mpr ⟨none, _, hload, rfl⟩⟩
  | some flow =>
    obtain ⟨hfound, hrows⟩ := found_of_loadFlow hload
    have hmem : flow.automation ∈ w.store.automations := List.mem_of_find?_eq_some hfound
    obtain ⟨steps, hsteps⟩ := h.readable flow.automation hmem
    have hread : flow.steps = .ok steps := by
      rw [Flow.steps, hrows flow rfl, ← hsteps,
        show flow.automation.id = ctx.automationId from Store.id_of_find? hfound]
      rfl
    obtain ⟨holds, hholds⟩ :=
      cond.exists_holds (w.store.factsOf ctx.conversationId k.clientId)
    have hjudged : Condition.evaluate (w.store.factsOf ctx.conversationId k.clientId)
        ((ctx.suspension stepId cond).condition.getD "condition_type")
        ((ctx.suspension stepId cond).condition.getD "condition_value") = .ok holds := hholds
    cases hactive : flow.automation.isActive with
    | false => exact ⟨none, runOn_bind_eq_ok.mpr ⟨_, _, hload, by simp [hactive]⟩⟩
    | true =>
      refine ⟨if holds then (stepsAfter? stepId steps).map (Prod.mk flow) else none,
        runOn_bind_eq_ok.mpr ⟨_, _, hload, ?_⟩⟩
      simp only [hactive, Bool.not_true, Bool.false_eq_true, if_false, runOn_bind]
      simp only [Context.suspension] at hjudged ⊢
      simp only [loaded, runOn_bind, hfacts, runOn_lift, hjudged]
      cases holds with
      | false => rfl
      | true =>
        simp only [Bool.not_true, Bool.false_eq_true, if_false, runOn_bind, runOn_lift, hread]
        rfl

/-- A suspension is ripe once its slot is emptied exactly if what it waits for has come about. -/
theorem Waiting.ripe_iff (h : Waiting w ctx stepId cond r) (flow : Flow) (remaining : List Step) :
    Ripe ctx.conversationId (emptied w ctx.conversationId r) (ctx.suspension stepId cond) flow
        remaining
      ↔ ∃ steps paused, Ready w ctx stepId cond flow.automation steps paused
        ∧ flow.rows = w.store.stepsOf ctx.automationId
        ∧ remaining = steps.filter fun s => paused.head.order < s.head.order := by
  obtain ⟨k, hk, hknows, thread, loaded, hfacts⟩ := h.knows
  have hfound := (find?_of_loadThread loaded).2
  constructor
  · intro hripe
    obtain ⟨steps, hsteps, hafter⟩ := hripe.after
    obtain ⟨paused, hpaused, hremaining⟩ := Option.map_eq_some_iff.mp hafter
    have hrows : flow.rows = w.store.stepsOf ctx.automationId := hripe.rows
    refine ⟨steps, paused, ?_, hrows, hremaining.symm⟩
    refine ⟨⟨k, hk⟩, hripe.found, hripe.active, ?_, hpaused, ?_⟩
    · rw [← hrows]
      exact hsteps
    · obtain ⟨k', facts, hk', hfacts', hholds⟩ := hripe.holds
      obtain rfl := Option.some.inj (hfound.symm.trans hk')
      cases hfacts.symm.trans hfacts'
      exact (awaitCondition_goesOn_iff hknows stepId cond).mpr hholds
  · rintro ⟨steps, paused, hready, hrows, rfl⟩
    exact
      { found := hready.automation
        rows := hrows
        active := hready.active
        holds := ⟨_, _, hfound, hfacts,
          (awaitCondition_goesOn_iff hknows stepId cond).mp hready.holds⟩
        after := by
          refine ⟨steps, ?_, ?_⟩
          · rw [Flow.steps, hrows]
            exact hready.read
          · exact Option.map_eq_some_iff.mpr ⟨paused, hready.paused, rfl⟩ }

/-- What the run is that goes on from a suspension, as it is opened. -/
def wokenRun (w : World) (ctx : Context) (stepId : String) (clientId : Option Int) : Run :=
  RunLog.opened w.clock ctx.automationId ctx.conversationId clientId
    (.object [("resumed_from_condition", .bool true), ("paused_step_id", .str stepId),
      ("previous_run_id", .int ctx.runId)]) (w.store.nextId Run)

/-- The world in which its steps begin: the slot was emptied, and the run was opened. -/
def woken (w : World) (ctx : Context) (stepId : String) (r : Record) (clientId : Option Int) :
    World :=
  { emptied w ctx.conversationId r with
    store := (emptied w ctx.conversationId r).store.insert (wokenRun w ctx stepId clientId) }

/-- Steps are carried out in the run that goes on from a suspension, which is ended then, and `u` is
the world in the end. -/
def CarriedOn (settings : Settings) (w : World) (ctx : Context) (stepId : String) (r : Record)
    (remaining : List Step) (u : World) : Prop :=
  ∃ k result v, w.store.find? Conversation ctx.conversationId = some k
    ∧ (runSteps settings (chained settings)
        ⟨ctx.automationId, w.store.nextId Run, ctx.conversationId⟩ none remaining).runOn
          (woken w ctx stepId r k.clientId) = (result, v)
    ∧ (endRun (w.store.nextId Run) result).runOn v = (.ok (), u)

/-- Where a conversation waits, steps given to its automation are carried out in a run of their
own. -/
theorem Waiting.runOn_execute (h : Waiting w ctx stepId cond r) {flow : Flow}
    (hown : flow.automation.id = ctx.automationId) (settings : Settings) (remaining : List Step) :
    ∃ u, CarriedOn settings w ctx stepId r remaining u
      ∧ (execute settings (chained settings) flow ctx.conversationId
          (.object (resumeData (ctx.suspension stepId cond))) (some remaining)).runOn
            (emptied w ctx.conversationId r) = (.ok (some (w.store.nextId Run)), u) := by
  obtain ⟨k, hk, -, thread, loaded, -⟩ := h.knows
  obtain ⟨-, hclient⟩ := h.thread k hk
  have hfound := Store.find?_withMetadata_self w.store ctx.conversationId
    (r.erase Suspension.slotField)
  rw [hk] at hfound
  have hthread := Option.some.inj ((find?_of_loadThread loaded).2.symm.trans hfound)
  have hid : thread.conversation.id = ctx.conversationId :=
    Store.id_of_find? (find?_of_loadThread loaded).2
  have hown' : thread.conversation.clientId = k.clientId := by rw [hthread]
  have htables : (emptied w ctx.conversationId r).store.absent = [] := h.slot.tables
  have opened : (RunLog.openRun w.clock flow.automation.id thread.conversation.id
      thread.conversation.clientId (.object (resumeData (ctx.suspension stepId cond)))).run
        (emptied w ctx.conversationId r).store
      = .ok (w.store.nextId Run, (emptied w ctx.conversationId r).store.insert
          (wokenRun w ctx stepId k.clientId)) := by
    rw [hown, hid, hown']
    exact RunLog.run_openRun (by simp [htables]) h.automation h.slot.fits hclient
  rcases hplayed : (runSteps settings (chained settings)
      ⟨ctx.automationId, w.store.nextId Run, ctx.conversationId⟩ none remaining).runOn
        (woken w ctx stepId r k.clientId) with ⟨result, v⟩
  have habsent : v.store.absent = [] :=
    (Work.Keeps.of_runOn (sameTables_runSteps settings _ remaining) hplayed).trans htables
  have htable : v.store.absent.contains .automationRuns = false := by simp [habsent]
  obtain ⟨u, hend⟩ := exists_endRun h.log htable result
  refine ⟨u, ⟨k, result, v, hk, hplayed, hend⟩, ?_⟩
  have hline : (runBeats settings (chained settings)
      ⟨flow.automation.id, w.store.nextId Run, thread.conversation.id⟩ (beats none remaining)).runOn
        (woken w ctx stepId r k.clientId) = (result, v) := by
    rw [hown, hid, ← runSteps_eq_runBeats]
    exact hplayed
  have hplan : plan flow (some remaining) = .ok remaining := rfl
  rw [runOn_execute_of_readable loaded opened hplan hline, runOn_bind, hend]
  rfl

/-- What is not ripe is dropped. -/
theorem Waiting.runOn_resume_of_unripe (h : Waiting w ctx stepId cond r)
    (hripe : (ripe? ctx.conversationId (ctx.suspension stepId cond)).runOn
      (emptied w ctx.conversationId r) = (.ok none, emptied w ctx.conversationId r)) :
    (resume settings ctx.conversationId).runOn w
      = (.ok none, emptied w ctx.conversationId r) := by
  rw [resume_eq_ripe?, runOn_bind, query, run_transact, h.taken]
  exact runOn_bind_eq_ok.mpr ⟨none, _, hripe, rfl⟩

/-- What is ripe is gone on from. -/
theorem Waiting.runOn_resume_of_ripe (h : Waiting w ctx stepId cond r) {flow : Flow}
    {remaining : List Step}
    (hripe : (ripe? ctx.conversationId (ctx.suspension stepId cond)).runOn
      (emptied w ctx.conversationId r)
        = (.ok (some (flow, remaining)), emptied w ctx.conversationId r)) :
    (resume settings ctx.conversationId).runOn w
      = (execute settings (chained settings) flow ctx.conversationId
          (.object (resumeData (ctx.suspension stepId cond))) (some remaining)).runOn
            (emptied w ctx.conversationId r) := by
  rw [resume_eq_ripe?, runOn_bind, query, run_transact, h.taken]
  show (Bind.bind (ripe? _ _) _ : Work _).runOn (emptied w ctx.conversationId r) = _
  rw [runOn_bind, hripe]

theorem Waiting.runOn_resume_of_not_ready (h : Waiting w ctx stepId cond r)
    (hnot : ¬∃ a steps paused, Ready w ctx stepId cond a steps paused) :
    (resume settings ctx.conversationId).runOn w
      = (.ok none, emptied w ctx.conversationId r) := by
  obtain ⟨out, hripe⟩ := h.exists_ripe?
  rcases out with _ | ⟨flow, remaining⟩
  · exact h.runOn_resume_of_unripe hripe
  · obtain ⟨steps, paused, hready, -⟩ :=
      (h.ripe_iff flow remaining).mp ((ripe?_eq_ok hripe flow remaining).mp rfl)
    exact absurd ⟨_, steps, paused, hready⟩ hnot

theorem Waiting.runOn_resume_of_ready (h : Waiting w ctx stepId cond r) (settings : Settings)
    {a : Automation} {steps : List Step} {paused : Step}
    (hready : Ready w ctx stepId cond a steps paused) :
    ∃ u, CarriedOn settings w ctx stepId r
        (steps.filter fun s => paused.head.order < s.head.order) u
      ∧ (resume settings ctx.conversationId).runOn w = (.ok (some (w.store.nextId Run)), u) := by
  obtain ⟨out, hripe⟩ := h.exists_ripe?
  obtain rfl := (ripe?_eq_ok hripe ⟨a, w.store.stepsOf ctx.automationId⟩ _).mpr
    ((h.ripe_iff _ _).mpr ⟨steps, paused, hready, rfl, rfl⟩)
  rw [h.runOn_resume_of_ripe hripe]
  exact h.runOn_execute (Store.id_of_find? hready.automation) settings _

/-- What comes of looking at a conversation that waits. -/
structure Woken (settings : Settings) (w : World) (ctx : Context) (stepId : String)
    (cond : Condition) (r : Record) : Prop where
  /-- Its slot is emptied, and the rest of its metadata is left. -/
  slot : (emptied w ctx.conversationId r).store.slot? ctx.conversationId = none
    ∧ ∀ name, name ≠ Suspension.slotField → (r.erase Suspension.slotField).get? name = r.get? name
  /-- A run is opened exactly if what the suspension waits for has come about. -/
  opens : (∃ id, ((resume settings ctx.conversationId).runOn w).1 = .ok (some id))
    ↔ ∃ a steps paused, Ready w ctx stepId cond a steps paused
  /-- It is opened where the slot is empty already, tells the step and the run that were suspended,
  and carries out exactly the steps after that step, by their order and then by row id. -/
  carries : ∀ a steps paused, Ready w ctx stepId cond a steps paused →
    ∃ remaining u,
      remaining = steps.filter (fun s => paused.head.order < s.head.order)
      ∧ InOrder ((w.store.stepsOf ctx.automationId).filter fun row =>
          paused.head.order < row.order) remaining
      ∧ CarriedOn settings w ctx stepId r remaining u
      ∧ (resume settings ctx.conversationId).runOn w = (.ok (some (w.store.nextId Run)), u)
  /-- Otherwise nothing but the slot changes; -/
  drops : (¬∃ a steps paused, Ready w ctx stepId cond a steps paused) →
    (resume settings ctx.conversationId).runOn w = (.ok none, emptied w ctx.conversationId r)
  /-- so it is while what the condition looks at is as it was when the run was suspended. -/
  unchanged : ∀ w₀ v₀ earlier later,
    (awaitCondition ctx stepId cond).runOn w₀ = (.ok .suspended, v₀) → Knows ctx w₀ earlier →
      Knows ctx w later → cond.SeesAlike earlier later →
        (resume settings ctx.conversationId).runOn w = (.ok none, emptied w ctx.conversationId r)

/-- **A suspension is gone on from exactly** if what it waits for has come about. -/
theorem resume_exactly (settings : Settings) (h : Waiting w ctx stepId cond r) :
    Woken settings w ctx stepId cond r where
  slot := by
    obtain ⟨k, hk, -⟩ := h.slot.there
    refine ⟨?_, fun name hname => Record.get?_erase_ne r hname⟩
    exact (Store.slot?_withMetadata_self hk _).trans (Suspension.held?_erase r)
  opens := by
    constructor
    · rintro ⟨id, hid⟩
      by_contra hnot
      rw [h.runOn_resume_of_not_ready hnot] at hid
      cases hid
    · rintro ⟨a, steps, paused, hready⟩
      obtain ⟨u, -, hresume⟩ := h.runOn_resume_of_ready settings hready
      exact ⟨_, congrArg Prod.fst hresume⟩
  carries a steps paused hready := by
    obtain ⟨u, hcarried, hresume⟩ := h.runOn_resume_of_ready settings hready
    exact ⟨_, u, rfl, (inOrder_of_parseSteps hready.read).after _, hcarried, hresume⟩
  drops := h.runOn_resume_of_not_ready
  unchanged w₀ v₀ earlier later hsuspended hearlier hlater halike := by
    refine h.runOn_resume_of_not_ready ?_
    rintro ⟨a, steps, paused, hready⟩
    have hnow : cond.holds later = .ok true :=
      (awaitCondition_goesOn_iff hlater stepId cond).mp hready.holds
    have hthen : cond.holds earlier = .ok false := by
      have hj := judged_awaitCondition ctx stepId cond w₀
      rw [hsuspended] at hj
      cases hj with
      | suspended facts s hk hc hs => exact hearlier.unique hk ▸ hc
    rw [Condition.holds_congr halike] at hthen
    cases hthen.symm.trans hnow

end

/-! ### A studio that waits for a payment -/

/-- The metadata of a conversation in which the run 7 of an automation waits for a tag. -/
def unpaid : Record :=
  [(chatField, .int 5), (Suspension.slotField,
    .object (Context.suspension ⟨4, 7, 1⟩ "pay" ⟨"has_tag", "5"⟩).record)]

/-- A studio whose client has the tag by now. One step shares its order with the one that the run
waits at, and one comes after it. -/
def studio : World :=
  let row (id : Int) (stepId kind : String) (config : Record) (order : Int) : StepRow :=
    { id, automationId := 4, stepId, kind, config := .object config, position := .null, order,
      nextStepId := none, trueStepId := none, falseStepId := none }
  { store :=
      { channels := [⟨1, "Studio", "telegram", .null, .null, true⟩]
        tags := [⟨5, "paid", none⟩]
        clients := [⟨1, none, some "Ada", none, none, .null⟩]
        memberships := [⟨1, 5⟩]
        conversations :=
          [{ id := 1, channelId := 1, clientId := some 1, operatorId := none, status := "open",
             metadata := .object unpaid, unreadCount := 0, lastMessageAt := none }]
        automations := [{ id := 4, name := "payment", description := none, channelId := none,
                          trigger := "new_conversation", triggerConfig := .null, isActive := true }]
        steps :=
          [row 1 "pay" "condition" [("condition_type", .str "has_tag"),
              ("condition_value", .str "5")] 1,
            row 2 "remind" "delay" [("delay_seconds", .int 10)] 1,
            row 3 "done" "close_conversation" [] 2]
        runs := [RunLog.opened Moment.start 4 1 (some 1) .null 7] } }

/-- The steps of its automation. -/
def studioSteps : List Step :=
  [.single { stepId := "pay", kind := "condition", order := 1, rowId := some 1 }
      (.condition ⟨"has_tag", "5"⟩),
    .single { stepId := "remind", kind := "delay", order := 1, rowId := some 2 } (.delay 10),
    .single { stepId := "done", kind := "close_conversation", order := 2, rowId := some 3 } .close]

theorem read_studio :
    Step.parseSteps ((studio.store.stepsOf 4).map StepRow.draft) = .ok studioSteps := by
  have hrows : studio.store.stepsOf 4 = studio.store.steps :=
    sortBy_of_pairwise (l := studio.store.steps) (by decide)
  have hordered : Step.ordered (studio.store.steps.map StepRow.draft)
      = studio.store.steps.map StepRow.draft := sortBy_of_pairwise (by decide)
  rw [hrows, Step.parseSteps, hordered]
  rfl

theorem waiting_studio : Waiting studio ⟨4, 7, 1⟩ "pay" ⟨"has_tag", "5"⟩ unpaid where
  slot := ⟨rfl, by decide, ⟨_, rfl, rfl⟩, rfl⟩
  step := by decide
  readable a ha := by
    obtain rfl := List.mem_singleton.mp ha
    exact ⟨studioSteps, read_studio⟩
  thread k hk := by
    cases hk
    exact ⟨by decide, by rintro n ⟨⟩; decide⟩
  automation := by decide
  log := by decide

/-- In the studio the run 8 goes on with the one step after the order of the step that the run 7
waits at. -/
theorem resume_exactly_studio :
    ∃ remaining u, remaining.map (fun s => s.head.stepId) = ["done"]
      ∧ CarriedOn {} studio ⟨4, 7, 1⟩ "pay" unpaid remaining u
      ∧ (resume {} 1).runOn studio = (.ok (some 8), u) := by
  have hready : Ready studio ⟨4, 7, 1⟩ "pay" ⟨"has_tag", "5"⟩ _ studioSteps _ :=
    { conversation := ⟨_, rfl⟩
      automation := rfl
      active := rfl
      read := read_studio
      paused := rfl
      holds := by decide +kernel }
  obtain ⟨remaining, u, rfl, -, hcarried, hresume⟩ :=
    (resume_exactly {} waiting_studio).carries _ _ _ hready
  exact ⟨_, u, rfl, hcarried, hresume⟩

end Engine

end Deskflow
