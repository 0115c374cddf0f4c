import Deskflow.Proofs.RunIsolation
import Mathlib.Data.List.Forall2
import Mathlib.Data.List.ReduceOption

/-!
# How runs end

A run that is opened is ended again, whatever its steps do, what the gateway answers and what other
runs it sets off: all but one thing. Steps are read after the run was opened and outside of what a
run is guarded against, so a fault in reading them stops the event that set the run off, and leaves
the run open.

The run is opened and ended in `execute_automation`, and its steps are read by `parse_steps`.

* `settles_dispatch`: after an event a run is open exactly if its steps cannot be read.
* `served_fireAll`: the flows of an event are reached in order, up to one that cannot be read.
* `dispatch_closes`: the result.
-/

namespace Deskflow

/-- The stored steps of an automation can be read. -/
def Store.Readable (s : Store) (automationId : Int) : Prop :=
  ∃ steps, Step.parseSteps ((s.stepsOf automationId).map StepRow.draft) = .ok steps

/-- A run is open exactly if its steps cannot be read; of ids that no table can hold nothing is
said. -/
def Run.Settled (s : Store) (p : Run) : Prop :=
  Transaction.fits p.id = true → (p.status = RunLog.running ↔ ¬s.Readable p.automationId)

theorem Flow.Stored.rows_eq {s : Store} {f : Flow} (h : f.Stored s) :
    f.rows = s.stepsOf f.automation.id := congrArg Flow.rows h.2

theorem Store.readable_of_steps {s : Store} {f : Flow} (h : f.rows = s.stepsOf f.automation.id)
    {steps : List Step} (hsteps : f.steps = .ok steps) : s.Readable f.automation.id :=
  ⟨steps, h ▸ hsteps⟩

theorem Store.not_readable_of_steps {s : Store} {f : Flow}
    (h : f.rows = s.stepsOf f.automation.id) {fault : Fault} (hsteps : f.steps = .error fault) :
    ¬s.Readable f.automation.id := by
  rintro ⟨steps, hread⟩
  rw [← h] at hread
  exact absurd (hsteps.symm.trans hread) (by simp)

namespace Engine

open Work World

variable {settings : Settings} {onTags : TagHandler} {s : Store}

/-! ## Runs are settled -/

/-- Runs that were there stay as they are, and those that are added are settled. -/
abbrev Settles (s : Store) : World → World → Prop :=
  Isolates s.steps (fun _ => False) (Run.Settled s)

theorem settles_execute
    (handled : ∀ kind c channel tags, Work.Keeps (Settles s) (onTags kind c channel tags))
    {flow : Flow} (hflow : flow.rows = s.stepsOf flow.automation.id) (c : Int) (data : Value) :
    Work.Keeps (Settles s) (execute settings onTags flow c data none) := by
  refine isolates_execute handled ?_ ?_
  · intro fault p hplan ha _ hopen _
    rw [ha]
    exact ⟨fun _ => Store.not_readable_of_steps hflow hplan, fun _ => hopen⟩
  · intro steps p hplan ha _ hended hfit
    rw [ha]
    exact ⟨fun hopen => absurd hopen (hended hfit),
      fun hnot => absurd (Store.readable_of_steps hflow hplan) hnot⟩

theorem settles_dispatchWith
    (handled : ∀ kind c channel tags, Work.Keeps (Settles s) (onTags kind c channel tags))
    (event : Event) : Work.Keeps (Settles s) (dispatchWith settings onTags event) := by
  intro w hw
  refine Work.Keeps.eq_bind (.reads (Transaction.reads_matching event)) (Leaves.refl hw)
    fun flows hflows => ?_
  have hstored : ∀ flow ∈ flows, flow.rows = s.stepsOf flow.automation.id := by
    intro flow hflow
    obtain ⟨t, hmatching, -⟩ := runOn_query_eq_ok.mp hflows
    have hrows := ((Flow.stored_of_matching hmatching).2 flow hflow).rows_eq
    rwa [Store.stepsOf_congr hw.stored] at hrows
  exact keeps_fireAll (fun w m _ => Isolates.of_memory w m) flows
    (fun flow hflow => settles_execute handled (hstored flow hflow) _ _) w hw

theorem settles_chained (kind : EventKind) (c channel : Int) (tags : List Int) :
    Work.Keeps (Settles s) (chained settings kind c channel tags) :=
  keeps_chained (fun event _ => settles_dispatchWith keeps_quiet event) kind channel tags

/-- **After an event a run is open exactly if its steps cannot be read**, if it was set off by the
event, directly or by a change of tags. -/
theorem settles_dispatch (event : Event) : Work.Keeps (Settles s) (dispatch settings event) :=
  settles_dispatchWith settles_chained event

/-! ## Conversations stay where they are -/

/-- What of a conversation the engine never changes: which it is, and its channel and client. -/
def placeOf (c : Conversation) : Int × Int × Option Int := (c.id, c.channelId, c.clientId)

/-- Conversations stay, on their channels and with their clients, unless a script deletes one. -/
def Places (w v : World) : Prop :=
  w.rehearsal.Spares .conversations → v.rehearsal.Spares .conversations
    ∧ v.store.absent = w.store.absent
    ∧ ∀ c, (v.store.find? Conversation c).map placeOf = (w.store.find? Conversation c).map placeOf

instance : Std.Refl Places := ⟨fun _ h => ⟨h, rfl, fun _ => rfl⟩⟩

instance : IsTrans World Places := ⟨fun _ _ _ h k hs =>
  have h := h hs
  have k := k h.1
  ⟨k.1, k.2.1.trans h.2.1, fun c => (k.2.2 c).trans (h.2.2 c)⟩⟩

theorem unlogged_places : Unlogged Places where
  aside h hs := by
    refine ⟨h.spares _ hs, h.absent, fun c => ?_⟩
    have hcore := congrArg (Option.map fun p => (p.1, p.2.1, p.2.2.1)) (h.threads hs c)
    rw [Option.map_map, Option.map_map] at hcore
    exact hcore
  remembers w m hs := ⟨hs, rfl, fun _ => rfl⟩
  runs w rows hs := ⟨hs, rfl, fun _ => rfl⟩
  slots w c fields hs := by
    refine ⟨hs, rfl, fun d => ?_⟩
    show ((w.store.withMetadata c fields).find? Conversation d).map placeOf = _
    unfold Store.withMetadata
    rw [Store.find?_modify, Option.map_map]
    case hf => exact fun _ => rfl
    congr 1
    funext k
    simp only [Function.comp]
    split <;> rfl
  pauses w p hs := ⟨hs, rfl, fun _ => rfl⟩
  concludes w x hs := ⟨hs, rfl, fun _ => rfl⟩

theorem places_handler (h : IsHandler settings onTags) (kind : EventKind) (c channel : Int)
    (tags : List Int) : Work.Keeps Places (onTags kind c channel tags) := by
  rcases h with rfl | rfl
  · exact keeps_quiet kind c channel tags
  · exact unlogged_places.chained kind c channel tags

/-- A conversation is there, with every table; ids fit, and no script deletes a conversation. -/
structure Serves (c : Int) (w : World) : Prop where
  spares : w.rehearsal.Spares .conversations
  tables : w.store.absent = []
  there : ∃ k, w.store.find? Conversation c = some k ∧ Transaction.fits c = true
    ∧ Transaction.fits k.channelId = true ∧ ∀ n, k.clientId = some n → Transaction.fits n = true

theorem Serves.of_places {c : Int} {w v : World} (h : Serves c w) (hv : Places w v) :
    Serves c v := by
  obtain ⟨hspares, habsent, hplaces⟩ := hv h.spares
  obtain ⟨k, hk, hc, hchannel, hclient⟩ := h.there
  have := hplaces c
  rw [hk] at this
  obtain ⟨k', hk', hplace⟩ := Option.map_eq_some_iff.mp this
  simp only [placeOf, Prod.mk.injEq] at hplace
  exact ⟨hspares, habsent.trans h.tables, k', hk', hc, hplace.2.1 ▸ hchannel, hplace.2.2 ▸ hclient⟩

theorem Serves.loads {c : Int} {w : World} (h : Serves c w) :
    ∃ thread, (query (Thread.load? c)).runOn w = (.ok (some thread), w)
      ∧ w.store.find? Conversation c = some thread.conversation
      ∧ ∀ n, thread.conversation.clientId = some n → Transaction.fits n = true := by
  obtain ⟨k, hk, hc, hchannel, hclient⟩ := h.there
  obtain ⟨thread, hload, rfl⟩ := Thread.run_load?_of_find? (fun _ _ => by simp [h.tables]) hk hc
    hchannel hclient
  exact ⟨thread, by rw [query, run_transact, hload], hk, hclient⟩

/-! ## The flows of an event -/

/-- The run of a flow for an event: it was not there before, and it is the flow's own. -/
structure Runs (event : Event) (w v : World) (flow : Flow) (id : Int) (run : Run) : Prop where
  new : w.store.find? Run id = none
  there : v.store.find? Run id = some run
  own : run.automationId = flow.automation.id
  place : run.conversationId = event.conversationId

/-- What became of a flow that an event reached and went past: it was passed over, as it had fired
for the same change of tags, or it has a run that has ended. -/
inductive Reached (settings : Settings) (event : Event) (w v : World) (flow : Flow) :
    Option Int → Prop
  | passedOver (m m' : World) (isTagEvent : event.kind.isTagEvent = true)
      (fired : (recentlyFired settings flow.automation.id event).runOn m = (.ok true, m')) :
      Reached settings event w v flow none
  | ended (id : Int) (run : Run) (runs : Runs event w v flow id run)
      (status : run.status ≠ RunLog.running) : Reached settings event w v flow (some id)

/-- How the execution of a flow ends where a conversation is there: with a run of its own, which is
ended if the steps can be read, and left open with the fault if they cannot. -/
theorem execute_of_serves (honTags : IsHandler settings onTags) {flow : Flow} {event : Event}
    {data : Value} {w v : World} {out : Except Fault (Option Int)}
    (hserves : Serves event.conversationId w) (hw : w.Undisturbed s.steps)
    (hflow : Transaction.fits flow.automation.id = true)
    (hrun : (execute settings onTags flow event.conversationId data none).runOn w = (out, v))
    (hfit : ∀ id p, v.store.find? Run id = some p → Transaction.fits id = true) :
    ∃ id run, Runs event w v flow id run ∧
      ((∃ steps, flow.steps = .ok steps ∧ out = .ok (some id) ∧ run.status ≠ RunLog.running) ∨
        ∃ fault, flow.steps = .error fault ∧ out = .error fault ∧ run.status = RunLog.running) := by
  obtain ⟨thread, hload, hk, hclient⟩ := hserves.loads
  have hid : thread.conversation.id = event.conversationId := Store.id_of_find? hk
  have hconv : Transaction.fits thread.conversation.id = true := by
    obtain ⟨_, _, hc, _⟩ := hserves.there
    rwa [hid]
  have hopen : (RunLog.openRun w.clock flow.automation.id thread.conversation.id
      thread.conversation.clientId data).run w.store = _ :=
    RunLog.run_openRun (by simp [hserves.tables]) hflow hconv hclient
  obtain ⟨hopened, hnone, hrow⟩ := leaves_opened (fun _ => True) hw hopen
  cases hsteps : plan flow none with
  | error fault =>
    rw [runOn_execute_of_unread hload hopen hsteps] at hrun
    obtain ⟨rfl, rfl⟩ := Prod.mk.inj hrun
    exact ⟨_, _, ⟨hnone, hrow, rfl, hid⟩, .inr ⟨fault, hsteps, rfl, rfl⟩⟩
  | ok steps =>
    rcases hp : (runBeats settings onTags
        ⟨flow.automation.id, w.store.nextId Run, thread.conversation.id⟩ (beats none steps)).runOn
          { w with store := w.store.insert (RunLog.opened w.clock flow.automation.id
            thread.conversation.id thread.conversation.clientId data (w.store.nextId Run)) }
      with ⟨r, m⟩
    have hplayed := isolates_runBeats settings (isolates_handler honTags)
      ⟨flow.automation.id, w.store.nextId Run, thread.conversation.id⟩ (beats none steps) _
      hopened.undisturbed
    rw [hp] at hplayed
    rw [runOn_execute_of_readable hload hopen hsteps hp] at hrun
    obtain ⟨p, hpRow, hpAutomation, hpConversation⟩ := hplayed.owned _ _ hrow
    have hv : v = ((endRun (w.store.nextId Run) r).runOn m).2 := by
      rw [← snd_runOn_endRun, hrun]
    have hended : Leaves s.steps (· = w.store.nextId Run) (fun _ => True) m v :=
      hv ▸ isolates_endRun _ r m hplayed.undisturbed
    obtain ⟨run, hrunRow, ha, hc⟩ := hended.owned _ _ hpRow
    have hfits := hfit _ _ hrunRow
    have htable : m.store.absent.contains .automationRuns = false := by
      rw [hplayed.absent, hopened.absent, hserves.tables]
      rfl
    refine ⟨_, run, ⟨hnone, hrunRow, ha.trans hpAutomation, (hc.trans hpConversation).trans hid⟩,
      .inl ⟨steps, hsteps, ?_, status_of_endRun r htable hfits hpRow (hv ▸ hrunRow)⟩⟩
    have hok := ok_of_endRun r htable hfits hpRow
    rw [runOn_bind] at hrun
    rcases he : (endRun (w.store.nextId Run) r).runOn m with ⟨fault | _, u⟩ <;>
      rw [he] at hrun hok
    · cases hok
    · exact (Prod.mk.inj hrun).1.symm

/-- A flow that an event is for is passed over, or it is executed. -/
theorem fire_of_serves (honTags : IsHandler settings onTags) {flow : Flow} {event : Event}
    {w v : World} {out : Except Fault (Option Int)} (hserves : Serves event.conversationId w)
    (hw : w.Undisturbed s.steps) (hflow : Transaction.fits flow.automation.id = true)
    (hrun : (fire settings onTags event flow).runOn w = (out, v))
    (hfit : ∀ id p, v.store.find? Run id = some p → Transaction.fits id = true) :
    (out = .ok none ∧ Reached settings event w v flow none) ∨
      ∃ id run, Runs event w v flow id run ∧
        ((∃ steps, flow.steps = .ok steps ∧ out = .ok (some id) ∧ run.status ≠ RunLog.running) ∨
          ∃ fault, flow.steps = .error fault ∧ out = .error fault
            ∧ run.status = RunLog.running) := by
  unfold fire at hrun
  dsimp only at hrun
  split at hrun
  · rename_i htag
    obtain ⟨fired, firings, hfired⟩ := runOn_recentlyFired settings flow.automation.id event w
    rw [runOn_bind, hfired] at hrun
    cases fired with
    | true =>
      obtain ⟨rfl, rfl⟩ := Prod.mk.inj hrun
      exact .inl ⟨rfl, .passedOver w _ htag hfired⟩
    | false =>
      let memory : Memory := { w.memory with firings, tagGuard := true }
      have hserves' : Serves event.conversationId { w with memory := memory } :=
        hserves.of_places (unlogged_places.remembers w _)
      have hw' : World.Undisturbed s.steps { w with memory := memory } :=
        ⟨hw.runs, hw.automations, hw.stepRows, hw.stored⟩
      simp only [Bool.false_eq_true, if_false, guarded, runOn_ofFunction] at hrun
      rcases he : (execute settings onTags flow event.conversationId (.object event.triggerData)
          none).runOn { w with memory := memory } with ⟨out', m⟩
      rw [he] at hrun
      obtain ⟨rfl, rfl⟩ := Prod.mk.inj hrun
      obtain ⟨id, run, hruns, hout⟩ := execute_of_serves honTags hserves' hw' hflow he hfit
      exact .inr ⟨id, run, ⟨hruns.new, hruns.there, hruns.own, hruns.place⟩, hout⟩
  · exact .inr (execute_of_serves honTags hserves hw hflow hrun hfit)

theorem Reached.of_leaves {event : Event} {u w v x : World} {flow : Flow} {id : Option Int}
    (h : Reached settings event w v flow id)
    (hbefore : ∀ id, w.store.find? Run id = none → u.store.find? Run id = none)
    (hafter : ∀ id p, v.store.find? Run id = some p → x.store.find? Run id = some p) :
    Reached settings event u x flow id := by
  cases h with
  | passedOver m m' htag hfired => exact .passedOver m m' htag hfired
  | ended id run hruns hstatus =>
    exact .ended id run ⟨hbefore id hruns.new, hafter id run hruns.there, hruns.own, hruns.place⟩
      hstatus

/-- What comes of flows for an event: they are gone through in order, to their end or up to one
whose steps cannot be read, which stops the event. -/
inductive Served (settings : Settings) (event : Event) (flows : List Flow) (w v : World) :
    Except Fault (List Int) → Prop
  | returned (ids : List (Option Int))
      (reached : List.Forall₂ (Reached settings event w v) flows ids)
      (distinct : ids.reduceOption.Nodup) : Served settings event flows w v (.ok ids.reduceOption)
  | raised (before after : List Flow) (ids : List (Option Int)) (flow : Flow) (fault : Fault)
      (id : Int) (run : Run) (upTo : flows = before ++ flow :: after)
      (reached : List.Forall₂ (Reached settings event w v) before ids)
      (unreadable : flow.steps = .error fault) (runs : Runs event w v flow id run)
      (status : run.status = RunLog.running) (distinct : (id :: ids.reduceOption).Nodup) :
      Served settings event flows w v (.error fault)

/-- The runs of flows were not there before. -/
theorem new_of_reached {event : Event} {w v : World} {flows : List Flow} {ids : List (Option Int)}
    (h : List.Forall₂ (Reached settings event w v) flows ids) :
    ∀ id ∈ ids.reduceOption, w.store.find? Run id = none := by
  induction h with
  | nil => simp
  | @cons flow id? flows ids hflow _ ih =>
    cases hflow with
    | passedOver => simpa using ih
    | ended id run hruns hstatus =>
      intro id' hid'
      rcases List.mem_cons.mp (by simpa using hid') with rfl | hid'
      · exact hruns.new
      · exact ih id' hid'

/-- A flow that an event went past, before what comes of the flows after it. -/
theorem Served.cons {event : Event} {w m v : World} {flow : Flow} {rest : List Flow}
    {id? : Option Int} {out : Except Fault (List Int)}
    (hbefore : ∀ id, m.store.find? Run id = none → w.store.find? Run id = none)
    (hafter : ∀ id p, m.store.find? Run id = some p → v.store.find? Run id = some p)
    (hflow : Reached settings event w m flow id?) (h : Served settings event rest m v out) :
    Served settings event (flow :: rest) w v (out.map fun ids => id?.toList ++ ids) := by
  have lift : ∀ {flows ids}, List.Forall₂ (Reached settings event m v) flows ids →
      List.Forall₂ (Reached settings event w v) flows ids := fun h =>
    h.imp fun _ _ hr => hr.of_leaves hbefore fun _ _ hp => hp
  have hhead : Reached settings event w v flow id? := hflow.of_leaves (fun _ h => h) hafter
  have hne : ∀ id, id? = some id → m.store.find? Run id ≠ none := by
    rintro id rfl
    cases hflow with
    | ended _ run hruns _ =>
      rw [hruns.there]
      simp
  have hcons : ∀ ids : List (Option Int),
      (id? :: ids).reduceOption = id?.toList ++ ids.reduceOption :=
    fun ids => by cases id? <;> simp
  cases h with
  | returned ids reached distinct =>
    have hnew := new_of_reached reached
    rw [show Except.map (fun ids => id?.toList ++ ids) (.ok ids.reduceOption)
      = (.ok (id? :: ids).reduceOption : Except Fault (List Int)) by rw [hcons]; rfl]
    refine .returned (id? :: ids) (.cons hhead (lift reached)) ?_
    rw [hcons]
    refine List.nodup_append.mpr ⟨by cases id? <;> simp, distinct, fun a ha b hb => ?_⟩
    rintro rfl
    exact hne a (by simpa using ha) (hnew a hb)
  | raised before after ids stuck fault id run upTo reached unreadable runs status distinct =>
    have hnew := new_of_reached reached
    subst upTo
    refine .raised (flow :: before) after (id? :: ids) stuck fault id run rfl
      (.cons hhead (lift reached)) unreadable
      ⟨hbefore id runs.new, runs.there, runs.own, runs.place⟩ status ?_
    rw [hcons]
    obtain ⟨hid, hids⟩ := List.nodup_cons.mp distinct
    refine List.nodup_cons.mpr ⟨fun hmem => ?_, ?_⟩
    · rcases List.mem_append.mp hmem with hmem | hmem
      · exact hne id (by simpa using hmem) runs.new
      · exact hid hmem
    · refine List.nodup_append.mpr ⟨by cases id? <;> simp, hids, fun a ha b hb => ?_⟩
      rintro rfl
      exact hne a (by simpa using ha) (hnew a hb)

theorem served_fireAll (honTags : IsHandler settings onTags) {event : Event} :
    ∀ {flows : List Flow} {w v : World} {out : Except Fault (List Int)},
      Serves event.conversationId w → w.Undisturbed s.steps →
      (∀ flow ∈ flows, Transaction.fits flow.automation.id = true) →
      (fireAll settings onTags event flows).runOn w = (out, v) →
      (∀ id p, v.store.find? Run id = some p → Transaction.fits id = true) →
        Served settings event flows w v out
  | [], w, v, out, _, _, _, hrun, _ => by
    obtain ⟨rfl, rfl⟩ := Prod.mk.inj hrun
    exact .returned [] .nil (by simp)
  | flow :: rest, w, v, out, hserves, hw, hflows, hrun, hfit => by
    rw [fireAll, runOn_bind] at hrun
    have hfire : Leaves s.steps (fun _ => False) (fun _ => True) w
        ((fire settings onTags event flow).runOn w).2 :=
      keeps_fire (fun w m _ => Isolates.of_memory w m) (isolates_handed honTags flow _ _ _) w hw
    have hplaces : Places w ((fire settings onTags event flow).runOn w).2 :=
      keeps_fire (fun w m _ => unlogged_places.remembers w m)
        (unlogged_places.execute (places_handler honTags) flow _ _ _) w
    rcases hf : (fire settings onTags event flow).runOn w with ⟨fault | id?, m⟩ <;>
      rw [hf] at hrun hfire hplaces
    · obtain ⟨rfl, rfl⟩ := Prod.mk.inj hrun
      rcases fire_of_serves honTags hserves hw (hflows flow List.mem_cons_self) hf hfit with
        ⟨hout, -⟩ | ⟨id, run, hruns, ⟨steps, hsteps, hout, -⟩ | ⟨_, hsteps, hout, hstatus⟩⟩
      · cases hout
      · cases hout
      · obtain rfl := Except.error.inj hout
        exact .raised [] rest [] flow fault id run rfl .nil hsteps hruns hstatus (by simp)
    · have hrest : Leaves s.steps (fun _ => False) (fun _ => True) m
          ((fireAll settings onTags event rest).runOn m).2 :=
        keeps_fireAll (fun w m _ => Isolates.of_memory w m) rest
          (fun f _ => isolates_handed honTags f _ _ _) m hfire.undisturbed
      rcases hr : (fireAll settings onTags event rest).runOn m with ⟨out', v'⟩
      rw [hr] at hrest
      obtain ⟨rfl, rfl⟩ : v' = v ∧ out = out'.map fun ids => id?.toList ++ ids := by
        simp only [runOn_bind, hr] at hrun
        cases out' with
        | error fault => exact ⟨(Prod.mk.inj hrun).2, (Prod.mk.inj hrun).1.symm⟩
        | ok ids => exact ⟨(Prod.mk.inj hrun).2, (Prod.mk.inj hrun).1.symm⟩
      have hfit' : ∀ id p, m.store.find? Run id = some p → Transaction.fits id = true :=
        fun id p hp => hfit id p (hrest.kept id p not_false hp)
      have hhead : Reached settings event w m flow id? := by
        rcases fire_of_serves honTags hserves hw (hflows flow List.mem_cons_self) hf hfit' with
          ⟨hout, hreached⟩ | ⟨id, run, hruns, ⟨steps, -, hout, hstatus⟩ | ⟨_, _, hout, _⟩⟩
        · obtain rfl := Except.ok.inj hout
          exact hreached
        · obtain rfl := Except.ok.inj hout
          exact .ended id run hruns hstatus
        · cases hout
      refine Served.cons (fun id hid => ?_) (fun id p hp => hrest.kept id p not_false hp) hhead
        (served_fireAll honTags (hserves.of_places hplaces) hfire.undisturbed
          (fun f hf => hflows f (List.mem_cons_of_mem flow hf)) hr hfit)
      cases hw₀ : w.store.find? Run id with
      | none => rfl
      | some p =>
        rw [hfire.kept id p not_false hw₀] at hid
        cases hid

/-- Every run that an event opened has ended, and every flow that it is for was passed over or has
a run of its own. -/
structure Closes (settings : Settings) (event : Event) (flows : List Flow) (w v : World) :
    Prop where
  ended : ∀ id p, w.store.find? Run id = none → v.store.find? Run id = some p →
    p.status ≠ RunLog.running
  reached : ∃ ids, List.Forall₂ (Reached settings event w v) flows ids ∧ ids.reduceOption.Nodup

theorem Served.closes {event : Event} {flows : List Flow} {w v : World}
    {out : Except Fault (List Int)} (h : Served settings event flows w v out)
    (hended : ∀ id p, w.store.find? Run id = none → v.store.find? Run id = some p →
      p.status ≠ RunLog.running) : Closes settings event flows w v := by
  cases h with
  | returned ids reached distinct => exact ⟨hended, ids, reached, distinct⟩
  | raised before after ids flow fault id run upTo reached unreadable runs status distinct =>
    exact absurd status (hended id run runs.new runs.there)

/-- **Runs end but for steps that cannot be read.** Of the runs that an event opens, directly or by
changes of tags, those are left open whose stored steps cannot be read, and no others. The flows
that the event is for are gone through in order, each passed over or with a run of its own, up to
one whose steps cannot be read, which raises. So all runs end and all flows are gone through exactly
if every automation that got a run has steps that can be read. An event whose flows cannot be told
opens nothing. -/
theorem dispatch_closes {event : Event} {w v : World} {out : Except Fault (List Int)}
    (hw : w.Undisturbed w.store.steps) (hserves : Serves event.conversationId w)
    (hautomations : ∀ a ∈ w.store.automations, Transaction.fits a.id = true)
    (hrun : (dispatch settings event).runOn w = (out, v))
    (hfit : ∀ id p, v.store.find? Run id = some p → Transaction.fits id = true) :
    (∀ id p, w.store.find? Run id = none → v.store.find? Run id = some p →
      (p.status = RunLog.running ↔ ¬w.store.Readable p.automationId)) ∧
    ((∃ fault, (query (Flow.matching event)).runOn w = (.error fault, w) ∧ out = .error fault
        ∧ v = w) ∨
      ∃ flows, (query (Flow.matching event)).runOn w = (.ok flows, w)
        ∧ Served settings event flows w v out
        ∧ (Closes settings event flows w v ↔ ∀ id p, w.store.find? Run id = none →
          v.store.find? Run id = some p → w.store.Readable p.automationId)) := by
  have hsettled : ∀ id p, w.store.find? Run id = none → v.store.find? Run id = some p →
      (p.status = RunLog.running ↔ ¬w.store.Readable p.automationId) := by
    intro id p hnone hp
    have hleaves : Leaves w.store.steps (fun _ => False) (Run.Settled w.store) w
        ((dispatch settings event).runOn w).2 := settles_dispatch event w hw
    rw [hrun] at hleaves
    refine hleaves.added id p not_false hnone hp ?_
    rw [show p.id = id from Store.id_of_find? hp]
    exact hfit id p hp
  refine ⟨hsettled, ?_⟩
  have hreads := Work.Keeps.reads (R := Eq) (Transaction.reads_matching event) w
  unfold dispatch dispatchWith at hrun
  rw [runOn_bind] at hrun
  rcases hm : (query (Flow.matching event)).runOn w with ⟨fault | flows, w'⟩ <;>
    rw [hm] at hreads hrun <;> obtain rfl : w = w' := hreads
  · exact .inl ⟨fault, rfl, (Prod.mk.inj hrun).1.symm, (Prod.mk.inj hrun).2.symm⟩
  · have hflows : ∀ flow ∈ flows, Transaction.fits flow.automation.id = true := by
      intro flow hflow
      rw [query, run_transact] at hm
      cases hr : (Flow.matching event).run w.store with
      | error fault => simp [hr] at hm
      | ok p =>
        simp only [hr, Prod.mk.injEq, Except.ok.injEq] at hm
        exact hautomations _ ((Flow.stored_of_matching hr).2 flow (hm.1 ▸ hflow)).1
    have hserved := served_fireAll (Or.inr rfl) hserves hw hflows hrun hfit
    refine .inr ⟨flows, rfl, hserved, fun hcloses id p hnone hp => ?_, fun hreadable => ?_⟩
    · by_contra hnot
      exact hcloses.ended id p hnone hp ((hsettled id p hnone hp).mpr hnot)
    · exact hserved.closes fun id p hnone hp hopen =>
        (hsettled id p hnone hp).mp hopen (hreadable id p hnone hp)

/-! ### An event that is not got over -/

/-- A conversation with two automations for its beginning: one with a delay that is infinite, and
one that closes it. -/
def reception : World :=
  { store :=
      { conversations :=
          [{ id := 1, channelId := 1, clientId := none, operatorId := none, status := "open",
             metadata := .null, unreadCount := 0, lastMessageAt := none }]
        automations :=
          [{ id := 1, name := "wait", description := none, channelId := none,
             trigger := "new_conversation", triggerConfig := .null, isActive := true },
            { id := 2, name := "close", description := none, channelId := none,
              trigger := "new_conversation", triggerConfig := .null, isActive := true }]
        steps :=
          [{ id := 1, automationId := 1, stepId := "wait", kind := "delay",
             config := .object [("delay_seconds", .float (Binary64.infinity false))],
             position := .null, order := 0, nextStepId := none, trueStepId := none,
             falseStepId := none },
            { id := 2, automationId := 2, stepId := "close", kind := "close_conversation",
              config := .null, position := .null, order := 0, nextStepId := none,
              trueStepId := none, falseStepId := none }] } }

/-- The beginning of the conversation. -/
def beginning : Event := { kind := .newConversation, conversationId := 1, channelId := 1 }

theorem reception_undisturbed : reception.Undisturbed reception.store.steps :=
  ⟨by simp [Rehearsal.Spares, reception], by simp [Rehearsal.Spares, reception],
    by simp [Rehearsal.Spares, reception], rfl⟩

theorem reception_serves : Serves 1 reception where
  spares := by simp [Rehearsal.Spares, reception]
  tables := rfl
  there := ⟨_, rfl, by decide, by decide, fun _ h => by cases h⟩

theorem id_of_reception {id : Int} {p : Run}
    (h : ((dispatch {} beginning).runOn reception).2.store.find? Run id = some p) : id = 1 := by
  have hids : ((dispatch {} beginning).runOn reception).2.store.runs.map Run.id = [1] := by
    decide +kernel
  have hmem := List.mem_map_of_mem (f := Run.id) (List.mem_of_find?_eq_some h)
  rw [show List.map Run.id (Row.rows _) = [1] from hids, List.mem_singleton] at hmem
  exact (Store.id_of_find? h).symm.trans hmem

theorem open_of_reception :
    ∃ p, ((dispatch {} beginning).runOn reception).2.store.find? Run 1 = some p
      ∧ p.status = RunLog.running := by
  have hstatus : (((dispatch {} beginning).runOn reception).2.store.find? Run 1).map Run.status
      = some RunLog.running := by decide +kernel
  exact Option.map_eq_some_iff.mp hstatus

/-- At the reception the run that is left open is one of steps that cannot be read. -/
theorem dispatch_closes_reception :
    ∃ p, ((dispatch {} beginning).runOn reception).2.store.find? Run 1 = some p
      ∧ ¬reception.store.Readable p.automationId := by
  obtain ⟨hiff, -⟩ := @dispatch_closes {} beginning reception _ _ reception_undisturbed
    reception_serves (by decide +kernel) rfl fun id p hp => id_of_reception hp ▸ by decide
  obtain ⟨p, hp, hopen⟩ := open_of_reception
  exact ⟨p, hp, (hiff 1 p rfl hp).mp hopen⟩

/-- An event can leave a run open, and an automation that it is for without a run. -/
theorem not_always_closes :
    ¬∀ (settings : Settings) (event : Event) (w : World) (flows : List Flow),
      w.Undisturbed w.store.steps → Serves event.conversationId w →
      (query (Flow.matching event)).runOn w = (.ok flows, w) →
      Closes settings event flows w ((dispatch settings event).runOn w).2 := by
  intro h
  have hreads := Work.Keeps.reads (R := Eq) (Transaction.reads_matching beginning) reception
  have hok : ((query (Flow.matching beginning)).runOn reception).1.toBool = true := by
    decide +kernel
  rcases hm : (query (Flow.matching beginning)).runOn reception with ⟨fault | flows, w⟩ <;>
    rw [hm] at hreads hok
  · cases hok
  · obtain rfl : reception = w := hreads
    obtain ⟨p, hp, hopen⟩ := open_of_reception
    exact (h {} beginning reception flows reception_undisturbed reception_serves hm).ended 1 p rfl
      hp hopen

end Engine

end Deskflow
