import Deskflow.Proofs.TagChaining
import Deskflow.Proofs.SuspendedRuns
import Deskflow.Proofs.RunChains

/-!
# The last stop

An event may set off many runs in a conversation, one inside another, and any of them may stop at a
condition. All of them write to the one slot of the conversation, so that the last run that stopped
is the one that is waited for. `Overwrites` tells from one world to another which runs stopped
between them and what that made of the slot, and `Accounted` whose runs they were: runs that were
opened meanwhile, each of which waits at the step of the top level that its condition lies in, and
has that condition last in its trace. That they are the runs that end suspended is said in
`Deskflow.Proofs.SuspendedRuns`.

The slot is filled by `save` when a run stops, and emptied by `take` when its conversation is looked
at.

* `overwritten_execute`, `accounted_execute`: what an execution comes to, whatever it sets off.
* `emptied_resume`: a conversation that was looked at starts from an empty slot.
* `last_stop_holds`: the result.

Out of scope: what a slot holds of a conversation that was deleted meanwhile.
-/

namespace Deskflow

/-- The suspension that a pause is about. -/
def Pause.suspension (p : Pause) : Suspension :=
  ⟨p.automationId, p.stepId, p.runId, p.condition.record⟩

/-- A run that stopped is one of these. -/
def Pause.IsOf (p : Pause) (opened : List Opening) : Prop :=
  ∃ o ∈ opened, o.id = p.runId ∧ o.automationId = p.automationId
    ∧ o.conversationId = p.conversationId

/-- A run waits at the step of the top level of its automation in which the condition lies that it
stopped at, and that condition is the last step in its trace. The steps are those in one store, and
the trace is in another one. -/
def Pause.WaitsIn (p : Pause) (s t : Store) : Prop :=
  ∃ steps, Step.parseSteps ((s.stepsOf p.automationId).map StepRow.draft) = .ok steps
    ∧ ∃ step ∈ steps, step.head.stepId = p.stepId
      ∧ ∃ head, (head, .condition p.condition) ∈ Step.singlesOf step
        ∧ ∃ run, t.find? Run p.runId = some run ∧ run.traced.getLast? = some head.traced

/-- It does so as long as its run stays as it is. -/
theorem Pause.WaitsIn.of_kept {p : Pause} {s t u : Store} (h : p.WaitsIn s t)
    (kept : ∀ run, t.find? Run p.runId = some run → u.find? Run p.runId = some run) :
    p.WaitsIn s u := by
  obtain ⟨steps, hsteps, step, hstep, hid, head, hhead, run, hrun, hlast⟩ := h
  exact ⟨steps, hsteps, step, hstep, hid, head, hhead, run, kept run hrun, hlast⟩

theorem Pause.IsOf.mono {p : Pause} {xs ys : List Opening} (h : p.IsOf xs) (hsub : xs ⊆ ys) :
    p.IsOf ys :=
  let ⟨o, ho, hrest⟩ := h
  ⟨o, hsub ho, hrest⟩

/-- What the slot of a conversation holds once runs stopped there, one after another. -/
def slotAfter (stops : List Pause) (before : Option Value) : Option Value :=
  (stops.getLast?.map fun p => .object p.suspension.record).or before

theorem slotAfter_append (xs ys : List Pause) (before : Option Value) :
    slotAfter (xs ++ ys) before = slotAfter ys (slotAfter xs before) := by
  unfold slotAfter
  rw [List.getLast?_append]
  cases ys.getLast? <;> rfl

/-- The slot of a conversation is empty once it was taken from. -/
theorem Slot.slot?_of_take {c : Int} {taken : Option Suspension} {s s' : Store}
    (h : (take c).run s = .ok (taken, s')) : s'.slot? c = none := by
  unfold take at h
  obtain ⟨found, s₁, h₁, h⟩ := Transaction.run_bind_eq_ok.mp h
  obtain ⟨rfl, rfl, -⟩ := Transaction.run_load_eq_ok h₁
  cases hk : s₁.find? Conversation c with
  | none =>
    rw [hk] at h
    cases h
    exact Store.slot?_of_none hk
  | some k =>
    rw [hk] at h
    obtain ⟨slot, s₂, h₂, h⟩ := Transaction.run_bind_eq_ok.mp h
    obtain ⟨hslot, rfl⟩ := Transaction.lift_eq_ok h₂
    cases slot with
    | none =>
      cases h
      rw [Store.slot?_of_some hk, Suspension.held?, hslot]
    | some p =>
      obtain ⟨_, s₃, h₃, h⟩ := Transaction.run_bind_eq_ok.mp h
      cases h₃
      obtain ⟨-, rfl⟩ := Transaction.lift_eq_ok h
      exact (Store.slot?_withMetadata_self hk p.2).trans (Suspension.held?_of_withoutSlot hslot).2

namespace Engine

open Work World

/-! ## What becomes of the slot -/

/-- Between two worlds runs stopped in a conversation, each at a condition that did not hold, and
the slot of the conversation was written by them and by nothing else, as long as the conversation is
there. -/
structure Overwrites (c : Int) (stops : List Pause) (w v : World) : Prop where
  pauses : v.pauses = w.pauses ++ stops
  unmet : ∀ p ∈ stops, p.conversationId = c ∧ p.condition.holds p.facts = .ok false
  slot : (v.store.find? Conversation c).isSome →
    (w.store.find? Conversation c).isSome ∧ v.store.slot? c = slotAfter stops (w.store.slot? c)

/-- Some runs stopped between two worlds, and the slot was written by nothing else. -/
def Overwritten (c : Int) (w v : World) : Prop := ∃ stops, Overwrites c stops w v

/-- What touches neither the slot nor the record of pauses. -/
theorem Overwritten.of_slot {c : Int} {w v : World} (hpauses : v.pauses = w.pauses)
    (hslot : (v.store.find? Conversation c).isSome →
      (w.store.find? Conversation c).isSome ∧ v.store.slot? c = w.store.slot? c) :
    Overwritten c w v :=
  ⟨[], by rw [hpauses, List.append_nil], by simp, hslot⟩

instance (c : Int) : Std.Refl (Overwritten c) := ⟨fun _ => .of_slot rfl fun h => ⟨h, rfl⟩⟩

instance (c : Int) : IsTrans World (Overwritten c) := ⟨fun _ _ _ ⟨xs, h⟩ ⟨ys, k⟩ =>
  ⟨xs ++ ys,
    { pauses := by rw [k.pauses, h.pauses, List.append_assoc]
      unmet := List.forall_mem_append.mpr ⟨h.unmet, k.unmet⟩
      slot := fun there => by
        obtain ⟨hm, hslot⟩ := k.slot there
        obtain ⟨hw, hslot'⟩ := h.slot hm
        exact ⟨hw, by rw [hslot, hslot', slotAfter_append]⟩ }⟩⟩

variable {c : Int} {settings : Settings} {onTags : TagHandler}

theorem Overwritten.of_aside {w v : World} (h : Aside w v) : Overwritten c w v := by
  refine .of_slot h.pauses fun there => ?_
  obtain ⟨k, hk⟩ := Option.isSome_iff_exists.mp there
  obtain ⟨k₀, hk₀, hcore⟩ := h.found c k hk
  have hmetadata : k.metadata = k₀.metadata := congrArg (fun p => p.2.2.2) hcore
  exact ⟨by rw [hk₀]; rfl, by rw [Store.slot?_of_some hk, Store.slot?_of_some hk₀, hmetadata]⟩

/-- A condition that does not hold puts its own suspension into the slot, whatever it held. -/
theorem overwritten_awaitCondition {ctx : Context} (hc : ctx.conversationId = c) (stepId : String)
    (cond : Condition) : Work.Keeps (Overwritten c) (awaitCondition ctx stepId cond) := by
  subst hc
  refine keeps_awaitCondition fun w facts s hfalse hs => ?_
  refine ⟨[ctx.pause stepId cond facts], rfl, by simp [Context.pause, hfalse], fun there => ?_⟩
  rcases Slot.save_eq_ok hs with ⟨hnone, rfl⟩ | ⟨k, fields, hk, hheld, rfl⟩
  · rw [hnone] at there
    cases there
  · exact ⟨by rw [hk]; rfl, (Store.slot?_withMetadata_self hk fields).trans hheld⟩

/-- An execution writes to the slot of its conversation only where runs stop, its own or those that
come of its changes of tags. -/
theorem overwritten_execute
    (handled : ∀ kind channel tags, Work.Keeps (Overwritten c) (onTags kind c channel tags))
    (flow : Flow) (data : Value) (instead : Option (List Step)) :
    Work.Keeps (Overwritten c) (execute settings onTags flow c data instead) := by
  refine keeps_execute_of_awaits (.of_aside settings .of_aside)
    (fun ctx hc => overwritten_awaitCondition hc) (fun w id f _ => .of_slot rfl fun h => ⟨h, rfl⟩)
    (fun w _ => .of_slot rfl fun h => ⟨h, rfl⟩) (fun w _ _ _ _ _ _ opened => ?_) handled flow data
    instead
  obtain ⟨-, -, rfl⟩ := RunLog.openRun_eq_ok opened
  exact .of_slot rfl fun h => ⟨h, rfl⟩

theorem runwork_overwritten (settings : Settings) (c : Int) :
    Runwork settings c (Overwritten c) where
  executes := overwritten_execute
  remembers _ _ := .of_slot rfl fun h => ⟨h, rfl⟩

/-- What a world becomes once something was taken from a slot of it, and then only runs that stopped
wrote to it. -/
def Emptied (c : Int) (w v : World) : Prop :=
  ∃ taken s, (Slot.take c).run w.store = .ok (taken, s) ∧ Overwritten c { w with store := s } v

theorem Emptied.trans {w m v : World} (h : Emptied c w m) (k : Overwritten c m v) :
    Emptied c w v := by
  obtain ⟨taken, s, htake, hm⟩ := h
  exact ⟨taken, s, htake, IsTrans.trans _ m v hm k⟩

/-- A conversation is looked at by taking from its slot, if nothing stops it. -/
theorem emptied_resume {w v : World} {id : Option Int}
    (h : (resume settings c).runOn w = (.ok id, v)) : Emptied c w v := by
  have hafter : (∃ fault, (Slot.take c).run w.store = .error fault)
      ∨ Emptied c w ((resume settings c).runOn w).2 :=
    @resume_induct settings
      (fun v => (∃ fault, (Slot.take c).run w.store = .error fault) ∨ Emptied c w v) c w
      (fun fault htake => .inl ⟨fault, htake⟩)
      (fun t s htake => .inr ⟨t, s, htake, Std.Refl.refl _⟩)
      fun t s flow _ hyields =>
        .inr ⟨some t, s, hyields.taken,
          overwritten_execute (runwork_overwritten settings c).chained flow _ _ _⟩
  rw [h] at hafter
  refine hafter.resolve_left ?_
  rintro ⟨fault, htake⟩
  unfold resume at h
  rw [runOn_bind, query, run_transact, htake] at h
  cases h

/-- Whether the engine looks at the conversation first. -/
def Occurrence.looks : Occurrence → Bool
  | .dispatched _ => false
  | .triggered _ _ _ => false
  | .cameIn r => !r.duplicate
  | .lookedAt _ => true

theorem emptied_handleIncoming {r : Receipt} {w v : World} {ids : List Int}
    (hr : r.duplicate = false) (h : (handleIncoming settings r).runOn w = (.ok ids, v)) :
    Emptied r.conversationId w v := by
  unfold handleIncoming at h
  rw [if_neg (by simp [hr])] at h
  obtain ⟨id, m, hresumed, h⟩ := runOn_bind_eq_ok.mp h
  refine (emptied_resume hresumed).trans ?_
  have dispatches : ∀ kind,
      Work.Keeps (Overwritten r.conversationId) (dispatch settings (eventOf kind r)) := fun kind =>
    (runwork_overwritten settings _).dispatch rfl
  refine Work.Keeps.of_runOn ?_ h
  split
  · exact Work.Keeps.pure _
  · split
    · exact Work.Keeps.bind (dispatches _) fun _ => Work.Keeps.returning (dispatches _)
    · exact Work.Keeps.returning (dispatches _)

/-- What is done about an occurrence empties the slot first, if it is to look at the conversation,
and then only runs that stop write to it. -/
theorem emptied_or_overwritten_handle {o : Occurrence} {w v : World}
    (h : (o.handle settings).runOn w = (.ok (), v)) :
    o.looks = true ∧ Emptied o.conversationId w v
      ∨ o.looks = false ∧ Overwritten o.conversationId w v := by
  cases o with
  | dispatched event =>
    have work := runwork_overwritten settings event.conversationId
    exact .inr ⟨rfl, Work.Keeps.of_runOn (.returning (work.dispatch rfl)) h⟩
  | triggered kind c tags =>
    have work := runwork_overwritten settings c
    exact .inr ⟨rfl, Work.Keeps.of_runOn
      (.returning (keeps_trigger (fun _ => work.dispatch) kind tags)) h⟩
  | cameIn r =>
    obtain ⟨ids, m, hm, h⟩ := runOn_bind_eq_ok.mp h
    cases h
    cases hr : r.duplicate with
    | true =>
      rw [runOn_handleIncoming_of_duplicate w hr] at hm
      cases hm
      exact .inr ⟨by simp [Occurrence.looks, hr], Std.Refl.refl _⟩
    | false => exact .inl ⟨by simp [Occurrence.looks, hr], emptied_handleIncoming hr hm⟩
  | lookedAt c =>
    obtain ⟨id, m, hm, h⟩ := runOn_bind_eq_ok.mp h
    cases h
    exact .inl ⟨rfl, emptied_resume hm⟩

/-! ## Whose runs stopped -/

/-- Between two worlds, in which the steps are those of `s₀`, all runs but those of `own` stay as
they were, and the runs that ended or stopped were opened meanwhile. -/
structure Accounts (s₀ : Store) (own : Int → Prop) (w v : World) : Prop where
  leaves : Leaves s₀.steps own (fun _ => True) w v
  runs : ∃ opened ended stops, v.store.openings = w.store.openings ++ opened
    ∧ v.conclusions = w.conclusions ++ ended ∧ v.pauses = w.pauses ++ stops
    ∧ (∀ x ∈ ended, ∃ o ∈ opened, o.id = x.runId)
    ∧ ∀ p ∈ stops, ¬own p.runId ∧ w.store.find? Run p.runId = none ∧ p.IsOf opened
      ∧ p.WaitsIn s₀ v.store

/-- The same of a world that is not disturbed, in which the runs of `own` are. -/
def Accounted (s₀ : Store) (own : Int → Prop) (w v : World) : Prop :=
  w.Undisturbed s₀.steps → (∀ id, own id → ∃ p, w.store.find? Run id = some p) →
    Accounts s₀ own w v

variable {s₀ : Store} {own : Int → Prop}

/-- What opens no run and puts nothing on record. -/
theorem Accounts.of_eq {w v : World} (leaves : Leaves s₀.steps own (fun _ => True) w v)
    (hruns : v.store.openings = w.store.openings) (hended : v.conclusions = w.conclusions)
    (hpauses : v.pauses = w.pauses) : Accounts s₀ own w v :=
  ⟨leaves, [], [], [], by rw [hruns, List.append_nil], by rw [hended, List.append_nil],
    by rw [hpauses, List.append_nil], by simp, by simp⟩

instance : Std.Refl (Accounted s₀ own) := ⟨fun _ hw _ => .of_eq (.refl hw) rfl rfl rfl⟩

instance : IsTrans World (Accounted s₀ own) := ⟨fun w m v h k hw hown => by
  obtain ⟨hm, xs, es, ps, hxs, hes, hps, hended, hstops⟩ := h hw hown
  obtain ⟨hv, ys, fs, qs, hys, hfs, hqs, hended', hstops'⟩ := k hm.undisturbed fun id hid =>
    let ⟨p, hp⟩ := hown id hid
    let ⟨q, hq, _⟩ := hm.owned id p hp
    ⟨q, hq⟩
  refine ⟨hm.trans hv, xs ++ ys, es ++ fs, ps ++ qs, by rw [hys, hxs, List.append_assoc],
    by rw [hfs, hes, List.append_assoc], by rw [hqs, hps, List.append_assoc], ?_, ?_⟩
  · intro x hx
    rcases List.mem_append.mp hx with hx | hx
    · obtain ⟨o, ho, hid⟩ := hended x hx
      exact ⟨o, List.mem_append_left ys ho, hid⟩
    · obtain ⟨o, ho, hid⟩ := hended' x hx
      exact ⟨o, List.mem_append_right xs ho, hid⟩
  · intro p hp
    rcases List.mem_append.mp hp with hp | hp
    · obtain ⟨hnot, hnew, hof, hwaits⟩ := hstops p hp
      exact ⟨hnot, hnew, hof.mono (List.subset_append_left _ _),
        hwaits.of_kept fun run => hv.kept _ run hnot⟩
    · obtain ⟨hnot, hnew, hof, hwaits⟩ := hstops' p hp
      refine ⟨hnot, ?_, hof.mono (List.subset_append_right _ _), hwaits⟩
      -- A run that is new later on was not there at first either.
      by_contra hthere
      obtain ⟨q, hq⟩ := Option.ne_none_iff_exists'.mp hthere
      rw [hm.kept _ q hnot hq] at hnew
      cases hnew⟩

/-- What leaves all runs alone leaves alone all but some that are there. -/
theorem Accounted.weaken {w v : World} (h : Accounted s₀ (fun _ => False) w v) :
    Accounted s₀ own w v := fun hw hown => by
  obtain ⟨hleaves, opened, ended, stops, hopened, hended, hstops, hall, hof⟩ := h hw nofun
  refine ⟨Isolates.weaken (fun _ => hleaves) hw, opened, ended, stops, hopened, hended, hstops,
    hall, fun p hp => ?_⟩
  obtain ⟨-, hnew, hrest⟩ := hof p hp
  refine ⟨fun hid => ?_, hnew, hrest⟩
  obtain ⟨q, hq⟩ := hown _ hid
  rw [hnew] at hq
  cases hq

theorem Accounted.of_aside {w v : World} (h : Aside w v) : Accounted s₀ own w v := fun hw _ =>
  .of_eq (Isolates.of_aside h hw) (congrArg (List.map Run.opening) (h.runs hw.runs)) h.conclusions
    h.pauses

theorem Accounted.of_memory (w : World) (m : Memory) :
    Accounted s₀ own w { w with memory := m } := fun hw _ =>
  .of_eq (Isolates.of_memory w m hw) rfl rfl rfl

theorem accounted_begin (ctx : Context) (head : StepHead) :
    Work.Keeps (Accounted s₀ (· = ctx.runId)) (begin ctx head) :=
  keeps_begin ctx head fun w _ hf hw _ =>
    .of_eq (Isolates.modify_run w hf hw) (w.store.openings_modify ctx.runId hf) rfl rfl

/-- A beat of the top level lies in the step that it waits at, if it has to. -/
theorem exists_step_of_beats {b : Beat} : ∀ {steps : List Step}, b ∈ beats none steps →
    ∃ step ∈ steps, step.head.stepId = b.owner ∧ b ∈ beatsOf none step
  | [], h => by cases h
  | s :: rest, h => by
    rcases List.mem_append.mp h with h | h
    · exact ⟨s, List.mem_cons_self, (owner_of_beatsOf s h).symm, h⟩
    · obtain ⟨step, hstep, howner, hb⟩ := exists_step_of_beats h
      exact ⟨step, List.mem_cons_of_mem s hstep, howner, hb⟩

/-- A step is noted of a run whose id a table can hold. -/
theorem fits_of_begin {ctx : Context} {head : StepHead} {w v : World}
    (h : (begin ctx head).runOn w = (.ok (), v)) : Transaction.fits ctx.runId = true := by
  rw [begin, run_transact] at h
  cases hs : (RunLog.append w.clock ctx.runId head.stepId head.kind).run w.store with
  | error fault =>
    rw [hs] at h
    cases h
  | ok out =>
    unfold RunLog.append at hs
    obtain ⟨_, _, hload, -⟩ := Transaction.run_bind_eq_ok.mp hs
    exact (Transaction.run_load_eq_ok hload).2.2

/-- The run that stops last in an execution is its own: it waits, at the step of the top level that
its condition lies in, with that condition last in its trace. -/
theorem waitsIn_of_stopped (honTags : IsHandler settings onTags) (ctx : Context) {flow : Flow}
    (hflow : flow.rows = s₀.stepsOf flow.automation.id) (ha : ctx.automationId = flow.automation.id)
    {line all : List Step} (hall : flow.steps = .ok all) (hline : line ⊆ all)
    {before after : List Beat} {last : Beat} {w m' m : World} {cond : Condition} (facts : Facts)
    (hgoing : Going s₀.steps ctx.runId [] w) (upTo : beats none line = before ++ last :: after)
    (goesOn : (runBeats settings onTags ctx before).runOn w = (.ok .goesOn, m'))
    (begins : (begin ctx last.head).runOn m' = (.ok (), m))
    (isCondition : last.action = some (.condition cond)) {run : Run} {t : Store}
    (hrun : t.find? Run ctx.runId = some run)
    (hkept : ∀ q, m.store.find? Run ctx.runId = some q → run.traced = q.traced) :
    (ctx.pause last.owner cond facts).WaitsIn s₀ t := by
  have hfit := fits_of_begin begins
  obtain ⟨-, hm⟩ := going_begin (going_runBeats honTags hfit before hgoing goesOn) hfit last.head
  rw [begins] at hm
  obtain ⟨q, entries, hq, -, hentries, hnames⟩ := hm.row
  have hlast : last ∈ beats none line := upTo ▸ by simp
  obtain ⟨step, hstep, howner, hin⟩ := exists_step_of_beats hlast
  refine ⟨all, ?_, step, hline hstep, howner, last.head,
    mem_singlesOf_of_beatsOf isCondition step hin, run, hrun, ?_⟩
  · rw [← hall, Flow.steps, hflow, ← ha]
    rfl
  · rw [hkept q hq, Run.traced, hentries]
    simp only [hnames, List.map_append, List.map_cons, List.map_nil, List.getLast?_concat]

/-- Once a run ended that was opened in between, all that stopped since is accounted for: its own
stop, if there is one, and the others. -/
theorem Accounts.of_ended {w w₁ m u : World} {o : Opening} {r : Except Fault Progress}
    (own : List Pause) (h : Accounts s₀ (· = o.id) w₁ m)
    (opened : w₁.store.openings = w.store.openings ++ [o])
    (others : ∀ n q, n ≠ o.id → w.store.find? Run n = some q → w₁.store.find? Run n = some q)
    (records : w₁.conclusions = w.conclusions ∧ w₁.pauses = w.pauses)
    (hnone : w.store.find? Run o.id = none)
    (leaves : Leaves s₀.steps (fun _ => False) (fun _ => True) w u)
    (openings : u.store.openings = m.store.openings)
    (conclusions : u.conclusions = m.conclusions ++ [⟨o.id, r⟩])
    (pauses : u.pauses = m.pauses ++ own)
    (kept : ∀ n q, n ≠ o.id → m.store.find? Run n = some q → u.store.find? Run n = some q)
    (stopped : ∀ p ∈ own, p.runId = o.id ∧ p.IsOf [o] ∧ p.WaitsIn s₀ u.store) :
    Accounts s₀ (fun _ => False) w u := by
  obtain ⟨-, more, ended, stops, hmore, hended, hstops, hall, hof⟩ := h
  refine ⟨leaves, o :: more, ended ++ [⟨o.id, r⟩], stops ++ own, ?_, ?_, ?_, fun x hx => ?_,
    fun p hp => ?_⟩
  · rw [openings, hmore, opened, List.append_assoc]
    rfl
  · rw [conclusions, hended, records.1, List.append_assoc]
  · rw [pauses, hstops, records.2, List.append_assoc]
  · rcases List.mem_append.mp hx with hx | hx
    · obtain ⟨other, hmem, hid⟩ := hall x hx
      exact ⟨other, List.mem_cons_of_mem o hmem, hid⟩
    · rw [List.mem_singleton.mp hx]
      exact ⟨o, List.mem_cons_self, rfl⟩
  · rcases List.mem_append.mp hp with hp | hp
    · obtain ⟨hnot, hnew, hisOf, hwaits⟩ := hof p hp
      refine ⟨not_false, ?_, hisOf.mono (List.subset_cons_self _ _),
        hwaits.of_kept fun q => kept _ q hnot⟩
      by_contra hthere
      obtain ⟨q, hq⟩ := Option.ne_none_iff_exists'.mp hthere
      rw [others _ q hnot hq] at hnew
      cases hnew
    · obtain ⟨hid, hisOf, hwaits⟩ := stopped p hp
      exact ⟨not_false, hid ▸ hnone, hisOf.mono (by simp), hwaits⟩

/-- A run that ends keeps its trace, and what was settled when runs were opened stays. -/
theorem traced_endRun (id : Int) (r : Except Fault Progress) (v : World) :
    ((endRun id r).runOn v).2.store.openings = v.store.openings
      ∧ ∀ q, v.store.find? Run id = some q →
        ∃ run, ((endRun id r).runOn v).2.store.find? Run id = some run ∧ run.traced = q.traced := by
  rw [runOn_endRun, run_transact]
  cases hs : (RunLog.finish v.clock id (endOf r)).run v.store with
  | error fault => exact ⟨rfl, fun q hq => ⟨q, hq, rfl⟩⟩
  | ok out =>
    obtain ⟨_, t⟩ := out
    rcases RunLog.finish_eq_ok hs with ⟨-, rfl⟩ | ⟨q, hq, -, rfl⟩
    · exact ⟨rfl, fun q hq => ⟨q, hq, rfl⟩⟩
    · refine ⟨v.store.openings_modify id fun _ => rfl, fun q' hq' => ?_⟩
      exact ⟨_, Store.find?_modify_of_some (fun _ => rfl) hq', rfl⟩

/-- The run that an execution opens waits, if it has to, at a step of the top level, and accounts
with it for what stops meanwhile. -/
theorem accounted_execute (honTags : IsHandler settings onTags)
    (handled : ∀ kind c channel tags,
      Work.Keeps (Accounted s₀ fun _ => False) (onTags kind c channel tags)) {flow : Flow}
    (hflow : flow.rows = s₀.stepsOf flow.automation.id) {c : Int} {data : Value}
    {instead : Option (List Step)}
    (hplan : ∀ steps, plan flow instead = .ok steps → ∃ all, flow.steps = .ok all ∧ steps ⊆ all) :
    Work.Keeps (Accounted s₀ fun _ => False) (execute settings onTags flow c data instead) := by
  intro w hw _
  have hleaves := isolates_handed honTags flow c data instead w hw
  have he := executed_execute settings onTags flow c data instead w
  generalize (execute settings onTags flow c data instead).runOn w = out at he hleaves
  cases he with
  | refused fault => exact .of_eq hleaves rfl rfl rfl
  | missing => exact .of_eq hleaves rfl rfl rfl
  | unread thread id s fault loaded opened unreadable =>
    exact ⟨hleaves, _, [], [], openings_of_openRun opened, (List.append_nil _).symm,
      (List.append_nil _).symm, by simp, by simp⟩
  | ran thread id s steps r v loaded opened readable played =>
    obtain ⟨all, hall, hsteps⟩ := hplan steps readable
    obtain ⟨o, hnew, rfl, ha, hc⟩ : ∃ o : Opening, s.openings = w.store.openings ++ [o]
        ∧ o.id = id ∧ o.automationId = flow.automation.id
        ∧ o.conversationId = thread.conversation.id :=
      ⟨_, openings_of_openRun opened, rfl, rfl, rfl⟩
    let ctx : Context := ⟨flow.automation.id, o.id, thread.conversation.id⟩
    obtain ⟨hopened, hnone, hrow⟩ := leaves_opened (fun _ => True) hw opened
    have hthere : ∀ n, n = o.id → ∃ p, s.find? Run n = some p := by
      rintro _ rfl
      exact ⟨_, hrow⟩
    have halong := along_runBeats (R := Accounted s₀ (· = o.id)) (.of_aside settings .of_aside)
      (fun kind _ channel tags => .mono Accounted.weaken (handled kind _ channel tags))
      (accounted_begin ctx) (beats none steps) { w with store := s }
    rw [played] at halong
    rw [snd_runOn_endRun] at hleaves ⊢
    obtain ⟨hconclusions, hpauses⟩ := logs_endRun o.id r v
    obtain ⟨hopenings, htraced⟩ := traced_endRun o.id r v
    have hplayed := isolates_runBeats settings (isolates_handler honTags) ctx (beats none steps)
      { w with store := s } hopened.undisturbed
    rw [played] at hplayed
    have hended : Leaves s₀.steps (· = o.id) (fun _ => True) v ((endRun o.id r).runOn v).2 :=
      isolates_endRun o.id r v hplayed.undisturbed
    cases halong with
    | passed _ _ passes keeps =>
      exact .of_ended [] (keeps hopened.undisturbed hthere) hnew hopened.kept ⟨rfl, rfl⟩
        hnone hleaves hopenings hconclusions (hpauses.trans (List.append_nil _).symm) hended.kept
        (by simp)
    | stopped before last after m' m cond facts t upTo goesOn begins keeps isCondition _ saved =>
      have hruns : t.runs = m.store.runs := by
        rcases Slot.save_eq_ok saved with ⟨-, rfl⟩ | ⟨k, fields, -, -, rfl⟩ <;> rfl
      have hfind : ∀ n, t.find? Run n = m.store.find? Run n := fun n =>
        congrArg (List.find? fun r : Run => Row.id r == n) hruns
      have hgoing : Going s₀.steps o.id [] { w with store := s } :=
        ⟨hopened.undisturbed, hopened.absent.symm ▸ (RunLog.openRun_eq_ok opened).2.1, _, [], hrow,
          rfl, rfl, rfl⟩
      have hm := keeps hopened.undisturbed hthere
      obtain ⟨q, hq, -⟩ := hm.leaves.owned o.id _ hrow
      obtain ⟨run, hrun, hsame⟩ := htraced q ((hfind _).trans hq)
      have hwaits := waitsIn_of_stopped honTags ctx hflow rfl hall hsteps facts hgoing upTo
        goesOn begins isCondition hrun fun q' hq' => Option.some.inj (hq.symm.trans hq') ▸ hsame
      refine .of_ended [ctx.pause last.owner cond facts] hm hnew hopened.kept ⟨rfl, rfl⟩
        hnone hleaves (hopenings.trans (congrArg (List.map Run.opening) hruns)) hconclusions hpauses
        (fun n q hn hq => hended.kept n q hn ((hfind n).trans hq)) fun p hp => ?_
      rw [List.mem_singleton.mp hp]
      exact ⟨rfl, ⟨o, List.mem_singleton_self o, rfl, ha, hc⟩, hwaits⟩

/-- An event sets off flows that are stored, with the steps that are stored with them. -/
theorem accounted_dispatchWith (honTags : IsHandler settings onTags)
    (handled : ∀ kind c channel tags,
      Work.Keeps (Accounted s₀ fun _ => False) (onTags kind c channel tags)) (event : Event) :
    Work.Keeps (Accounted s₀ fun _ => False) (dispatchWith settings onTags event) := by
  intro w hw hown
  refine Work.Keeps.eq_bind (.reads (Transaction.reads_matching event))
    (Accounts.of_eq (.refl hw) rfl rfl rfl) fun flows hflows => ?_
  refine keeps_fireAll (R := Accounted s₀ fun _ => False)
    (fun w m _ => Accounted.of_memory w m) flows (fun flow hflow => ?_) w hw hown
  obtain ⟨s, hmatching, -⟩ := runOn_query_eq_ok.mp hflows
  have hrows : flow.rows = w.store.stepsOf flow.automation.id :=
    congrArg Flow.rows ((Flow.stored_of_matching hmatching).2 flow hflow).2
  exact accounted_execute honTags handled (hrows.trans (Store.stepsOf_congr hw.stored _))
    fun steps hsteps => ⟨steps, hsteps, List.Subset.refl _⟩

theorem accounted_chained (kind : EventKind) (c channel : Int) (tags : List Int) :
    Work.Keeps (Accounted s₀ fun _ => False) (chained settings kind c channel tags) :=
  keeps_chained (fun event _ => accounted_dispatchWith (.inl rfl) keeps_quiet event) kind channel
    tags

/-- What is taken from a slot opens no run and puts nothing on record. -/
theorem accounted_take {c : Int} {w : World} {t : Option Suspension} {s : Store}
    (h : (Slot.take c).run w.store = .ok (t, s)) :
    Accounted s₀ own w { w with store := s } := fun hw _ => by
  rcases Slot.take_eq_ok h with ⟨-, rfl⟩ | ⟨k, held, fields, -, -, -, -, rfl⟩ <;>
    exact .of_eq (.of_runs ⟨hw.runs, hw.automations, hw.stepRows, hw.stored⟩ rfl rfl) rfl rfl rfl

/-- A run that goes on from a suspension carries out some of the steps of its automation. -/
theorem accounted_resume (c : Int) :
    Work.Keeps (Accounted s₀ fun _ => False) (resume settings c) := by
  intro w
  refine resume_induct (fun _ _ => Std.Refl.refl w) (fun t s htake => accounted_take htake) ?_
  intro t s flow remaining hyields hw hown
  have htaken : Accounts s₀ (fun _ => False) w { w with store := s } :=
    accounted_take hyields.taken hw hown
  have hs := htaken.leaves.undisturbed
  obtain ⟨steps, hsteps, hremaining⟩ := hyields.ripe.after
  have hflow : flow.rows = s₀.stepsOf flow.automation.id := by
    rw [hyields.ripe.rows, hyields.ripe.own]
    exact Store.stepsOf_congr hs.stored _
  have hplan : ∀ line, plan flow (some remaining) = .ok line →
      ∃ all, flow.steps = .ok all ∧ line ⊆ all := by
    rintro _ ⟨⟩
    obtain ⟨paused, -, rfl⟩ := Option.map_eq_some_iff.mp hremaining
    exact ⟨steps, hsteps, List.filter_subset_self _⟩
  exact IsTrans.trans (r := Accounted s₀ fun _ => False) w _ _ (accounted_take hyields.taken)
    (accounted_execute (.inr rfl) accounted_chained hflow hplan _) hw hown

/-! ## The result -/

/-- What an occurrence left of the slot of its conversation, once some runs had ended and some had
stopped. -/
structure LastStop (o : Occurrence) (w v : World) (ended : List Conclusion) (stops : List Pause) :
    Prop where
  /-- These are the runs that ended meanwhile, one after another, with what their steps came to, -/
  conclusions : v.conclusions = w.conclusions ++ ended
  /-- and these are the stops that were put on record: -/
  pauses : v.pauses = w.pauses ++ stops
  /-- those of the runs that ended suspended, in the same order. -/
  suspended : stops.map Pause.runId = suspendedRuns ended
  /-- Each of them stopped in the conversation, at a condition that did not hold. -/
  unmet : ∀ p ∈ stops, p.conversationId = o.conversationId ∧ p.condition.holds p.facts = .ok false
  /-- If nobody deletes runs, automations or steps meanwhile, each run that ended was opened
  meanwhile, and each that stopped waits at the step of the top level in which its condition lies,
  with that condition last in its trace. -/
  runs : w.Undisturbed w.store.steps → ∃ opened, v.store.openings = w.store.openings ++ opened
    ∧ (∀ x ∈ ended, ∃ q ∈ opened, q.id = x.runId)
    ∧ ∀ p ∈ stops, p.IsOf opened ∧ p.WaitsIn w.store v.store
  /-- As long as the conversation is there, its slot holds the suspension of the last run that ended
  suspended, -/
  last : (v.store.find? Conversation o.conversationId).isSome →
    ∀ id, (suspendedRuns ended).getLast? = some id →
      ∃ p, stops.getLast? = some p ∧ p.runId = id
        ∧ v.store.slot? o.conversationId = some (.object p.suspension.record)
  /-- or if none did, nothing if the conversation was looked at, and else what it held. -/
  otherwise : (v.store.find? Conversation o.conversationId).isSome → suspendedRuns ended = [] →
    v.store.slot? o.conversationId =
      if o.looks then none else w.store.slot? o.conversationId

/-- Between two worlds the stops account for the slot, if it held something at first. -/
theorem lastStop_of_slot {o : Occurrence} {w v : World} {before : Option Value}
    {ended : List Conclusion} {stops : List Pause}
    (conclusions : v.conclusions = w.conclusions ++ ended)
    (pauses : v.pauses = w.pauses ++ stops)
    (suspended : stops.map Pause.runId = suspendedRuns ended)
    (unmet : ∀ p ∈ stops,
      p.conversationId = o.conversationId ∧ p.condition.holds p.facts = .ok false)
    (accounts : Accounted w.store (fun _ => False) w v)
    (slot : (v.store.find? Conversation o.conversationId).isSome →
      v.store.slot? o.conversationId = slotAfter stops before)
    (looks : before = if o.looks then none else w.store.slot? o.conversationId) :
    LastStop o w v ended stops where
  conclusions := conclusions
  pauses := pauses
  suspended := suspended
  unmet := unmet
  runs hw := by
    obtain ⟨-, opened, ended', stops', hopened, hended, hstops, hall, hof⟩ := accounts hw nofun
    obtain rfl := List.append_cancel_left (conclusions.symm.trans hended)
    obtain rfl := List.append_cancel_left (pauses.symm.trans hstops)
    exact ⟨opened, hopened, hall, fun p hp => (hof p hp).2.2⟩
  last there id hid := by
    rw [← suspended, List.getLast?_map] at hid
    obtain ⟨p, hp, rfl⟩ := Option.map_eq_some_iff.mp hid
    exact ⟨p, hp, rfl, by rw [slot there, slotAfter, hp]; rfl⟩
  otherwise there hnone := by
    rw [← suspended, List.map_eq_nil_iff] at hnone
    rw [slot there, hnone, looks]
    rfl

/-- **The last run that stopped is the one that is waited for**, among all that something that came
to the engine set off or went on with. -/
theorem last_stop_holds {o : Occurrence} {w v : World}
    (h : (o.handle settings).runOn w = (.ok (), v)) :
    ∃ ended stops, LastStop o w v ended stops := by
  have haccounts : Accounted w.store (fun _ => False) w v :=
    Work.Keeps.of_runOn (keeps_handle o
      (fun event _ => accounted_dispatchWith (.inr rfl) accounted_chained event)
      (accounted_resume _)) h
  obtain ⟨ended, stops, hended, hstops, hsame⟩ := Work.Keeps.of_runOn (balanced_handle o) h
  refine ⟨ended, stops, ?_⟩
  rcases emptied_or_overwritten_handle h with ⟨hlooks, taken, s, htake, stops', hv⟩
    | ⟨hlooks, stops', hv⟩ <;>
    obtain rfl := List.append_cancel_left (hstops.symm.trans hv.pauses)
  · refine lastStop_of_slot hended hstops hsame hv.unmet haccounts
      (fun there => (hv.slot there).2) ?_
    rw [if_pos hlooks]
    exact Slot.slot?_of_take htake
  · refine lastStop_of_slot hended hstops hsame hv.unmet haccounts
      (fun there => (hv.slot there).2) ?_
    rw [if_neg (by simp [hlooks])]

/-! ### A waiting room -/

/-- A conversation in which an intake waits for any message, before it gives the client a tag and
waits again, within a group; another automation waits once the tag is given, and a third one closes
the conversation when a message comes in. -/
def clinic : World :=
  let ready : Record := [("condition_type", .str "has_tag"), ("condition_value", .str "9")]
  let anything : Condition := ⟨"any_message", ""⟩
  let row (id automationId order : Int) (stepId kind : String) (config : Record) : StepRow :=
    { id, automationId, stepId, kind, config := .object config, position := .null, order,
      nextStepId := none, trueStepId := none, falseStepId := none }
  let automation (id : Int) (trigger : String) : Automation :=
    { id, name := trigger, description := none, channelId := none, trigger, triggerConfig := .null,
      isActive := true }
  { store :=
      { tags := [⟨5, "admitted", none⟩]
        clients := [⟨1, none, none, none, none, .null⟩]
        conversations :=
          [{ id := 1, channelId := 1, clientId := some 1, operatorId := none, status := "open",
             metadata := .object
               [(Suspension.slotField, .object (Suspension.record ⟨1, "s1", 7, anything.record⟩))],
             unreadCount := 0, lastMessageAt := none }]
        automations := [automation 1 "new_conversation", automation 2 "tag_added",
          automation 3 "incoming_message"]
        steps := [row 1 1 0 "s1" "condition" anything.record,
          row 2 1 1 "s2" "add_tag" [("tag_id", .int 5)],
          row 3 1 2 "s3" "group" [("steps", .list
            [.object [("type", .str "condition"), ("config", .object ready)]])],
          row 4 2 0 "s1" "condition" ready, row 5 3 0 "s1" "close_conversation" []] } }

/-- The message that the intake waits for. -/
def symptoms : Occurrence :=
  .cameIn
    { conversationId := 1, messageId := 1, clientId := 1, channelId := 1, content := "It hurts.",
      isNewConversation := false, clientHasOtherChannels := false, automationsDisabled := false }

/-- The clinic once the message came in. -/
def admitted : World := ((symptoms.handle {}).runOn clinic).2

/-- At the clinic the run that the tag set off stops first and the intake after it, at its group, so
that the slot holds the suspension of the intake; both end suspended, and the run that closes the
conversation does not. -/
theorem last_stop_holds_clinic :
    (symptoms.handle {}).runOn clinic = (.ok (), admitted)
      ∧ (∃ ended stops, LastStop symptoms clinic admitted ended stops
        ∧ ended.map Conclusion.runId = [2, 1, 3] ∧ suspendedRuns ended = [2, 1]
        ∧ stops.map (fun p => (p.automationId, p.runId, p.stepId)) = [(2, 2, "s1"), (1, 1, "s3")])
      ∧ admitted.store.slot? 1
        = some (.object (Suspension.record ⟨1, "s3", 1, Condition.record ⟨"has_tag", "9"⟩⟩)) := by
  have houtcome : (((symptoms.handle {}).runOn clinic).1,
      admitted.pauses.map fun p => (p.automationId, p.runId, p.stepId), admitted.store.slot? 1)
        = (.ok (), [(2, 2, "s1"), (1, 1, "s3")],
          some (.object (Suspension.record ⟨1, "s3", 1, Condition.record ⟨"has_tag", "9"⟩⟩))) := by
    decide +kernel
  have hended : (admitted.conclusions.map Conclusion.runId, suspendedRuns admitted.conclusions)
      = ([2, 1, 3], [2, 1]) := by decide +kernel
  obtain ⟨hreturns, hrest⟩ := Prod.mk.inj houtcome
  obtain ⟨hstopped, hslot⟩ := Prod.mk.inj hrest
  obtain ⟨hruns, hsuspended⟩ := Prod.mk.inj hended
  have hrun : (symptoms.handle {}).runOn clinic = (.ok (), admitted) := Prod.ext hreturns rfl
  obtain ⟨ended, stops, h⟩ := last_stop_holds hrun
  obtain rfl : admitted.conclusions = ended := h.conclusions
  obtain rfl : admitted.pauses = stops := h.pauses
  exact ⟨hrun, ⟨_, _, h, hruns, hsuspended, hstopped⟩, hslot⟩

end Engine

end Deskflow
