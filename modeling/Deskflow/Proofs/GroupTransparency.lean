import Deskflow.Proofs.LastStop
import Deskflow.Proofs.TwinStores

/-!
# Groups are transparent

A group is carried out as its members are, one after another, however deep groups lie in each other:
the same comes of a forest as of its single steps alone (`Step.leaves`), with the same deliveries,
waits and changes, the same runs set off, the same end and the same fault if there is one. Two
things tell of groups. They are noted in the trace of the run, and a run that stops within one
stops at the step of the top level that it lies in.

Groups are carried out by `execute`, which hands their members to itself.

* `beats_leaves`: the line of the single steps is that of the forest without its groups.
* `transparent_runBeat`: a beat that is no group, with groups around it and without.
* `groups_transparent`: the result.
-/

namespace Deskflow

namespace Step

/-- The single steps of a forest, with no groups around them. -/
def leaves (steps : List Step) : List Step := (singles steps).map fun p => single p.1 p.2

mutual

/-- The heads of the groups in a step, at every depth. -/
def groupsOf : Step → List StepHead
  | single _ _ => []
  | group head _ members => head :: groups members

/-- The heads of the groups in a forest. -/
def groups : List Step → List StepHead
  | [] => []
  | s :: rest => groupsOf s ++ groups rest

end

/-- An entry of a trace that a group in a forest left there. -/
def NotesGroup (steps : List Step) (entry : Value) : Prop :=
  ∃ head ∈ groups steps, ∃ now, entry = RunLog.traceEntry now head.stepId head.kind

end Step

namespace Engine

open Work World

/-! ## The line without groups -/

/-- What is left of a beat where there are no groups: a single step stops, if it has to, at
itself. -/
def Beat.alone? (b : Beat) : Option Beat :=
  b.action.map fun action => ⟨b.head, b.head.stepId, some action⟩

mutual

theorem alone_beatsOf (owner : Option String) :
    (s : Step) → (beatsOf owner s).filterMap Beat.alone?
      = (Step.singlesOf s).map fun p => ⟨p.1, p.1.stepId, some p.2⟩
  | .single _ _ => rfl
  | .group _ _ members => alone_beats _ members

theorem alone_beats (owner : Option String) :
    (steps : List Step) → (beats owner steps).filterMap Beat.alone?
      = (Step.singles steps).map fun p => ⟨p.1, p.1.stepId, some p.2⟩
  | [] => rfl
  | s :: rest => by
    rw [beats, List.filterMap_append, alone_beatsOf owner s, alone_beats owner rest, Step.singles,
      List.map_append]

end

/-- The line of the single steps is that of the forest without its groups. -/
theorem beats_leaves (steps : List Step) :
    beats none (Step.leaves steps) = (beats none steps).filterMap Beat.alone? := by
  rw [alone_beats, Step.leaves]
  induction Step.singles steps with
  | nil => rfl
  | cons p rest ih => rw [List.map_cons, List.map_cons, beats, ih]; rfl

mutual

theorem mem_groupsOf_of_beatsOf {owner : Option String} {b : Beat} (haction : b.action = none) :
    (s : Step) → b ∈ beatsOf owner s → b.head ∈ Step.groupsOf s
  | .single head action, h => by
    obtain rfl := List.mem_singleton.mp h
    cases haction
  | .group head name members, h => by
    rcases List.mem_cons.mp h with rfl | h
    · exact List.mem_cons_self
    · exact List.mem_cons_of_mem head (mem_groups_of_beats haction members h)

/-- What is not carried out is a group. -/
theorem mem_groups_of_beats {owner : Option String} {b : Beat} (haction : b.action = none) :
    (steps : List Step) → b ∈ beats owner steps → b.head ∈ Step.groups steps
  | [], h => by cases h
  | s :: rest, h => by
    rcases List.mem_append.mp h with h | h
    · exact List.mem_append_left _ (mem_groupsOf_of_beatsOf haction s h)
    · exact List.mem_append_right _ (mem_groups_of_beats haction rest h)

end

/-! ## Stopping -/

/-- What a world becomes when a run stops at a step, in a conversation whose metadata have these
fields. -/
def Context.stopped (ctx : Context) (c : Condition) (facts : Facts) (fields : Record)
    (stepId : String) (w : World) : World :=
  { w with
    store := w.store.withMetadata ctx.conversationId
      (fields.put Suspension.slotField (.object (ctx.suspension stepId c).record))
    pauses := w.pauses ++ [ctx.pause stepId c facts] }

/-- Whether a slot can be filled does not depend on what is put into it, -/
theorem fillSlot_uniform (metadata : Value) :
    (∃ fault, ∀ content, Suspension.fillSlot metadata (.ok content) = .error fault)
    ∨ ∃ fields : Record, ∀ content, Suspension.fillSlot metadata (.ok content)
        = .ok (fields.put Suspension.slotField (.object content)) := by
  unfold Suspension.fillSlot
  rcases metadata.toRecord with fault | fields
  · exact .inl ⟨fault, fun _ => rfl⟩
  rcases hfield : (fields.getD Suspension.slotField).field "automation_id" with fault | _
  · refine .inl ⟨fault, fun content => ?_⟩
    simp [hfield, bind, Except.bind]
  · refine .inr ⟨fields, fun content => ?_⟩
    simp [hfield, bind, Except.bind, pure, Except.pure]

/-- and that of a conversation does not depend on a retouch either. -/
theorem save_uniform (ctx : Context) (c : Condition) (s : Store) :
    (∃ fault, ∀ stepId φ,
      (Slot.save ctx.conversationId (ctx.suspension stepId c)).run (s.retouched φ)
        = .error fault)
    ∨ ∃ fields : Record, ∀ stepId φ,
      (Slot.save ctx.conversationId (ctx.suspension stepId c)).run (s.retouched φ)
        = .ok ((), (s.retouched φ).withMetadata ctx.conversationId
            (fields.put Suspension.slotField (.object (ctx.suspension stepId c).record))) := by
  have hsave : ∀ stepId φ,
      (Slot.save ctx.conversationId (ctx.suspension stepId c)).run (s.retouched φ)
        = ((Slot.save ctx.conversationId (ctx.suspension stepId c)).run s).map
            fun p => (p.1, p.2.retouched φ) := fun _ _ => Transaction.unaware_fill _ _ s
  simp only [hsave]
  unfold Slot.save Slot.fill
  simp only [StateT.run_bind]
  rcases hload : (Transaction.load Conversation ctx.conversationId).run s with fault | ⟨found, s'⟩
  · exact .inl ⟨fault, fun _ _ => rfl⟩
  obtain ⟨hfound, rfl, -⟩ := Transaction.run_load_eq_ok hload
  cases found with
  | none =>
    refine .inr ⟨[], fun stepId φ => ?_⟩
    have hnone : (s'.retouched φ).find? Conversation ctx.conversationId = none := hfound.symm
    rw [Store.withMetadata_of_none hnone]
    rfl
  | some k =>
    rcases fillSlot_uniform k.metadata with ⟨fault, hfault⟩ | ⟨fields, hfilled⟩
    · refine .inl ⟨fault, fun stepId φ => ?_⟩
      dsimp only [bind, Except.bind]
      rw [hfault]
      rfl
    · refine .inr ⟨fields, fun stepId φ => ?_⟩
      dsimp only [bind, Except.bind]
      rw [hfilled]
      rfl

/-- Where a run stops at a condition has no part in whether it stops. -/
theorem runOn_stopAt (ctx : Context) (c : Condition) (facts : Facts) (w : World) :
    (∃ fault, ∀ stepId φ,
      (stopAt ctx c facts stepId).runOn { w with store := w.store.retouched φ }
        = (.error fault, { w with store := w.store.retouched φ }))
    ∨ ∃ fields, ∀ stepId φ,
      (stopAt ctx c facts stepId).runOn { w with store := w.store.retouched φ }
        = (.ok .suspended,
            ctx.stopped c facts fields stepId { w with store := w.store.retouched φ }) := by
  unfold stopAt
  simp only [runOn_bind, query, run_transact]
  rcases save_uniform ctx c w.store with ⟨fault, hfault⟩ | ⟨fields, hsaved⟩
  · exact .inl ⟨fault, fun stepId φ => by rw [hfault]⟩
  · exact .inr ⟨fields, fun stepId φ => by rw [hsaved]; rfl⟩

/-! ## Side by side -/

/-- How a run ends with groups around its single steps and without: in the same way, in worlds that
are alike; or suspended by a single step, in worlds that were alike when it stopped. With groups it
stops at the step of the top level that the single step lies in, and else at the single step. -/
inductive Transparent (T : Store → Store → Prop) (ctx : Context) (steps : List Step)
    (guard : Bool) : Except Fault Progress × World → Except Fault Progress × World → Prop
  | ended {r : Except Fault Progress} {w v : World} (unsuspended : r ≠ .ok .suspended)
      (alike : World.Abreast T guard w v) : Transparent T ctx steps guard (r, w) (r, v)
  | stopped {top : Step} {leaf : StepHead} {c : Condition} {facts : Facts} {fields : Record}
      {w v : World} (top_mem : top ∈ steps) (leaf_mem : (leaf, .condition c) ∈ Step.singlesOf top)
      (alike : World.Abreast T guard w v) :
      Transparent T ctx steps guard
        (.ok .suspended, ctx.stopped c facts fields top.head.stepId w)
        (.ok .suspended, ctx.stopped c facts fields leaf.stepId v)

variable {settings : Settings} {onTags : TagHandler} {ctx : Context} {steps : List Step}
  {T : Store → Store → Prop} {guard : Bool}

theorem Transparent.mono {T' : Store → Store → Prop} (h : ∀ {s t}, T s t → T' s t)
    {p q : Except Fault Progress × World} (hpq : Transparent T ctx steps guard p q) :
    Transparent T' ctx steps guard p q := by
  cases hpq with
  | ended unsuspended alike =>
    obtain @⟨t, hguard, hstores⟩ := alike
    exact .ended unsuspended (.of_stores hguard (h hstores))
  | stopped top_mem leaf_mem alike =>
    obtain @⟨t, hguard, hstores⟩ := alike
    exact .stopped top_mem leaf_mem (.of_stores hguard (h hstores))

/-- What comes after operations that are abreast. -/
theorem Transparent.bind {α : Type} {x y : Work α} {f g : α → Work Progress}
    (hx : Work.Abreast T guard x y)
    (hf : ∀ a w v, World.Abreast T guard w v →
      Transparent T ctx steps guard ((f a).runOn w) ((g a).runOn v))
    {w v : World} (h : World.Abreast T guard w v) :
    Transparent T ctx steps guard ((x >>= f).runOn w) ((y >>= g).runOn v) := by
  have hxy := hx w v h
  rw [runOn_bind, runOn_bind]
  generalize x.runOn w = p at hxy
  generalize y.runOn v = q at hxy
  obtain ⟨r, h⟩ := hxy
  cases r with
  | error fault => exact .ended (by simp) h
  | ok a => exact hf a _ _ h

/-- A condition is judged in the same way wherever the run stops then. -/
theorem transparent_awaitCondition [Store.Likeness T] {top : Step} {leaf : StepHead}
    {c : Condition} (htop : top ∈ steps) (hleaf : (leaf, .condition c) ∈ Step.singlesOf top)
    {w v : World} (h : World.Abreast T guard w v) :
    Transparent T ctx steps guard ((awaitCondition ctx top.head.stepId c).runOn w)
      ((awaitCondition ctx leaf.stepId c).runOn v) := by
  rw [awaitCondition_eq, awaitCondition_eq]
  refine .bind (abreast_unmet? c) (fun facts w v h => ?_) h
  cases facts with
  | none => exact .ended (by simp) h
  | some facts =>
    have hw := runOn_stopAt ctx c facts w
    obtain @⟨t, hguard, hstores⟩ := h
    obtain ⟨φ, rfl, -⟩ := Store.Lookalike.retouched hstores
    have alike : World.Abreast T guard w { w with store := w.store.retouched φ } :=
      .of_stores hguard hstores
    rcases hw with ⟨fault, hfault⟩ | ⟨fields, hstopped⟩
    · have hself : (stopAt ctx c facts top.head.stepId).runOn w = (.error fault, w) :=
        hfault _ {}
      rw [hself, hfault]
      exact .ended (by simp) alike
    · have hself : (stopAt ctx c facts top.head.stepId).runOn w
          = (.ok .suspended, ctx.stopped c facts fields top.head.stepId w) :=
        hstopped _ {}
      rw [hself, hstopped]
      exact .stopped htop hleaf alike

/-- **A beat that is no group is carried out in the same way with groups around it and without.** -/
theorem transparent_runBeat [Store.Likeness T] (honTags : IsHandler settings onTags) {b : Beat}
    (hb : b ∈ beats none steps) {action : StepAction} (haction : b.action = some action)
    {w v : World} (h : World.Abreast T guard w v) :
    Transparent T ctx steps guard ((runBeat settings onTags ctx b).runOn w)
      ((runBeat settings onTags ctx ⟨b.head, b.head.stepId, some action⟩).runOn v) := by
  refine .bind (abreast_begin b.head) (fun _ w v h => ?_) h
  by_cases hcond : ∃ c, action = .condition c
  · obtain ⟨c, rfl⟩ := hcond
    obtain ⟨top, htop, howner, hin⟩ := exists_step_of_beats hb
    have hleaf := mem_singlesOf_of_beatsOf haction top hin
    unfold playBeat
    rw [haction, ← howner]
    exact transparent_awaitCondition htop hleaf h
  · have hplay : Work.Abreast T guard (playBeat settings onTags ctx b)
        (playBeat settings onTags ctx ⟨b.head, b.head.stepId, some action⟩) := by
      unfold playBeat
      rw [haction]
      exact abreast_runAction_of_ne (agree_handler honTags) _ _ _ fun c hc => hcond ⟨c, hc⟩
    have hplayed := hplay w v h
    have hgoes : ((playBeat settings onTags ctx b).runOn w).1 ≠ .ok .suspended := by
      intro hsuspended
      obtain ⟨c, -, hcondition, -⟩ := suspended_playBeat (Prod.ext hsuspended rfl)
      exact hcond ⟨c, Option.some.inj (haction.symm.trans hcondition)⟩
    generalize (playBeat settings onTags ctx b).runOn w = p at hplayed hgoes ⊢
    generalize (playBeat settings onTags ctx ⟨b.head, _, _⟩).runOn v = q at hplayed ⊢
    obtain ⟨r, h⟩ := hplayed
    exact .ended hgoes h

/-! ## Along the line -/

/-- Worlds with the same tables. -/
def SameTables (w v : World) : Prop := v.store.absent = w.store.absent

instance : Std.Refl SameTables := ⟨fun _ => rfl⟩

instance : IsTrans World SameTables := ⟨fun _ _ _ h k => k.trans h⟩

theorem unlogged_sameTables : Unlogged SameTables where
  aside h := h.absent
  remembers _ _ := rfl
  runs _ _ := rfl
  slots _ _ _ := rfl
  pauses _ _ := rfl
  concludes _ _ := rfl

theorem sameTables_runBeat (honTags : IsHandler settings onTags) (b : Beat) :
    Work.Keeps SameTables (runBeat settings onTags ctx b) := by
  have handled : ∀ kind channel tags,
      Work.Keeps SameTables (onTags kind ctx.conversationId channel tags) := by
    intro kind channel tags
    rcases honTags with rfl | rfl
    · exact keeps_quiet kind _ channel tags
    · exact unlogged_sameTables.chained kind _ channel tags
  exact Work.Keeps.bind (keeps_begin ctx b.head fun _ _ _ => rfl) fun _ =>
    keeps_playBeat (.of_aside settings unlogged_sameTables.aside)
      (unlogged_sameTables.awaitCondition ctx) (fun kind _ => handled kind) b

/-- A group is noted, and nothing else is done about it. -/
theorem runOn_runBeat_of_group (settings : Settings) (onTags : TagHandler) {b : Beat}
    (hb : b ∈ beats none steps) (haction : b.action = none) {w v : World}
    (h : World.Abreast (Store.Paired ctx.runId (Step.NotesGroup steps)) guard w v)
    (htable : w.store.absent.contains .automationRuns = false)
    (hfits : Transaction.fits ctx.runId = true) :
    ∃ w', (runBeat settings onTags ctx b).runOn w = (.ok .goesOn, w')
      ∧ World.Abreast (Store.Paired ctx.runId (Step.NotesGroup steps)) guard w' v := by
  obtain @⟨t, hguard, hstores⟩ := h
  have hspare : Step.NotesGroup steps (RunLog.traceEntry w.clock b.head.stepId b.head.kind) :=
    ⟨b.head, mem_groups_of_beats haction steps hb, w.clock, rfl⟩
  obtain ⟨s, hs, hpaired⟩ := hstores.noted htable hfits hspare
  refine ⟨{ w with store := s }, ?_, .of_stores hguard hpaired⟩
  rw [runBeat, runOn_bind, begin, run_transact, hs, playBeat, haction]
  rfl

/-- **A line goes the same way with its groups and without**, as long as steps can be noted. -/
theorem transparent_runBeats (honTags : IsHandler settings onTags)
    (hfits : Transaction.fits ctx.runId = true) :
    ∀ (bs : List Beat), bs ⊆ beats none steps → ∀ w v,
      World.Abreast (Store.Paired ctx.runId (Step.NotesGroup steps)) guard w v →
      w.store.absent.contains .automationRuns = false →
      Transparent (Store.Paired ctx.runId (Step.NotesGroup steps)) ctx steps guard
        ((runBeats settings onTags ctx bs).runOn w)
        ((runBeats settings onTags ctx (bs.filterMap Beat.alone?)).runOn v)
  | [], _, _, _, h, _ => .ended (by simp) h
  | b :: rest, hbs, w, v, h, htable => by
    have hb : b ∈ beats none steps := hbs List.mem_cons_self
    have hrest : rest ⊆ beats none steps := fun x hx => hbs (List.mem_cons_of_mem b hx)
    have hkept : SameTables w ((runBeat settings onTags ctx b).runOn w).2 :=
      sameTables_runBeat honTags b w
    cases haction : b.action with
    | none =>
      obtain ⟨w', hw', h'⟩ :=
        runOn_runBeat_of_group settings onTags hb haction h htable hfits
      have halone : b.alone? = none := by
        rw [Beat.alone?, haction]
        rfl
      rw [hw'] at hkept
      rw [List.filterMap_cons_none halone, runBeats, runOn_bind, hw']
      exact transparent_runBeats honTags hfits rest hrest w' v h' (hkept ▸ htable)
    | some action =>
      have hbeat : Transparent _ ctx steps guard ((runBeat settings onTags ctx b).runOn w)
          ((runBeat settings onTags ctx ⟨b.head, b.head.stepId, some action⟩).runOn v) :=
        transparent_runBeat honTags hb haction h
      have halone : b.alone? = some ⟨b.head, b.head.stepId, some action⟩ := by
        rw [Beat.alone?, haction]
        rfl
      rw [List.filterMap_cons_some halone, runBeats, runBeats, runOn_bind, runOn_bind]
      generalize (runBeat settings onTags ctx b).runOn w = p at hbeat hkept
      generalize (runBeat settings onTags ctx ⟨b.head, _, _⟩).runOn v = q at hbeat
      cases hbeat with
      | stopped top_mem leaf_mem alike => exact .stopped top_mem leaf_mem alike
      | @ended r w' v' unsuspended h' =>
        rcases r with fault | _ | _
        · exact .ended unsuspended h'
        · exact transparent_runBeats honTags hfits rest hrest w' v' h' (hkept ▸ htable)
        · exact absurd rfl unsuspended

/-! ## The result -/

/-- Where steps of the run cannot be noted, it gets to none of them. -/
theorem runOn_runBeats_of_not_takesNotes (settings : Settings) (onTags : TagHandler) {w : World}
    (hkeys : (w.store.runs.map Run.id).Nodup) (h : ¬w.store.TakesNotes ctx.runId) :
    ∃ fault, ∀ bs, bs ≠ [] → (runBeats settings onTags ctx bs).runOn w = (.error fault, w) := by
  obtain ⟨fault, hfault⟩ := Store.append_of_not_takesNotes hkeys h
  refine ⟨fault, fun bs hbs => ?_⟩
  obtain ⟨b, rest, rfl⟩ := List.exists_cons_of_ne_nil hbs
  have hbegin : (begin ctx b.head).runOn w = (.error fault, w) := by
    rw [begin, run_transact, hfault]
  rw [runBeats, runBeat, runOn_bind, runOn_bind, hbegin]

/-- A run that was opened can be noted in. -/
theorem takesNotes_of_openRun {now : Moment} {automationId conversationId id : Int}
    {clientId : Option Int} {data : Value} {s s' : Store}
    (h : (RunLog.openRun now automationId conversationId clientId data).run s = .ok (id, s'))
    (hfits : Transaction.fits id = true) : s'.TakesNotes id := by
  obtain ⟨hid, htable, rfl⟩ := RunLog.openRun_eq_ok h
  refine ⟨htable, hfits, fun r hr hrid _ => ?_⟩
  rw [Store.runs_insert hid] at hr
  rcases List.mem_append.mp hr with hr | hr
  · exact absurd (hrid.trans hid) (Int.ne_of_lt (Store.id_lt_nextId (ρ := Run) hr))
  · rw [List.mem_singleton.mp hr]
    exact ⟨[], rfl⟩

/-- **Groups are transparent.** A run goes the same way along a forest as along its single steps
alone: it ends in the same way, with whatever was sent, waited for, changed and set off meanwhile,
and only its trace tells of the groups; or it is suspended by the same single step in the same
state, but at the step of the top level that the single step lies in. What is asked of the log is no
more than a run that was opened grants (`takesNotes_of_openRun`), and only of a forest that has no
single step, whose groups might meet a fault where nothing is left without them. -/
theorem groups_transparent (honTags : IsHandler settings onTags) {w : World}
    (hkeys : (w.store.runs.map Run.id).Nodup)
    (hnotes : Step.singles steps = [] → w.store.TakesNotes ctx.runId) :
    Transparent (Store.Twin ctx.runId (Step.NotesGroup steps)) ctx steps w.memory.tagGuard
      ((runSteps settings onTags ctx none steps).runOn w)
      ((runSteps settings onTags ctx none (Step.leaves steps)).runOn w) := by
  rw [runSteps_eq_runBeats, runSteps_eq_runBeats, beats_leaves]
  by_cases h : w.store.TakesNotes ctx.runId
  · exact .mono (fun h => h.toTwin) (transparent_runBeats honTags h.fits _ (List.Subset.refl _) w w
      (.of_stores rfl (.refl hkeys h.legible)) h.table)
  · obtain ⟨fault, hfault⟩ := runOn_runBeats_of_not_takesNotes settings onTags hkeys h
    have halone : (beats none steps).filterMap Beat.alone? ≠ [] := by
      rw [alone_beats]
      exact fun hnone => h (hnotes (List.map_eq_nil_iff.mp hnone))
    have hbeats : beats none steps ≠ [] := fun hnone => halone (by rw [hnone]; rfl)
    rw [hfault _ hbeats, hfault _ halone]
    exact .ended (by simp) (.of_stores rfl (.refl _))

/-! ### A bakery -/

/-- What the bakery does about a new customer: within a group within a group, the customer gets a
tag and is waited for to get another one; at last the conversation would be closed. -/
def greeting : List Step :=
  [.group { stepId := "s1", kind := "group" } "Greeting"
    [.group { stepId := "s1-s0", kind := "group" } "Tags"
      [.single { stepId := "s1-s0-s0", kind := "add_tag" } (.addTag ⟨[5], none⟩),
       .single { stepId := "s1-s0-s1", kind := "condition" } (.condition ⟨"has_tag", "9"⟩)],
     .single { stepId := "s1-s1", kind := "close_conversation" } .close]]

/-- The bakery, where the run that greets a customer was opened. Another automation closes the
conversation of whoever gets the tag. -/
def bakery : World :=
  { store :=
      { tags := [⟨5, "new", none⟩]
        clients := [⟨1, none, none, none, none, .null⟩]
        conversations :=
          [{ id := 1, channelId := 1, clientId := some 1, operatorId := none, status := "open",
             metadata := .null, unreadCount := 0, lastMessageAt := none }]
        automations :=
          [{ id := 2, name := "Close", description := none, channelId := none,
             trigger := "tag_added", triggerConfig := .null, isActive := true }]
        steps :=
          [{ id := 1, automationId := 2, stepId := "s1", kind := "close_conversation",
             config := .null, position := .null, order := 0, nextStepId := none,
             trueStepId := none, falseStepId := none }]
        runs := [RunLog.opened Moment.start 1 1 (some 1) .null 1] } }

/-- The run that greets a customer. -/
def greets : Context := ⟨1, 1, 1⟩

/-- At the bakery the customer gets the tag and the conversation is closed by the other automation,
with the groups and without, and the greeting waits: with them at its only step, and without them at
the condition. -/
theorem groups_transparent_bakery :
    Transparent (Store.Twin greets.runId (Step.NotesGroup greeting)) greets greeting false
        ((runSteps {} (chained {}) greets none greeting).runOn bakery)
        ((runSteps {} (chained {}) greets none (Step.leaves greeting)).runOn bakery)
      ∧ [greeting, Step.leaves greeting].map (fun steps =>
          let after := ((runSteps {} (chained {}) greets none steps).runOn bakery).2
          (after.store.conversations.map Conversation.status, after.store.runs.map Run.status,
            after.pauses.map Pause.stepId))
        = [(["closed"], ["running", "completed"], ["s1"]),
           (["closed"], ["running", "completed"], ["s1-s0-s1"])] := by
  have hkeys : (bakery.store.runs.map Run.id).Nodup := by decide
  have hsingles : Step.singles greeting ≠ [] := by simp [greeting, Step.singles, Step.singlesOf]
  exact ⟨groups_transparent (.inr rfl) hkeys fun hnone => absurd hnone hsingles, by decide +kernel⟩

end Engine

end Deskflow
