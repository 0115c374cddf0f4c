import Deskflow.Proofs.TagChaining
import Deskflow.Proofs.RunClosing
import Deskflow.Proofs.EventMatching

/-!
# What an event returns

An event is for the automations whose own rows say so, in the order of their ids, those with
keywords first. Each has its turn in the world that the turns before it left behind: it is passed
over if it is about tags and fired for the same change a short time before, and otherwise gets a new
run, which has the data of the event. Whatever the runs do meanwhile, nobody's turn is lost and none
is added.

The turns are taken in `_dispatch`, after `match` has told whose they are.

* `roster_of_matching`: which flows an event finds, and in which order.
* `Recalls`: the runs of a tag event do not change what is remembered of other automations.
* `turns_fireAll`: each flow has its turn.
* `Turns.lasts`: the runs are there in the end, if no script deletes runs.
* `dispatch_returns`: the result.
-/

namespace Deskflow

/-! ## The order of flows -/

/-- A flow comes before another one: by its id, or because it is about keywords and the other one
about every message. -/
def Flow.Precedes (f g : Flow) : Prop :=
  f.automation.trigger = g.automation.trigger ∧ f.automation.id < g.automation.id
    ∨ f.automation.trigger = TriggerKind.keyword.name
      ∧ g.automation.trigger = TriggerKind.incomingMessage.name

/-- The flows of the automations in a store that an event is for, in their order. -/
structure Flow.Roster (event : Event) (s : Store) (flows : List Flow) : Prop where
  found : ∀ f, f ∈ flows ↔ f.Stored s ∧ event.IsFor f.automation
  ordered : flows.Pairwise Flow.Precedes

namespace Flow

variable {event : Event} {s : Store} {t : TriggerKind} {flows : List Flow}

theorem trigger_of_picked {f : Flow} (h : f ∈ picked event s t) :
    f.automation.trigger = t.name := by
  obtain ⟨a, ha, rfl⟩ := List.mem_map.mp (List.mem_of_mem_filter h)
  exact (mem_candidates.mp ha).2.2.1

theorem pairwise_picked (sorted : s.automations.Pairwise fun a b => a.id < b.id) :
    (picked event s t).Pairwise Precedes := by
  have hids : (picked event s t).Pairwise fun f g => f.automation.id < g.automation.id :=
    .filter _ (.map _ (fun _ _ h => h) (sorted.sublist (candidates_sublist s t event.channelId)))
  refine hids.imp_of_mem fun hf hg h => .inl ⟨?_, h⟩
  rw [trigger_of_picked hf, trigger_of_picked hg]

/-- **Which flows an event finds, and in which order.** -/
theorem roster_of_matching (sorted : s.automations.Pairwise fun a b => a.id < b.id) {v : Store}
    (h : (matching event).run s = .ok (flows, v)) : Roster event s flows := by
  refine ⟨mem_matching h, ?_⟩
  obtain ⟨-, rfl, -⟩ := matching_eq_ok h
  cases event.kind with
  | incomingMessage =>
    simp only [EventKind.triggers, List.flatMap_cons, List.flatMap_nil, List.append_nil]
    refine List.pairwise_append.mpr ⟨pairwise_picked sorted, pairwise_picked sorted, ?_⟩
    exact fun f hf g hg => .inr ⟨trigger_of_picked hf, trigger_of_picked hg⟩
  | _ =>
    simp only [EventKind.triggers, List.flatMap_cons, List.flatMap_nil, List.append_nil]
    exact pairwise_picked sorted

/-- No automation is there twice. -/
theorem Roster.nodup (h : Roster event s flows)
    (sorted : s.automations.Pairwise fun a b => a.id < b.id) :
    (flows.map fun f => f.automation.id).Nodup := by
  have hnodup : (s.automations.map Automation.id).Nodup :=
    List.pairwise_map.mpr (sorted.imp fun h => Int.ne_of_lt h)
  refine List.pairwise_map.mpr (h.ordered.imp_of_mem fun hf hg hprecedes heq => ?_)
  have hsame := List.inj_on_of_nodup_map hnodup ((h.found _).mp hf).1.1 ((h.found _).mp hg).1.1 heq
  rcases hprecedes with ⟨-, hlt⟩ | ⟨hkeyword, hincoming⟩
  · exact Int.ne_of_lt hlt heq
  · rw [hsame, hincoming] at hkeyword
    exact absurd hkeyword (by decide)

end Flow

namespace Engine

open Work World

variable {settings : Settings} {event : Event} {k : FiringKey} {w v m : World}

/-! ## What is remembered of firings -/

/-- An automation is passed over at a time in view of firings: the event is about tags, and it fired
for the same change within the tag window. -/
def PassesOver (settings : Settings) (event : Event) (firings : List (FiringKey × Binary64))
    (now : Binary64) (automationId : Int) : Prop :=
  event.kind.isTagEvent = true ∧ 0 < settings.tagWindow
    ∧ ∃ t, (firingKey automationId event, t) ∈ firings
      ∧ Stopwatch.isRecent settings.tagWindow now t = true

/-- From one world to a later one, of the firings under a key nothing is added and only what is out
of date is dropped. -/
structure Recalls (settings : Settings) (k : FiringKey) (w v : World) : Prop where
  later : w.reading.units ≤ v.reading.units
  old : ∀ t, (k, t) ∈ v.memory.firings → (k, t) ∈ w.memory.firings
  held : ∀ t, (k, t) ∈ w.memory.firings →
    (k, t) ∈ v.memory.firings ∨ Stopwatch.isRecent settings.tagWindow v.reading t = false

instance : Std.Refl (Recalls settings k) := ⟨fun _ => ⟨Int.le_refl _, fun _ h => h, fun _ => .inl⟩⟩

instance : IsTrans World (Recalls settings k) := ⟨fun _ v w h g =>
  { later := Int.le_trans h.later g.later
    old := fun t ht => h.old t (g.old t ht)
    held := fun t ht => by
      rcases h.held t ht with hv | hv
      · exact g.held t hv
      · refine .inr (Bool.eq_false_iff.mpr fun hrecent => ?_)
        rw [Stopwatch.isRecent_of_earlier g.later hrecent] at hv
        cases hv }⟩

theorem Recalls.of_eq (hc : w.reading.units ≤ v.reading.units)
    (hm : v.memory.firings = w.memory.firings) : Recalls settings k w v :=
  ⟨hc, fun _ h => hm ▸ h, fun _ h => .inl (hm ▸ h)⟩

/-- What is asked of the firings; of those of an automation that is not due nothing new is
remembered. -/
theorem runOn_recentlyFired_iff (settings : Settings) (automationId : Int) (event : Event)
    (w : World) : ∃ fired firings, (recentlyFired settings automationId event).runOn w
        = (.ok fired, { w with memory := { w.memory with firings } })
      ∧ (fired = true ↔ 0 < settings.tagWindow
        ∧ ∃ t, (firingKey automationId event, t) ∈ w.memory.firings
          ∧ Stopwatch.isRecent settings.tagWindow w.reading t = true)
      ∧ ∀ k, (k = firingKey automationId event → fired = true) →
          Recalls settings k w { w with memory := { w.memory with firings } } := by
  unfold recentlyFired
  split
  · rename_i hclosed
    exact ⟨false, w.memory.firings, rfl, by simp; omega, fun k _ => .of_eq (Int.le_refl _) rfl⟩
  rename_i hopen
  refine ⟨_, _, rfl, ?_, fun k hk => ⟨Int.le_refl _, fun t ht => ?_, fun t ht => ?_⟩⟩
  · simp only [within, List.any_eq_true, List.mem_filter, decide_eq_true_eq]
    constructor
    · rintro ⟨⟨_, t⟩, ⟨hmem, hwithin⟩, rfl⟩
      exact ⟨by omega, t, hmem, hwithin⟩
    · rintro ⟨-, t, hmem, hwithin⟩
      exact ⟨_, ⟨hmem, hwithin⟩, rfl⟩
  · have hmem : (k, t) ∈ within settings.tagWindow w.reading w.memory.firings := by
      dsimp only at ht
      split at ht
      · exact ht
      · rename_i hfired
        rcases List.mem_append.mp ht with ht | ht
        · exact ht
        · cases List.mem_singleton.mp ht
          exact absurd (hk rfl) hfired
    exact List.mem_of_mem_filter hmem
  · by_cases hwithin : Stopwatch.isRecent settings.tagWindow w.reading t = true
    · have hmem : (k, t) ∈ within settings.tagWindow w.reading w.memory.firings :=
        List.mem_filter.mpr ⟨ht, by simpa using hwithin⟩
      refine .inl ?_
      dsimp only
      split
      · exact hmem
      · exact List.mem_append_left _ hmem
    · exact .inr (Bool.eq_false_iff.mpr hwithin)

/-- **The runs of a tag event do not change what is remembered of other automations.** -/
theorem recalls_fire (hkind : event.kind.isTagEvent = true) {flow : Flow}
    (hk : k ≠ firingKey flow.automation.id event) :
    Work.Keeps (Recalls settings k) (fire settings (chained settings) event flow) := by
  have executes : Work.Keeps (Recalls settings k)
      (execute settings quiet flow event.conversationId (.object event.triggerData) none) :=
    keeps_execute (fun _ _ => .of_eq (Int.le_refl _) rfl) (fun _ _ => .of_eq (Int.le_refl _) rfl)
      (.of_aside settings fun h => .of_eq h.later (congrArg Memory.firings h.memory))
      (fun _ _ _ => keeps_awaitCondition fun _ _ _ _ _ => .of_eq (Int.le_refl _) rfl)
      (fun kind => keeps_quiet kind _) flow _ none
  rw [← reentrant_quiet, fire_reentrant quiet hkind]
  unfold fire
  rw [if_pos hkind]
  refine Work.Keeps.bind (fun w => ?_) fun fired => ?_
  · obtain ⟨fired, firings, hfired, -, hrecalls⟩ :=
      runOn_recentlyFired_iff settings flow.automation.id event w
    rw [hfired]
    exact hrecalls k fun h => absurd h hk
  · split
    · exact Work.Keeps.pure _
    · intro w
      have h := executes { w with memory := { w.memory with tagGuard := true } }
      exact ⟨h.later, h.old, h.held⟩

end Engine

/-! ## What is on the log of runs -/

namespace World

/-- The runs of a world are those that a later one begins with, unless a script deletes runs. -/
def Extends (w v : World) : Prop :=
  w.rehearsal.Spares .automationRuns →
    v.rehearsal.Spares .automationRuns ∧ w.store.openings <+: v.store.openings

instance : Std.Refl Extends := ⟨fun _ h => ⟨h, List.prefix_refl _⟩⟩

instance : IsTrans World Extends := ⟨fun _ _ _ h k hs =>
  have ⟨hv, hpre⟩ := h hs
  ⟨(k hv).1, hpre.trans (k hv).2⟩⟩

theorem Extends.of_openings {w v : World} (hr : v.rehearsal = w.rehearsal)
    (ho : v.store.openings = w.store.openings) : Extends w v := fun hs =>
  ⟨hr ▸ hs, ho ▸ List.prefix_refl _⟩

theorem Extends.of_aside {w v : World} (h : Aside w v) : Extends w v := by
  intro hs
  have hopenings : v.store.openings = w.store.openings :=
    congrArg (List.map Run.opening) (h.runs hs)
  exact ⟨h.spares _ hs, hopenings ▸ List.prefix_refl _⟩

/-- A run that was opened is still there, as it was opened. -/
theorem Extends.find? {w v : World} (h : Extends w v) (hs : w.rehearsal.Spares .automationRuns)
    {id : Int} {r : Run} (hr : w.store.find? Run id = some r) :
    ∃ r', v.store.find? Run id = some r' ∧ r'.opening = r.opening := by
  have hfind : ∀ s : Store, (s.find? Run id).map Run.opening
      = s.openings.find? fun o => o.id == id := by
    intro s
    unfold Store.openings
    rw [List.find?_map]
    rfl
  obtain ⟨others, hothers⟩ := (h hs).2
  have hsome : (v.store.find? Run id).map Run.opening = some r.opening := by
    rw [hfind, ← hothers, List.find?_append, ← hfind, hr]
    rfl
  exact Option.map_eq_some_iff.mp hsome

theorem Extends.find?_eq_none {w v : World} (h : Extends w v)
    (hs : w.rehearsal.Spares .automationRuns) {id : Int} (hid : v.store.find? Run id = none) :
    w.store.find? Run id = none := by
  cases hr : w.store.find? Run id with
  | none => rfl
  | some r =>
    obtain ⟨r', hr', -⟩ := h.find? hs hr
    rw [hid] at hr'
    cases hr'

end World

namespace Engine

open Work World

variable {settings : Settings} {onTags : TagHandler} {event : Event} {flow : Flow} {w v m : World}

theorem extends_awaitCondition (ctx : Context) (stepId : String) (c : Condition) :
    Work.Keeps Extends (awaitCondition ctx stepId c) := by
  refine keeps_awaitCondition fun w facts s _ hs => ?_
  rcases Slot.save_eq_ok hs with ⟨-, rfl⟩ | ⟨k, fields, -, -, rfl⟩
  · exact .of_openings rfl rfl
  · exact .of_openings rfl rfl

theorem extends_begin (ctx : Context) (head : StepHead) : Work.Keeps Extends (begin ctx head) :=
  keeps_begin ctx head fun w _ hf => .of_openings rfl (w.store.openings_modify ctx.runId hf)

theorem extends_endRun (id : Int) (r : Except Fault Progress) :
    Work.Keeps Extends (endRun id r) :=
  keeps_endRun id r (fun w _ hf => .of_openings rfl (w.store.openings_modify id hf))
    fun _ _ => .of_openings rfl rfl

section

variable (handled : ∀ kind c channel tags, Work.Keeps Extends (onTags kind c channel tags))

include handled

theorem extends_playBeat (ctx : Context) (b : Beat) :
    Work.Keeps Extends (playBeat settings onTags ctx b) :=
  keeps_playBeat (.of_aside settings Extends.of_aside) (extends_awaitCondition ctx)
    (fun kind _ => handled kind _) b

theorem extends_runBeats (ctx : Context) (bs : List Beat) :
    Work.Keeps Extends (runBeats settings onTags ctx bs) :=
  keeps_runBeats (extends_begin ctx) (extends_playBeat handled ctx) bs

theorem extends_execute (flow : Flow) (c : Int) (data : Value) (instead : Option (List Step)) :
    Work.Keeps Extends (execute settings onTags flow c data instead) :=
  keeps_execute_of_opens (.of_aside settings Extends.of_aside) extends_awaitCondition
    (fun w id _ hf => .of_openings rfl (w.store.openings_modify id hf))
    (fun _ _ => .of_openings rfl rfl)
    (fun _ _ _ _ _ _ _ h hs => ⟨hs, openings_of_openRun h ▸ List.prefix_append _ _⟩)
    (fun kind => handled kind c) flow data instead

/-- From the opening of its run on, an execution takes no run off the log. -/
theorem extends_of_opened {c id : Int} {data : Value} {instead : Option (List Step)}
    {thread : Thread} {s : Store}
    (loaded : (query (Thread.load? c)).runOn w = (.ok (some thread), w))
    (opened : (RunLog.openRun w.clock flow.automation.id thread.conversation.id
      thread.conversation.clientId data).run w.store = .ok (id, s)) :
    Extends { w with store := s } ((execute settings onTags flow c data instead).runOn w).2 := by
  cases hplan : plan flow instead with
  | error fault =>
    rw [runOn_execute_of_unread loaded opened hplan]
    exact Std.Refl.refl _
  | ok steps =>
    rw [runOn_execute_of_readable loaded opened hplan rfl, snd_runOn_endRun]
    exact IsTrans.trans _ _ _ (extends_runBeats handled _ (beats none steps) _)
      (extends_endRun id _ _)

end

theorem extends_chained (kind : EventKind) (c channel : Int) (tags : List Int) :
    Work.Keeps Extends (chained settings kind c channel tags) :=
  keeps_chained (fun _ _ => keeps_dispatchWith (fun _ _ _ => .of_openings rfl rfl)
    fun flow => extends_execute keeps_quiet flow _ _ _) kind channel tags

/-- Where a conversation is there, an execution that goes through has opened a run, which it tells
and which stays on the log. -/
theorem opened_of_execute {c : Int} {data : Value} {instead : Option (List Step)}
    {out : Option Int} (there : ∃ k, w.store.find? Conversation c = some k)
    (h : (execute settings (chained settings) flow c data instead).runOn w = (.ok out, v)) :
    ∃ k id s, out = some id ∧ w.store.find? Conversation c = some k
      ∧ (RunLog.openRun w.clock flow.automation.id c k.clientId data).run w.store = .ok (id, s)
      ∧ Extends { w with store := s } v := by
  have he := executed_execute settings (chained settings) flow c data instead w
  rw [h] at he
  generalize hout : (Except.ok out, v) = o at he
  cases he with
  | refused fault => cases hout
  | missing gone =>
    obtain ⟨k, hk⟩ := there
    rw [hk] at gone
    cases gone
  | unread thread id s fault loaded opened unreadable => cases hout
  | ran thread id s steps r m loaded opened readable played =>
    have hk := (find?_of_loadThread loaded).2
    have hid : thread.conversation.id = c := Store.id_of_find? hk
    have hextends : Extends { w with store := s }
        ((execute settings (chained settings) flow c data instead).runOn w).2 :=
      extends_of_opened extends_chained loaded opened
    rw [h] at hextends
    obtain ⟨_, u, -, hout⟩ := runOn_bind_eq_ok.mp hout.symm
    cases hout
    exact ⟨thread.conversation, id, s, rfl, hk, hid ▸ opened, hextends⟩

/-! ## Turns -/

/-- What becomes of a flow at its turn, which takes one world to another: it is passed over in view
of the firings before the event, or a run of it is opened with the data of the event. -/
inductive Turn (settings : Settings) (event : Event) (firings : List (FiringKey × Binary64))
    (flow : Flow) (m m' : World) : Option Int → Prop
  | passedOver (fired : PassesOver settings event firings m.reading flow.automation.id) :
      Turn settings event firings flow m m' none
  | ran (k : Conversation) (id : Int) (s : Store)
      (due : ¬PassesOver settings event firings m.reading flow.automation.id)
      (there : m.store.find? Conversation event.conversationId = some k)
      (opened : (RunLog.openRun m.clock flow.automation.id event.conversationId k.clientId
        (.object event.triggerData)).run m.store = .ok (id, s))
      (stays : Extends { m with store := s } m') : Turn settings event firings flow m m' (some id)

/-- The turns of flows for an event, each in the world that the turns before it left behind. -/
inductive Turns (settings : Settings) (event : Event) (firings : List (FiringKey × Binary64)) :
    World → List Flow → List (Option Int) → World → Prop
  | done (w : World) : Turns settings event firings w [] [] w
  | next {flow : Flow} {flows : List Flow} {id? : Option Int} {ids : List (Option Int)}
      {m m' v : World}
      (fired : (fire settings (chained settings) event flow).runOn m = (.ok id?, m'))
      (turn : Turn settings event firings flow m m' id?)
      (rest : Turns settings event firings m' flows ids v) :
      Turns settings event firings m (flow :: flows) (id? :: ids) v

theorem passesOver_iff (hkind : event.kind.isTagEvent = true) {automationId : Int}
    (h : Recalls settings (firingKey automationId event) w m) :
    PassesOver settings event w.memory.firings m.reading automationId ↔
      0 < settings.tagWindow ∧ ∃ t, (firingKey automationId event, t) ∈ m.memory.firings
        ∧ Stopwatch.isRecent settings.tagWindow m.reading t = true := by
  unfold PassesOver
  constructor
  · rintro ⟨-, hopen, t, hmem, hwithin⟩
    rcases h.held t hmem with hheld | hstale
    · exact ⟨hopen, t, hheld, hwithin⟩
    · rw [hwithin] at hstale
      cases hstale
  · rintro ⟨hopen, t, hmem, hwithin⟩
    exact ⟨hkind, hopen, t, h.old t hmem, hwithin⟩

/-- A flow that is fired has its turn. -/
theorem turn_of_fire {m' : World} {id? : Option Int}
    (there : ∃ k, m.store.find? Conversation event.conversationId = some k)
    (recalls : event.kind.isTagEvent = true →
      Recalls settings (firingKey flow.automation.id event) w m)
    (h : (fire settings (chained settings) event flow).runOn m = (.ok id?, m')) :
    Turn settings event w.memory.firings flow m m' id? := by
  unfold fire at h
  dsimp only at h
  split at h
  · rename_i hkind
    obtain ⟨fired, firings, hfired, hiff, -⟩ :=
      runOn_recentlyFired_iff settings flow.automation.id event m
    rw [← passesOver_iff hkind (recalls hkind)] at hiff
    rw [runOn_bind, hfired] at h
    cases fired with
    | true =>
      cases h
      exact .passedOver (hiff.mp rfl)
    | false =>
      let memory : Memory := { m.memory with firings, tagGuard := true }
      have hthere : ∃ k, { m with memory }.store.find? Conversation event.conversationId = some k :=
        there
      simp only [Bool.false_eq_true, if_false, guarded, runOn_ofFunction] at h
      rcases he : (execute settings (chained settings) flow event.conversationId
          (.object event.triggerData) none).runOn { m with memory } with ⟨out, u⟩
      rw [he] at h
      obtain ⟨rfl, rfl⟩ := Prod.mk.inj h
      obtain ⟨k, id, s, rfl, hk, hopened, hstays⟩ := opened_of_execute hthere he
      exact .ran k id s (fun h => Bool.false_ne_true (hiff.mpr h)) hk hopened hstays
  · rename_i hkind
    obtain ⟨k, id, s, rfl, hk, hopened, hstays⟩ := opened_of_execute there h
    exact .ran k id s (fun h => hkind h.1) hk hopened hstays

/-- **Each flow has its turn**, in the order in which they come, and nothing else is told. -/
theorem turns_fireAll : ∀ {flows : List Flow} {m : World} {ids : List Int},
    (∃ k, m.store.find? Conversation event.conversationId = some k) →
    m.rehearsal.Spares .conversations → (flows.map fun f => f.automation.id).Nodup →
    (event.kind.isTagEvent = true → ∀ f ∈ flows,
      Recalls settings (firingKey f.automation.id event) w m) →
    (fireAll settings (chained settings) event flows).runOn m = (.ok ids, v) →
    ∃ outcomes, Turns settings event w.memory.firings m flows outcomes v
      ∧ ids = outcomes.reduceOption
  | [], m, ids, _, _, _, _, h => by
    cases h
    exact ⟨[], .done _, rfl⟩
  | flow :: rest, m, ids, there, spared, nodup, recalls, h => by
    rw [fireAll, runOn_bind] at h
    rcases hf : (fire settings (chained settings) event flow).runOn m with ⟨fault | id?, m'⟩ <;>
      rw [hf] at h
    · cases h
    dsimp only at h
    rw [runOn_bind] at h
    rcases hr : (fireAll settings (chained settings) event rest).runOn m'
      with ⟨fault | others, u⟩ <;> rw [hr] at h
    · cases h
    cases h
    have hturn := turn_of_fire there (fun hk => recalls hk flow List.mem_cons_self) hf
    obtain ⟨hnot, hrest⟩ := List.nodup_cons.mp nodup
    have hplaces : Places m ((fire settings (chained settings) event flow).runOn m).2 :=
      keeps_fire (fun w m _ => unlogged_places.remembers w m)
        (unlogged_places.execute (places_handler (.inr rfl)) flow _ _ _) m
    rw [hf] at hplaces
    obtain ⟨hspared, -, hfound⟩ := hplaces spared
    have hthere : ∃ k, m'.store.find? Conversation event.conversationId = some k := by
      obtain ⟨k, hk⟩ := there
      have h := hfound event.conversationId
      rw [hk] at h
      obtain ⟨k', hk', -⟩ := Option.map_eq_some_iff.mp h
      exact ⟨k', hk'⟩
    have hrecalls : event.kind.isTagEvent = true → ∀ f ∈ rest,
        Recalls settings (firingKey f.automation.id event) w m' := by
      intro hkind f hfrest
      have hne : firingKey f.automation.id event ≠ firingKey flow.automation.id event := by
        intro heq
        refine hnot (List.mem_map.mpr ⟨f, hfrest, ?_⟩)
        exact congrArg FiringKey.automationId heq
      have hfire : Recalls settings (firingKey f.automation.id event) m
          ((fire settings (chained settings) event flow).runOn m).2 := recalls_fire hkind hne m
      rw [hf] at hfire
      exact IsTrans.trans _ _ _ (recalls hkind f (List.mem_cons_of_mem flow hfrest)) hfire
    obtain ⟨outcomes, hturns, rfl⟩ := turns_fireAll hthere hspared hrest hrecalls hr
    refine ⟨id? :: outcomes, .next hf hturn hturns, ?_⟩
    cases id? <;> simp

/-- Where an event is not about tags, every flow has a run. -/
theorem Turns.eq_map_some {firings : List (FiringKey × Binary64)} {flows : List Flow}
    {ids : List (Option Int)} (h : Turns settings event firings m flows ids v)
    (hkind : event.kind.isTagEvent = false) : ids = ids.reduceOption.map some := by
  induction h with
  | done w => rfl
  | next fired turn rest ih =>
    cases turn with
    | passedOver hover => exact absurd hover.1 (by simp [hkind])
    | ran k id s due there opened stays =>
      rw [List.reduceOption_cons_of_some, List.map_cons, ← ih]

/-! ## Runs that last -/

/-- The run of a flow is a new one, and on the log in the end, as it was opened: by the flow's
automation, in the conversation of the event and with its data. -/
def Lasts (event : Event) (w v : World) (flow : Flow) (id? : Option Int) : Prop :=
  ∀ id, id? = some id → w.store.find? Run id = none ∧ ∃ r, v.store.find? Run id = some r
    ∧ r.opening = ⟨id, flow.automation.id, event.conversationId, .object event.triggerData⟩

theorem extends_fire (event : Event) (flow : Flow) :
    Work.Keeps Extends (fire settings (chained settings) event flow) :=
  keeps_fire (fun _ _ _ => .of_openings rfl rfl) (extends_execute extends_chained flow _ _ _)

theorem Turns.extends {firings : List (FiringKey × Binary64)} {flows : List Flow}
    {ids : List (Option Int)} (h : Turns settings event firings m flows ids v) : Extends m v := by
  induction h with
  | done w => exact Std.Refl.refl w
  | @next flow _ _ _ m m' _ fired _ _ ih =>
    have hfire : Extends m ((fire settings (chained settings) event flow).runOn m).2 :=
      extends_fire event flow m
    rw [fired] at hfire
    exact IsTrans.trans _ _ _ hfire ih

theorem Lasts.of_extends {flow : Flow} {id? : Option Int} (h : Lasts event m v flow id?)
    (hw : Extends w m) (hs : w.rehearsal.Spares .automationRuns) : Lasts event w v flow id? :=
  fun id hid => ⟨hw.find?_eq_none hs (h id hid).1, (h id hid).2⟩

/-- A run that was opened at the turn of a flow comes after all that were there, and stays. -/
theorem Turn.lasts {firings : List (FiringKey × Binary64)} {m' : World} {id? : Option Int}
    (h : Turn settings event firings flow m m' id?) (hrest : Extends m' v)
    (hs : m.rehearsal.Spares .automationRuns) :
    Lasts event m v flow id? ∧ ∀ id ∈ id?, (∀ o ∈ m.store.openings, o.id < id)
      ∧ ∃ o ∈ m'.store.openings, o.id = id := by
  cases h with
  | passedOver fired =>
    refine ⟨fun id h => ?_, fun id h => ?_⟩ <;> cases h
  | ran k id s due there opened stays =>
    have hopenings := openings_of_openRun opened
    rw [Event.orElse_triggerData] at hopenings
    obtain ⟨hid, -, hs'⟩ := RunLog.openRun_eq_ok opened
    have hnew : m.store.find? Run id = none := hid ▸ Store.find?_nextId m.store
    have hrow : s.find? Run id = some (RunLog.opened m.clock flow.automation.id
        event.conversationId k.clientId (.object event.triggerData) id) := by
      rw [hs']
      exact Store.find?_insert_self _ _ hnew
    obtain ⟨r, hr, hopening⟩ :=
      (IsTrans.trans _ _ _ stays hrest : Extends { m with store := s } v).find? hs hrow
    refine ⟨fun i hi => ?_, fun i hi => ?_⟩
    · cases hi
      refine ⟨hnew, r, hr, hopening.trans ?_⟩
      simp only [Run.opening, RunLog.opened, Event.orElse_triggerData]
      rfl
    · cases hi
      have hlogged : ⟨id, flow.automation.id, event.conversationId,
          (Value.object event.triggerData).kept⟩ ∈ s.openings := by
        rw [hopenings]
        exact List.mem_append_right _ (List.mem_singleton.mpr rfl)
      refine ⟨fun o ho => ?_, _, (stays hs).2.subset hlogged, rfl⟩
      obtain ⟨r, hr, rfl⟩ := List.mem_map.mp ho
      rw [hid]
      exact Store.id_lt_nextId hr

/-- **Runs last**: each is new and on the log in the end, and their ids ascend. -/
theorem Turns.lasts {firings : List (FiringKey × Binary64)} {flows : List Flow}
    {ids : List (Option Int)} (h : Turns settings event firings m flows ids v)
    (hs : m.rehearsal.Spares .automationRuns) :
    List.Forall₂ (Lasts event m v) flows ids
      ∧ (∀ id ∈ ids.reduceOption, ∀ o ∈ m.store.openings, o.id < id)
      ∧ ids.reduceOption.Pairwise (· < ·) := by
  induction h with
  | done w => exact ⟨.nil, by simp, by simp⟩
  | @next flow flows id? ids m m' v fired turn rest ih =>
    have hfire : Extends m ((fire settings (chained settings) event flow).runOn m).2 :=
      extends_fire event flow m
    rw [fired] at hfire
    obtain ⟨hs', hpre⟩ := hfire hs
    obtain ⟨hlast, habove, hascend⟩ := ih hs'
    obtain ⟨hhead, hown⟩ := turn.lasts rest.extends hs
    refine ⟨.cons hhead (hlast.imp fun _ _ h => h.of_extends hfire hs), ?_⟩
    have hrest : ∀ id ∈ ids.reduceOption, ∀ o ∈ m.store.openings, o.id < id := fun id hid o ho =>
      habove id hid o (hpre.subset ho)
    cases id? with
    | none => simpa using ⟨hrest, hascend⟩
    | some id =>
      obtain ⟨hbelow, o, ho, rfl⟩ := hown id rfl
      rw [List.reduceOption_cons_of_some]
      refine ⟨fun id hid => ?_, List.pairwise_cons.mpr ⟨fun id hid => habove id hid o ho, hascend⟩⟩
      rcases List.mem_cons.mp hid with rfl | hid
      · exact hbelow
      · exact hrest id hid

/-! ## The result -/

/-- What an event comes to that returns ids: each flow of an automation that it is for has its turn,
in order, and the ids are those of the runs that were opened then. -/
structure Returns (settings : Settings) (event : Event) (w v : World) (ids : List Int)
    (flows : List Flow) (outcomes : List (Option Int)) : Prop where
  roster : Flow.Roster event w.store flows
  turns : Turns settings event w.memory.firings w flows outcomes v
  told : ids = outcomes.reduceOption
  /-- Outside of tag events none is passed over. -/
  everyone : event.kind.isTagEvent = false → outcomes = ids.map some
  /-- Unless a script deletes runs, all are on the log in the end, with the data of the event. -/
  lasting : w.rehearsal.Spares .automationRuns →
    List.Forall₂ (Lasts event w v) flows outcomes ∧ ids.Pairwise (· < ·)

/-- **An event returns one new run of each automation that it is for**, whatever the runs do: it is
told by the automation's own row, and for tag events by the firings before. -/
theorem dispatch_returns {ids : List Int}
    (there : ∃ k, w.store.find? Conversation event.conversationId = some k)
    (spared : w.rehearsal.Spares .conversations)
    (sorted : w.store.automations.Pairwise fun a b => a.id < b.id)
    (hrun : (dispatch settings event).runOn w = (.ok ids, v)) :
    ∃ flows outcomes, Returns settings event w v ids flows outcomes := by
  unfold dispatch dispatchWith at hrun
  rw [runOn_bind, query, run_transact] at hrun
  cases hm : (Flow.matching event).run w.store with
  | error fault =>
    simp only [hm] at hrun
    cases hrun
  | ok p =>
    obtain ⟨flows, s⟩ := p
    simp only [hm] at hrun
    obtain ⟨rfl, -⟩ := Flow.matching_eq_ok hm
    have hroster := Flow.roster_of_matching sorted hm
    obtain ⟨outcomes, hturns, rfl⟩ := turns_fireAll there spared (hroster.nodup sorted)
      (fun _ _ _ => Std.Refl.refl w) hrun
    refine ⟨flows, outcomes, hroster, hturns, rfl, fun hkind => ?_, fun hs => ?_⟩
    · exact hturns.eq_map_some hkind
    · obtain ⟨hlast, -, hascend⟩ := hturns.lasts hs
      exact ⟨hlast, hascend⟩

/-! ### A question at a bookshop -/

/-- A conversation with automations for its messages: one that closes it, one about prices that
waits for a second word, and one on another channel. -/
def bookshop : World :=
  let automation (id : Int) (channelId : Option Int) (trigger : String) (config : Value) :
      Automation :=
    { id, name := "answer", description := none, channelId, trigger, triggerConfig := config,
      isActive := true }
  let row (id : Int) (kind : String) (config : Value) : StepRow :=
    { id, automationId := id, stepId := "s1", kind, config, position := .null, order := 0,
      nextStepId := none, trueStepId := none, falseStepId := none }
  { store :=
      { conversations :=
          [{ id := 1, channelId := 1, clientId := none, operatorId := none, status := "open",
             metadata := .null, unreadCount := 0, lastMessageAt := none }]
        automations :=
          [automation 1 (some 1) "incoming_message" .null,
            automation 2 none "keyword" (.object [("keywords", .str "price, cost")]),
            automation 3 (some 2) "incoming_message" .null]
        steps :=
          [row 1 "close_conversation" .null,
            row 2 "condition" (.object [("condition_type", .str "has_tag"),
              ("condition_value", .str "5")]),
            row 3 "close_conversation" .null] } }

/-- A message that asks for the price. -/
def inquiry : Event :=
  { kind := .incomingMessage, conversationId := 1, channelId := 1, messageId := some 1,
    messageText := some "The price?" }

/-- At the bookshop two automations are for the message, and the one that closes the conversation
has its turn though the other one waits. -/
theorem dispatch_returns_bookshop :
    ∃ v flows outcomes, Returns {} inquiry bookshop v [1, 2] flows outcomes
      ∧ v.store.openings.map Opening.automationId = [2, 1] := by
  have hids : ((dispatch {} inquiry).runOn bookshop).1 = .ok [1, 2] := by decide +kernel
  obtain ⟨flows, outcomes, h⟩ := @dispatch_returns {} inquiry bookshop _ _ ⟨_, rfl⟩
    (by simp [Rehearsal.Spares, bookshop]) (by decide) (Prod.ext hids rfl)
  exact ⟨_, flows, outcomes, h, by decide +kernel⟩

end Engine

end Deskflow
