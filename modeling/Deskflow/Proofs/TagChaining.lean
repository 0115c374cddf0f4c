import Deskflow.Proofs.TagGuard

/-!
# Chaining stops after one level

A run of an event other than a tag event may set off runs by the changes of tags that it makes; a
run of a tag event sets off none. `Opens` says which runs a world has that an earlier one had not,
as far as nobody deleted them meanwhile.

The changes of tags come to `_on_tags_changed`, which is where chaining stops.

* `opens_execute`: an execution opens its own run, and while it is carried out only what changes of
  tags come to.
* `opens_fireAll_quiet`: where nothing comes of changes of tags, there is at most one run for each
  flow.
* `chains_once`: the result.
-/

namespace Deskflow

/-- A run of a flow as it is opened in a conversation. -/
def Flow.opening (flow : Flow) (c : Int) (data : Value) (id : Int) : Opening :=
  ⟨id, flow.automation.id, c, (data.orElse (.object [])).kept⟩

/-- A run that was set off by an event. -/
def Opening.SetOffBy (e : Event) (o : Opening) : Prop :=
  o.conversationId = e.conversationId ∧ o.triggerData = .object e.triggerData

/-- A run that was set off by a tag event. -/
def Opening.OfTagEvent (o : Opening) : Prop := ∃ e : Event, e.kind.isTagEvent = true ∧ o.SetOffBy e

theorem Event.orElse_triggerData (e : Event) (other : Value) :
    (Value.object e.triggerData).orElse other = .object e.triggerData := by
  simp [Value.orElse, Event.triggerData, Value.isGiven]

/-- The runs that a world has and an earlier one had not are among these, in this order. -/
def World.Opens (opened : List Opening) (w v : World) : Prop :=
  v.store.openings.Sublist (w.store.openings ++ opened)

namespace World

variable {u v w : World} {xs ys : List Opening}

theorem Opens.of_sublist (h : v.store.openings.Sublist w.store.openings) : Opens [] w v := by
  rw [Opens, List.append_nil]
  exact h

theorem Opens.trans (h : Opens xs u v) (k : Opens ys v w) : Opens (xs ++ ys) u w := by
  rw [Opens, ← List.append_assoc]
  exact List.Sublist.trans k (List.Sublist.append_right h ys)

end World

namespace Engine

open Work World

variable {settings : Settings} {onTags : TagHandler} {P : Opening → Prop}

/-! ## What an execution opens -/

/-- All runs that were opened are of a kind. -/
def OpensOnly (P : Opening → Prop) (w v : World) : Prop :=
  ∃ opened, Opens opened w v ∧ ∀ o ∈ opened, P o

instance : Std.Refl (OpensOnly P) := ⟨fun _ => ⟨[], .of_sublist (.refl _), by simp⟩⟩

instance : IsTrans World (OpensOnly P) := ⟨fun _ _ _ ⟨xs, hxs, px⟩ ⟨ys, hys, py⟩ =>
  ⟨xs ++ ys, hxs.trans hys, fun o ho => (List.mem_append.mp ho).elim (px o) (py o)⟩⟩

theorem OpensOnly.of_sublist {w v : World} (h : v.store.openings.Sublist w.store.openings) :
    OpensOnly P w v := ⟨[], .of_sublist h, by simp⟩

theorem OpensOnly.mono {Q : Opening → Prop} {w v : World} (h : OpensOnly P w v)
    (hPQ : ∀ o, P o → Q o) : OpensOnly Q w v := by
  obtain ⟨opened, hopens, hP⟩ := h
  exact ⟨opened, hopens, fun o ho => hPQ o (hP o ho)⟩

theorem OpensOnly.of_aside {w v : World} (h : Aside w v) : OpensOnly P w v :=
  .of_sublist (h.remain.map Run.opening)

theorem OpensOnly.of_memory (w : World) (m : Memory) : OpensOnly P w { w with memory := m } :=
  .of_sublist (.refl _)

/-- A change of a run that leaves alone what was settled when it was opened. -/
theorem OpensOnly.modify_run (w : World) (id : Int) {f : Run → Run}
    (hf : ∀ r, (f r).opening = r.opening) :
    OpensOnly P w { w with store := w.store.modify Run id f } :=
  .of_sublist (Store.openings_modify w.store id hf ▸ .refl _)

theorem opensOnly_begin (ctx : Context) (head : StepHead) :
    Work.Keeps (OpensOnly P) (begin ctx head) :=
  keeps_begin ctx head fun w _ hf => .modify_run w ctx.runId hf

theorem opensOnly_endRun (id : Int) (r : Except Fault Progress) :
    Work.Keeps (OpensOnly P) (endRun id r) :=
  keeps_endRun id r (fun w _ hf => .modify_run w id hf) fun _ _ => .of_sublist (.refl _)

theorem opensOnly_awaitCondition (ctx : Context) (stepId : String) (c : Condition) :
    Work.Keeps (OpensOnly P) (awaitCondition ctx stepId c) := by
  refine keeps_awaitCondition fun w facts s _ hs => ?_
  rcases Slot.save_eq_ok hs with ⟨-, rfl⟩ | ⟨k, fields, -, -, rfl⟩
  · exact .of_sublist (.refl _)
  · exact .of_sublist (.refl _)

/-- While a run is carried out, runs are opened by what comes of its changes of tags only. -/
theorem opensOnly_runBeats (settings : Settings)
    (handled : ∀ kind, kind.isTagEvent = true → ∀ c channel tags,
      Work.Keeps (OpensOnly P) (onTags kind c channel tags)) (ctx : Context) (bs : List Beat) :
    Work.Keeps (OpensOnly P) (runBeats settings onTags ctx bs) :=
  keeps_runBeats (opensOnly_begin ctx)
    (keeps_playBeat (.of_aside settings OpensOnly.of_aside) (opensOnly_awaitCondition ctx)
      fun kind hkind => handled kind hkind ctx.conversationId) bs

/-- A run that is opened comes after all others. -/
theorem openings_of_openRun {now : Moment} {automationId c id : Int} {clientId : Option Int}
    {data : Value} {s s' : Store}
    (h : (RunLog.openRun now automationId c clientId data).run s = .ok (id, s')) :
    s'.openings = s.openings ++ [⟨id, automationId, c, (data.orElse (.object [])).kept⟩] := by
  obtain ⟨rfl, -, rfl⟩ := RunLog.openRun_eq_ok h
  have hruns := Store.rows_insert_nextId s (RunLog.opened now automationId c clientId data 0)
  have hopenings : (s.insert (RunLog.opened now automationId c clientId data
      (s.nextId Run))).openings = _ := congrArg (List.map Run.opening) hruns
  rw [hopenings, List.map_append]
  rfl

theorem opens_openRun {w : World} {flow : Flow} {c id : Int} {data : Value} {thread : Thread}
    {s : Store} (loaded : (query (Thread.load? c)).runOn w = (.ok (some thread), w))
    (opened : (RunLog.openRun w.clock flow.automation.id thread.conversation.id
      thread.conversation.clientId data).run w.store = .ok (id, s)) :
    Opens [Flow.opening flow c data id] w { w with store := s } := by
  obtain rfl : thread.conversation.id = c := Store.id_of_find? (find?_of_loadThread loaded).2
  rw [Opens, openings_of_openRun opened]
  exact .refl _

/-- The run of an execution that ended like this, if it opened one. -/
structure IsOwn (flow : Flow) (c : Int) (data : Value) (out : Except Fault (Option Int))
    (own : List Opening) : Prop where
  automation : (own.map Opening.automationId).Sublist [flow.automation.id]
  origin : ∀ o ∈ own, o.conversationId = c ∧ o.triggerData = (data.orElse (.object [])).kept
  told : ∀ id, out = .ok (some id) → own.map Opening.id = [id]

theorem isOwn_nil {flow : Flow} {c : Int} {data : Value} {out : Except Fault (Option Int)}
    (h : ∀ id, out ≠ .ok (some id)) : IsOwn flow c data out [] where
  automation := List.nil_sublist _
  origin := by simp
  told id hid := absurd hid (h id)

theorem isOwn_singleton {flow : Flow} {c id : Int} {data : Value} {out : Except Fault (Option Int)}
    (h : ∀ i, out = .ok (some i) → i = id) :
    IsOwn flow c data out [Flow.opening flow c data id] where
  automation := .refl _
  origin := by simp [Flow.opening]
  told i hi := by simp [h i hi, Flow.opening]

/-- **An execution opens its own run**, and otherwise what comes of its changes of tags. -/
theorem opens_execute (settings : Settings)
    (handled : ∀ kind, kind.isTagEvent = true → ∀ c channel tags,
      Work.Keeps (OpensOnly P) (onTags kind c channel tags))
    (flow : Flow) (c : Int) (data : Value) (instead : Option (List Step)) (w : World) :
    ∃ own nested, Opens (own ++ nested) w
        ((execute settings onTags flow c data instead).runOn w).2
      ∧ IsOwn flow c data ((execute settings onTags flow c data instead).runOn w).1 own
      ∧ ∀ o ∈ nested, P o := by
  have he := executed_execute settings onTags flow c data instead w
  generalize (execute settings onTags flow c data instead).runOn w = out at he
  cases he with
  | refused fault => exact ⟨[], [], .of_sublist (.refl _), isOwn_nil (by simp), by simp⟩
  | missing => exact ⟨[], [], .of_sublist (.refl _), isOwn_nil (by simp), by simp⟩
  | unread thread id s fault loaded opened unreadable =>
    exact ⟨[Flow.opening flow c data id], [],
      (opens_openRun loaded opened).trans (.of_sublist (.refl _)), isOwn_singleton (by simp),
      by simp⟩
  | ran thread id s steps r v loaded opened readable played =>
    have hplayed := opensOnly_runBeats settings handled
      ⟨flow.automation.id, id, thread.conversation.id⟩ (beats none steps) { w with store := s }
    rw [played] at hplayed
    obtain ⟨nested, hnested, hP⟩ :=
      IsTrans.trans _ _ _ hplayed (opensOnly_endRun (P := P) id r v)
    refine ⟨[Flow.opening flow c data id], nested, ?_, isOwn_singleton fun i hi => ?_, hP⟩
    · rw [snd_runOn_endRun]
      exact (opens_openRun loaded opened).trans hnested
    · rw [runOn_bind] at hi
      rcases he : (endRun id r).runOn v with ⟨fault | _, u⟩ <;> rw [he] at hi
      · cases hi
      · cases hi
        rfl

theorem opens_execute_quiet (settings : Settings) (flow : Flow) (c : Int) (data : Value)
    (instead : Option (List Step)) (w : World) :
    ∃ own, Opens own w ((execute settings quiet flow c data instead).runOn w).2
      ∧ IsOwn flow c data ((execute settings quiet flow c data instead).runOn w).1 own := by
  obtain ⟨own, nested, hopens, hown, hnone⟩ := opens_execute (P := fun _ => False) settings
    (fun kind _ => keeps_quiet kind) flow c data instead w
  obtain rfl : nested = [] := List.eq_nil_iff_forall_not_mem.mpr hnone
  exact ⟨own, by simpa using hopens, hown⟩

/-! ## What an event opens -/

/-- What an execution for an event opens of its own was set off by the event. -/
theorem IsOwn.setOffBy {flow : Flow} {event : Event} {out : Except Fault (Option Int)}
    {own : List Opening}
    (h : IsOwn flow event.conversationId (.object event.triggerData) out own) :
    ∀ o ∈ own, o.SetOffBy event := by
  intro o ho
  obtain ⟨hc, hdata⟩ := h.origin o ho
  rw [Event.orElse_triggerData] at hdata
  exact ⟨hc, hdata⟩

/-- Where nothing comes of changes of tags, an event opens one run of a flow at most. -/
theorem opens_fire_quiet (settings : Settings) (event : Event) (flow : Flow) (w : World) :
    ∃ own, Opens own w ((fire settings quiet event flow).runOn w).2
      ∧ (own.map Opening.automationId).Sublist [flow.automation.id]
      ∧ ∀ o ∈ own, o.SetOffBy event := by
  have executes : ∀ v : World, v.store = w.store → ∃ own, Opens own w
      ((execute settings quiet flow event.conversationId (.object event.triggerData) none).runOn
        v).2
      ∧ (own.map Opening.automationId).Sublist [flow.automation.id]
      ∧ ∀ o ∈ own, o.SetOffBy event := by
    intro v hv
    obtain ⟨own, hopens, hown⟩ := opens_execute_quiet settings flow
      event.conversationId (.object event.triggerData) none v
    exact ⟨own, by rwa [Opens, hv] at hopens, hown.automation, hown.setOffBy⟩
  unfold fire
  dsimp only
  split
  · obtain ⟨fired, firings, hfired⟩ := runOn_recentlyFired settings flow.automation.id event w
    rw [runOn_bind, hfired]
    cases fired with
    | true => exact ⟨[], .of_sublist (.refl _), List.nil_sublist _, by simp⟩
    | false => exact executes _ rfl
  · exact executes w rfl

/-- **Where nothing comes of changes of tags, an event opens one run of each flow at most.** -/
theorem opens_fireAll_quiet (settings : Settings) (event : Event) (flows : List Flow) (w : World) :
    ∃ opened, Opens opened w ((fireAll settings quiet event flows).runOn w).2
      ∧ (opened.map Opening.automationId).Sublist (flows.map fun flow => flow.automation.id)
      ∧ ∀ o ∈ opened, o.SetOffBy event := by
  induction flows generalizing w with
  | nil => exact ⟨[], .of_sublist (.refl _), .refl _, by simp⟩
  | cons flow rest ih =>
    obtain ⟨own, hown, hid, hoff⟩ := opens_fire_quiet settings event flow w
    rw [fireAll, runOn_bind]
    rcases hf : (fire settings quiet event flow).runOn w with ⟨fault | id?, v⟩ <;> rw [hf] at hown
    · exact ⟨own, hown, hid.trans (by simp), hoff⟩
    · obtain ⟨opened, hopened, hids, hoffs⟩ := ih v
      refine ⟨own ++ opened, ?_, ?_, fun o ho => (List.mem_append.mp ho).elim (hoff o) (hoffs o)⟩
      · refine hown.trans ?_
        dsimp only
        rw [runOn_bind]
        rcases hr : (fireAll settings quiet event rest).runOn v with ⟨fault | ids, u⟩ <;>
          rw [hr] at hopened <;> exact hopened
      · rw [List.map_append, List.map_cons]
        exact hid.append hids

/-- Changes of tags open runs that are set off by the event that they are, -/
theorem opensOnly_chained_setOffBy (kind : EventKind) (c channel : Int) (tags : List Int) :
    Work.Keeps (OpensOnly (Opening.SetOffBy
        { kind, conversationId := c, channelId := channel, tagIds := tags }))
      (chained settings kind c channel tags) := by
  refine Work.Keeps.bind Work.Keeps.get fun w => ?_
  split
  · exact Work.Keeps.pure _
  · refine Work.Keeps.returning ?_
    refine keeps_dispatchWith (fun w m _ => OpensOnly.of_memory w m) fun flow v => ?_
    obtain ⟨own, hopens, hown⟩ := opens_execute_quiet settings flow _ _ none v
    exact ⟨own, hopens, hown.setOffBy⟩

/-- and so of tag events only. -/
theorem opensOnly_chained {kind : EventKind} (hkind : kind.isTagEvent = true) (c channel : Int)
    (tags : List Int) :
    Work.Keeps (OpensOnly Opening.OfTagEvent) (chained settings kind c channel tags) :=
  (opensOnly_chained_setOffBy kind c channel tags).mono fun h => h.mono fun _ ho => ⟨_, hkind, ho⟩

/-! ## The result -/

/-- Chaining stops after one level. -/
structure ChainsOnce (settings : Settings) : Prop where
  /-- What is done about changes of tags is what the recursion makes of them, -/
  solves : ∀ kind : EventKind, kind.isTagEvent = true →
    reentrant settings (chained settings) kind = chained settings kind
  /-- which never gets to its third level, whatever lies there, when steps are carried out -/
  executes : ∀ (onTags : TagHandler) (flow : Flow) (c : Int) (data : Value)
      (instead : Option (List Step)),
    execute settings (reentrant settings (reentrant settings onTags)) flow c data instead
      = execute settings (chained settings) flow c data instead
  /-- or an event is dispatched, -/
  dispatches : ∀ (onTags : TagHandler) (event : Event),
    dispatchWith settings (reentrant settings (reentrant settings onTags)) event
      = dispatch settings event
  /-- and not even to its second if that is a tag event. -/
  tagEvents : ∀ (onTags : TagHandler) (event : Event), event.kind.isTagEvent = true →
    dispatchWith settings (reentrant settings onTags) event = dispatch settings event
  /-- While a run is carried out, runs of tag events are opened and no others, -/
  meanwhile : ∀ (flow : Flow) (c : Int) (data : Value) (instead : Option (List Step)) (w : World),
    ∃ own nested, Opens (own ++ nested) w
        ((execute settings (chained settings) flow c data instead).runOn w).2
      ∧ IsOwn flow c data ((execute settings (chained settings) flow c data instead).runOn w).1 own
      ∧ ∀ o ∈ nested, o.OfTagEvent
  /-- and none at all if a tag event set it off, which is what the guard says, -/
  alone : ∀ (flow : Flow) (c : Int) (data : Value) (instead : Option (List Step)) (w : World),
    w.memory.tagGuard = true → ∃ own, Opens own w
        ((execute settings (chained settings) flow c data instead).runOn w).2
      ∧ IsOwn flow c data ((execute settings (chained settings) flow c data instead).runOn w).1 own
  /-- so that of a flow that a tag event sets off there is its own run at most, -/
  each : ∀ event : Event, event.kind.isTagEvent = true → ∀ (flow : Flow) (w : World),
    ∃ own, Opens own w ((fire settings (chained settings) event flow).runOn w).2
      ∧ (own.map Opening.automationId).Sublist [flow.automation.id]
      ∧ ∀ o ∈ own, o.SetOffBy event
  /-- and of the event as a whole one run of each of its flows. -/
  single : ∀ event : Event, event.kind.isTagEvent = true → ∀ w : World,
    (∃ fault, (dispatch settings event).runOn w = (.error fault, w)) ∨
      ∃ flows opened, (query (Flow.matching event)).runOn w = (.ok flows, w)
        ∧ Opens opened w ((dispatch settings event).runOn w).2
        ∧ (opened.map Opening.automationId).Sublist (flows.map fun flow => flow.automation.id)
        ∧ ∀ o ∈ opened, o.SetOffBy event
  /-- Every event leaves the guard as it found it, faults or not, -/
  restored : ∀ onTags, IsHandler settings onTags → ∀ (event : Event) (w : World),
    ((dispatchWith settings onTags event).runOn w).2.memory.tagGuard = w.memory.tagGuard
  /-- and so does whatever comes to the engine. -/
  handled : ∀ (o : Occurrence) (w : World),
    ((o.handle settings).runOn w).2.memory.tagGuard = w.memory.tagGuard

/-- **Chaining stops after one level.** -/
theorem chains_once (settings : Settings) : ChainsOnce settings where
  solves kind hkind := by
    funext c channel tags
    exact reentrant_reentrant quiet hkind c channel tags
  executes onTags flow c data instead :=
    eq_of_alike fun _ => alike_execute (agree_reentrant_reentrant onTags) flow c data instead
  dispatches onTags event :=
    eq_of_alike fun _ => alike_dispatchWith (agree_reentrant_reentrant onTags) fun _ =>
      agree_reentrant_reentrant onTags
  tagEvents onTags event hkind := by
    rw [dispatch, ← reentrant_quiet, dispatchWith_reentrant onTags hkind,
      dispatchWith_reentrant quiet hkind]
  meanwhile flow c data instead w :=
    opens_execute settings (fun _ hkind => opensOnly_chained hkind) flow c data instead w
  alone flow c data instead w hguard := by
    have hsame : Alike true (execute settings (reentrant settings quiet) flow c data instead)
        (execute settings quiet flow c data instead) :=
      alike_execute (agree_reentrant_quiet quiet) flow c data instead
    rw [← reentrant_quiet, (hsame w hguard).1]
    exact opens_execute_quiet settings flow c data instead w
  each event hkind flow w := by
    rw [← reentrant_quiet, fire_reentrant quiet hkind]
    exact opens_fire_quiet settings event flow w
  single event hkind w := by
    have hreads := Work.Keeps.reads (R := Eq) (Transaction.reads_matching event) w
    rw [dispatch, ← reentrant_quiet, dispatchWith_reentrant quiet hkind, dispatchWith, runOn_bind]
    rcases hm : (query (Flow.matching event)).runOn w with ⟨fault | flows, v⟩ <;>
      rw [hm] at hreads <;> obtain rfl : w = v := hreads
    · exact .inl ⟨fault, rfl⟩
    · obtain ⟨opened, hopened⟩ := opens_fireAll_quiet settings event flows w
      exact .inr ⟨flows, opened, rfl, hopened⟩
  restored _ honTags event w := guard_dispatchWith honTags event w
  handled o w := guard_handle o w

/-! ### An automation that brings back its own tag -/

/-- A conversation that gives its client a tag as it begins, and two automations about the tag: when
it was given it is taken away and given again, and when it was taken away it is given. -/
def salon : World :=
  let tag : Value := .object [("tag_id", .int 5)]
  let row (id : Int) (kind : String) (config : Value) : StepRow :=
    { id, automationId := id, stepId := "s1", kind, config, position := .null, order := 0,
      nextStepId := none, trueStepId := none, falseStepId := none }
  let member (kind : String) : Value := .object [("type", .str kind), ("config", tag)]
  let automation (id : Int) (trigger : String) : Automation :=
    { id, name := trigger, description := none, channelId := none, trigger, triggerConfig := .null,
      isActive := true }
  { store :=
      { tags := [⟨5, "regular", none⟩]
        clients := [⟨1, none, none, none, none, .null⟩]
        conversations :=
          [{ id := 1, channelId := 1, clientId := some 1, operatorId := none, status := "open",
             metadata := .null, unreadCount := 0, lastMessageAt := none }]
        automations := [automation 1 "new_conversation", automation 2 "tag_added",
          automation 3 "tag_removed"]
        steps := [row 1 "add_tag" tag,
          row 2 "group" (.object [("steps", .list [member "remove_tag", member "add_tag"])]),
          row 3 "add_tag" tag] } }

/-- Settings without a tag window. -/
def windowless : Settings := { tagWindow := 0 }

/-- At the salon one run comes of the tag that is given, and none of what that run does, however
deep the recursion may go. -/
theorem chains_once_salon :
    ((dispatchWith windowless (reentrant windowless (reentrant windowless (chained windowless)))
        { kind := .newConversation, conversationId := 1, channelId := 1 }).runOn
          salon).2.store.openings.map (fun o => (o.id, o.automationId))
      = [(1, 1), (2, 2)] := by
  rw [(chains_once windowless).dispatches]
  decide +kernel

end Engine

end Deskflow
