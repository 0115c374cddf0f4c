import Deskflow.Proofs.ResumeGuard

/-!
# What a message sets off

A message that was there already sets nothing off. Before any other one the conversation is looked
at: if its slot yields something, a run goes on from there. Then the message is an event, or two in
a new conversation, unless automations are disabled on the channel or the client of a new
conversation talks to the desk elsewhere. What is told are the runs of all this, in order, and each
part finds the world that the parts before it left behind.

Where the message is no event, there are no runs but the one that goes on and those that come of its
changes of tags: it gets to a step that changes tags, the change is an event, and the event sets
them off (`ChainedFrom`).

All this is `handle_incoming_message`.

* `opensOnly_runBeats_chainedFrom`: where runs come from that are opened along the way of a run.
* `returned_execute`: what an execution is that goes through.
* `looked_resume`: what comes of the slot.
* `attended_fireAll`: which runs an event has.
* `message_sets_off`: the result.
-/

namespace Deskflow

namespace Engine

open Work World

variable {settings : Settings} {event : Event} {c : Int} {w v m : World}

/-! ## Runs that come of changes of tags -/

/-- A beat sets off a run: it changes tags, and the run was set off by the event that this is. -/
def SetsOff (ctx : Context) (b : Beat) (w : World) (o : Opening) : Prop :=
  ∃ kind targets e v, b.change? = some (kind, targets)
    ∧ (retag ctx kind targets).runOn w = (.ok (some e), v) ∧ o.SetOffBy e

/-- A run that goes along beats comes to one that sets off this run. -/
def ChainedFrom (settings : Settings) (ctx : Context) (bs : List Beat) (w : World) (o : Opening) :
    Prop :=
  ∃ b m, ComesTo settings ctx bs w b m ∧ SetsOff ctx b m o

/-- **A beat opens runs that it sets off**, and no others. -/
theorem opensOnly_playBeat (ctx : Context) (b : Beat) (w : World) :
    OpensOnly (SetsOff ctx b w) w
      ((playBeat settings (chained settings) ctx b).runOn w).2 := by
  cases hb : b.change? with
  | none => exact opensOnly_playBeat_of_no_change _ ctx hb w
  | some change =>
    obtain ⟨kind, targets⟩ := change
    rw [playBeat_of_change _ ctx hb, snd_runOn_returning, changeTags_eq_retag]
    have work : Stepwork settings ctx.conversationId Aside := .of_aside settings id
    refine trans_bind (.of_aside (work.retag rfl (isTagEvent_of_change hb) targets w))
      fun e? v he => ?_
    cases e? with
    | none => exact Std.Refl.refl v
    | some e =>
      refine (opensOnly_chained_setOffBy e.kind e.conversationId e.channelId e.tagIds v).mono
        fun o ho => ⟨kind, targets, e, v, hb, he, ?_⟩
      rw [retag_eq_some he] at ho ⊢
      exact ho

/-- **The runs that are opened along the way of a run** come of changes of tags that it makes. -/
theorem opensOnly_runBeats_chainedFrom (ctx : Context) : ∀ (bs : List Beat) (w : World),
    OpensOnly (ChainedFrom settings ctx bs w) w
      ((runBeats settings (chained settings) ctx bs).runOn w).2
  | [], w => Std.Refl.refl w
  | b :: rest, w => by
    have hbegin := opensOnly_begin (P := ChainedFrom settings ctx (b :: rest) w) ctx b.head w
    have hbeat : OpensOnly (ChainedFrom settings ctx (b :: rest) w) w
        ((runBeat settings (chained settings) ctx b).runOn w).2 :=
      trans_bind hbegin fun _ m hnoted =>
        (opensOnly_playBeat ctx b m).mono fun o ho => ⟨b, m, .here hnoted, ho⟩
    refine trans_bind hbeat fun p v hp => ?_
    -- A run that is suspended comes to no later beat.
    cases p with
    | suspended => exact Std.Refl.refl v
    | goesOn =>
      exact (opensOnly_runBeats_chainedFrom ctx rest v).mono fun o ⟨b', m, hcomes, ho⟩ =>
        ⟨b', m, .later hp hcomes, ho⟩

/-! ## Executions that go through -/

/-- A run of a flow is opened in a conversation, which makes the world `m` of `w`; its steps are
carried out, and `v` is the world in the end. -/
structure Carried (settings : Settings) (flow : Flow) (c : Int) (data : Value) (steps : List Step)
    (w m v : World) (id : Int) : Prop where
  opened : ∃ k s, w.store.find? Conversation c = some k
    ∧ (RunLog.openRun w.clock flow.automation.id c k.clientId data).run w.store = .ok (id, s)
    ∧ m = { w with store := s }
  carried : ∃ r u, (runBeats settings (chained settings) ⟨flow.automation.id, id, c⟩
    (beats none steps)).runOn m = (r, u) ∧ v = ((endRun id r).runOn u).2

/-- **An execution that goes through** finds no conversation and does nothing, or carries out a run
and tells it. -/
theorem returned_execute {flow : Flow} {data : Value} {instead : Option (List Step)}
    {out : Option Int}
    (h : (execute settings (chained settings) flow c data instead).runOn w = (.ok out, v)) :
    (out = none ∧ v = w ∧ w.store.find? Conversation c = none) ∨
      ∃ id steps m, out = some id ∧ plan flow instead = .ok steps
        ∧ Carried settings flow c data steps w m v id := by
  have he := executed_execute settings (chained settings) flow c data instead w
  rw [h] at he
  generalize hout : (Except.ok out, v) = o at he
  cases he with
  | refused fault => cases hout
  | missing gone =>
    cases hout
    exact .inl ⟨rfl, rfl, gone⟩
  | unread thread id s fault loaded opened unreadable => cases hout
  | ran thread id s steps r u loaded opened readable played =>
    have hk := (find?_of_loadThread loaded).2
    have hc : thread.conversation.id = c := Store.id_of_find? hk
    rw [hc] at opened played
    have hv := snd_runOn_endRun id r u
    rw [← hout] at hv
    obtain ⟨_, _, -, hreturned⟩ := runOn_bind_eq_ok.mp hout.symm
    cases hreturned
    exact .inr ⟨id, steps, _, rfl, readable, ⟨thread.conversation, s, hk, opened, rfl⟩,
      r, u, played, hv⟩

/-- A run that is carried out opens others only by its changes of tags. -/
theorem Carried.opens {flow : Flow} {data : Value} {steps : List Step} {id : Int}
    (h : Carried settings flow c data steps w m v id) :
    ∃ nested, Opens (flow.opening c data id :: nested) w v
      ∧ ∀ o ∈ nested, ChainedFrom settings ⟨flow.automation.id, id, c⟩ (beats none steps) m o := by
  obtain ⟨k, s, -, hopen, rfl⟩ := h.opened
  obtain ⟨r, u, hplayed, rfl⟩ := h.carried
  have hbeats : OpensOnly (ChainedFrom settings ⟨flow.automation.id, id, c⟩ (beats none steps)
      { w with store := s }) { w with store := s } _ :=
    opensOnly_runBeats_chainedFrom ⟨flow.automation.id, id, c⟩ (beats none steps) _
  rw [hplayed] at hbeats
  obtain ⟨nested, hnested, hchained⟩ := IsTrans.trans _ _ _ hbeats (opensOnly_endRun id r u)
  have hown : Opens [flow.opening c data id] w { w with store := s } := by
    rw [Opens, openings_of_openRun hopen]
    exact .refl _
  exact ⟨nested, hown.trans hnested, hchained⟩

/-! ## What comes of the slot -/

/-- What comes of the slot of a conversation that is looked at: nothing if it yields nothing; or a
run that goes on, and others that come of its changes of tags. -/
inductive Looked (settings : Settings) (c : Int) (w : World) : Option Int → World → Prop
  | nothing (taken? : Option Suspension) (s : Store)
      (emptied : (Slot.take c).run w.store = .ok (taken?, s))
      (unripe : ∀ s t flow remaining, ¬Yields c w s t flow remaining) :
      Looked settings c w none { w with store := s }
  | goesOn (t : Suspension) (s : Store) (flow : Flow) (remaining : List Step) (id : Int)
      (m v : World) (nested : List Opening) (yields : Yields c w s t flow remaining)
      (carried : Carried settings flow c (.object (resumeData t)) remaining { w with store := s }
        m v id)
      (opens : Opens (flow.opening c (.object (resumeData t)) id :: nested) w v)
      (chained : ∀ o ∈ nested,
        ChainedFrom settings ⟨flow.automation.id, id, c⟩ (beats none remaining) m o) :
      Looked settings c w (some id) v

theorem openings_of_take {taken? : Option Suspension} {s : Store}
    (h : (Slot.take c).run w.store = .ok (taken?, s)) : s.openings = w.store.openings := by
  rcases Slot.take_eq_ok h with ⟨-, rfl⟩ | ⟨k, held, fields, -, -, -, -, rfl⟩ <;> rfl

/-- **A run goes on exactly if the slot yields it.** -/
theorem looked_resume {out : Option Int}
    (h : (resume settings c).runOn w = (.ok out, v)) : Looked settings c w out v := by
  have hr := resumed_resume settings c w
  rw [h] at hr
  generalize hout : (Except.ok out, v) = o at hr
  cases hr with
  | untaken fault failed => cases hout
  | stopped t s fault taken => cases hout
  | dropped taken? s taken unripe =>
    cases hout
    exact .nothing taken? s taken unripe
  | went t s flow remaining yields =>
    rcases returned_execute hout.symm with ⟨-, -, hgone⟩ | ⟨id, steps, m, rfl, hplan, hcarried⟩
    · obtain ⟨k, facts, hthere, -⟩ := yields.ripe.holds
      cases hthere.symm.trans hgone
    · obtain rfl := Except.ok.inj hplan
      obtain ⟨nested, hopens, hchained⟩ := hcarried.opens
      refine .goesOn t s flow remaining id m v nested yields hcarried ?_ hchained
      rwa [Opens, openings_of_take yields.taken] at hopens

/-! ## What comes of an event -/

/-- Flows are attended to one after another for an event that is not about tags: each is carried out
in the world that those before it left behind, if the conversation is there. -/
inductive Attended (settings : Settings) (event : Event) :
    World → List Flow → List Int → World → Prop
  | done (w : World) : Attended settings event w [] [] w
  | absent {flow : Flow} {flows : List Flow} {ids : List Int} {w v : World}
      (gone : w.store.find? Conversation event.conversationId = none)
      (rest : Attended settings event w flows ids v) :
      Attended settings event w (flow :: flows) ids v
  | ran {flow : Flow} {flows : List Flow} {steps : List Step} {id : Int} {ids : List Int}
      {w m u v : World} (readable : flow.steps = .ok steps)
      (carried : Carried settings flow event.conversationId (.object event.triggerData) steps w m u
        id)
      (rest : Attended settings event u flows ids v) :
      Attended settings event w (flow :: flows) (id :: ids) v

/-- An event has the flows that are for it when it comes, and these are their runs. -/
def Dispatched (settings : Settings) (event : Event) (w : World) (ids : List Int) (v : World) :
    Prop :=
  ∃ flows, (Flow.matching event).run w.store = .ok (flows, w.store)
    ∧ Attended settings event w flows ids v

theorem attended_fireAll (hkind : event.kind.isTagEvent = false) : ∀ {flows : List Flow} {w : World}
    {ids : List Int}, (fireAll settings (chained settings) event flows).runOn w = (.ok ids, v) →
      Attended settings event w flows ids v
  | [], w, ids, h => by
    cases h
    exact .done _
  | flow :: rest, w, ids, h => by
    obtain ⟨run, m, hfire, h⟩ := runOn_bind_eq_ok.mp h
    obtain ⟨others, u, hrest, h⟩ := runOn_bind_eq_ok.mp h
    cases h
    rw [fire, if_neg (by simp [hkind])] at hfire
    have hattended := attended_fireAll hkind hrest
    rcases returned_execute hfire with ⟨rfl, rfl, hgone⟩ | ⟨id, steps, m', rfl, hplan, hcarried⟩
    · exact .absent hgone hattended
    · exact .ran hplan hcarried hattended

theorem dispatched_dispatch (hkind : event.kind.isTagEvent = false) {ids : List Int}
    (h : (dispatch settings event).runOn w = (.ok ids, v)) : Dispatched settings event w ids v := by
  obtain ⟨flows, m, hmatching, h⟩ := runOn_bind_eq_ok.mp h
  obtain ⟨s, hflows, rfl⟩ := runOn_query_eq_ok.mp hmatching
  obtain rfl := Transaction.reads_matching event w.store flows s hflows
  exact ⟨flows, hflows, attended_fireAll hkind h⟩

/-! ## The result -/

/-- A message sets no automation off: they are disabled on its channel, or it begins a conversation
of a client who talks to the desk elsewhere. -/
def Hushed (r : Receipt) : Prop :=
  r.automationsDisabled = true ∨ r.isNewConversation = true ∧ r.clientHasOtherChannels = true

/-- What a message sets off, with the ids of the runs that are told. -/
inductive TakenIn (settings : Settings) (r : Receipt) (w : World) : List Int → World → Prop
  /-- One that was there already changes nothing. -/
  | again (known : r.duplicate = true) : TakenIn settings r w [] w
  /-- One that is no event may make a run go on. -/
  | hushed {resumed : Option Int} {v : World} (new : r.duplicate = false) (hushed : Hushed r)
      (looked : Looked settings r.conversationId w resumed v) :
      TakenIn settings r w resumed.toList v
  /-- One in a conversation that goes on is an event after that. -/
  | further {resumed : Option Int} {incoming : List Int} {m v : World} (new : r.duplicate = false)
      (heard : ¬Hushed r) (further : r.isNewConversation = false)
      (looked : Looked settings r.conversationId w resumed m)
      (comes : Dispatched settings (eventOf .incomingMessage r) m incoming v) :
      TakenIn settings r w (resumed.toList ++ incoming) v
  /-- One that begins a conversation is two. -/
  | first {resumed : Option Int} {opening incoming : List Int} {m u v : World}
      (new : r.duplicate = false) (heard : ¬Hushed r) (first : r.isNewConversation = true)
      (looked : Looked settings r.conversationId w resumed m)
      (opens : Dispatched settings (eventOf .newConversation r) m opening u)
      (comes : Dispatched settings (eventOf .incomingMessage r) u incoming v) :
      TakenIn settings r w (resumed.toList ++ opening ++ incoming) v

theorem isSilent_iff (r : Receipt) : isSilent r = true ↔ Hushed r := by
  simp [isSilent, Hushed]

/-- **What a message sets off**: first what its conversation waits for, then the automations for a
new conversation and for the message, if they are not hushed. -/
theorem message_sets_off {r : Receipt} {ids : List Int}
    (h : (handleIncoming settings r).runOn w = (.ok ids, v)) : TakenIn settings r w ids v := by
  unfold handleIncoming at h
  split at h
  · rename_i hknown
    cases h
    exact .again hknown
  rename_i hnew
  have hnew : r.duplicate = false := by simpa using hnew
  obtain ⟨resumed, m, hresumed, h⟩ := runOn_bind_eq_ok.mp h
  have hlooked := looked_resume hresumed
  split at h
  · rename_i hsilent
    cases h
    exact .hushed hnew ((isSilent_iff r).mp hsilent) hlooked
  rename_i hheard
  rw [isSilent_iff] at hheard
  split at h
  · rename_i hfirst
    obtain ⟨opening, u, hopening, h⟩ := runOn_bind_eq_ok.mp h
    obtain ⟨incoming, _, hincoming, h⟩ := runOn_bind_eq_ok.mp h
    cases h
    exact .first hnew hheard hfirst hlooked (dispatched_dispatch rfl hopening)
      (dispatched_dispatch rfl hincoming)
  · rename_i hfurther
    obtain ⟨_, _, hnone, h⟩ := runOn_bind_eq_ok.mp h
    cases hnone
    obtain ⟨incoming, _, hincoming, h⟩ := runOn_bind_eq_ok.mp h
    cases h
    rw [List.append_nil]
    exact .further hnew hheard (by simpa using hfurther) hlooked
      (dispatched_dispatch rfl hincoming)

/-! ### A yes at the club -/

/-- The answer at the club comes on a channel where automations are disabled. -/
def agreement : Receipt :=
  { conversationId := 1, messageId := 1, clientId := 1, channelId := 1, content := "Yes!",
    isNewConversation := false, clientHasOtherChannels := false, automationsDisabled := true }

theorem runOn_handleIncoming_agreement :
    (handleIncoming {} agreement).runOn answered
      = (.ok [2], ((resume {} 1).runOn answered).2) := by
  have hresumed : (resume {} agreement.conversationId).runOn answered
      = (.ok (some 2), ((resume {} 1).runOn answered).2) := Prod.ext resume_answered.1 rfl
  unfold handleIncoming
  rw [if_neg (by decide), runOn_bind, hresumed]
  rfl

/-- At the club a run goes on all the same, and its change of tags sets off another one. -/
theorem message_sets_off_agreement :
    TakenIn {} agreement answered [2] ((resume {} 1).runOn answered).2
      ∧ answered.store.runs.length = 1
      ∧ ((resume {} 1).runOn answered).2.store.runs.length = 3 :=
  ⟨message_sets_off runOn_handleIncoming_agreement, resume_answered.2⟩

end Engine

end Deskflow
