import Deskflow.Proofs.Simulation
import Deskflow.Proofs.ResumeOnce
import Deskflow.Proofs.InboundVisit

/-!
# Redrawing

Those who edit automations may call them by other names, describe them in other words, move their
steps about and point their arrows anywhere, even to steps that there are. `Store.Redrawn` relates
stores that differ in nothing else. Such stores are a likeness, so that events, resumptions and
clicks are abreast in them; over a whole history of these the worlds are told apart by nothing but
their drawings.

* `Store.Redrawn`, `World.Redrawn`: nothing but the drawing is different.
* `abreast_resume`, `abreast_handleIncoming`, `abreast_trigger`: what comes to the engine is abreast
  in every likeness.
* `unaware_record`: a message that comes in is stored without regard to runs and automations.
* `unaware_findButton`, `Click.abreast_handle`: clicks are abreast where stores are redrawn.
* `abreast_playAll`: so are incidents one after another.
* `work_alike`: redrawn worlds work alike.
-/

namespace Deskflow

/-! ## Redrawn stores -/

/-- Stores with the same in every table, but for how automations and their steps are drawn. -/
structure Store.Redrawn (s t : Store) : Prop extends Store.SameFlows s t where
  rest : t = { s with automations := t.automations, steps := t.steps }

namespace Store.Redrawn

variable {s t : Store}

/-- The retouch that draws a store as another one is drawn. -/
def retouch (h : s.Redrawn t) : Retouch where
  automations := Function.update id s.automations t.automations
  steps := Function.update id s.steps t.steps
  automations_bare as := by
    by_cases has : as = s.automations
    · rw [has, Function.update_self, h.automations]
    · rw [Function.update_of_ne has]
      rfl
  steps_bare rows := by
    by_cases hrows : rows = s.steps
    · rw [hrows, Function.update_self, h.steps]
    · rw [Function.update_of_ne hrows]
      rfl

theorem eq_retouched (h : s.Redrawn t) : t = s.retouched h.retouch := by
  have hautomations :
      Function.update id s.automations t.automations s.automations = t.automations :=
    Function.update_self ..
  have hsteps : Function.update id s.steps t.steps s.steps = t.steps := Function.update_self ..
  refine h.rest.trans ?_
  show _ = { s with
    automations := Function.update id s.automations t.automations s.automations
    steps := Function.update id s.steps t.steps s.steps }
  rw [hautomations, hsteps]

theorem of_retouch {φ : Retouch} (hφ : φ.runs = id) (s : Store) : s.Redrawn (s.retouched φ) where
  toSameFlows := s.sameFlows_retouched φ
  rest := by
    unfold Store.retouched
    rw [hφ]
    rfl

/-- A row that is deleted is deleted from both. -/
theorem deleteRow (h : s.Redrawn t) (id : Int) (table : Table) :
    (s.deleteRow id table).Redrawn (t.deleteRow id table) := by
  have hautomations : (t.automations.filter fun a => a.id != id).map Automation.bare
      = (s.automations.filter fun a => a.id != id).map Automation.bare := by
    rw [map_filter_of_comp rfl, map_filter_of_comp rfl, h.automations]
  have hsteps {p : StepRow → Bool} (hp : p ∘ StepRow.bare = p) :
      (t.steps.filter p).map StepRow.bare = (s.steps.filter p).map StepRow.bare := by
    rw [map_filter_of_comp hp, map_filter_of_comp hp, h.steps]
  have hrest : t.deleteRow id table = { s.deleteRow id table with
      automations := (t.deleteRow id table).automations
      steps := (t.deleteRow id table).steps } := by
    rw [h.rest]
    cases table <;> rfl
  cases table with
  | automations => exact ⟨⟨hautomations, hsteps rfl⟩, hrest⟩
  | automationSteps => exact ⟨⟨h.automations, hsteps rfl⟩, hrest⟩
  | _ => exact ⟨⟨h.automations, h.steps⟩, hrest⟩

end Store.Redrawn

/-- What is unaware of a retouch of the drawings does not tell redrawn stores apart. -/
theorem Transaction.Abreast.redrawn {α : Type} {x : Transaction α}
    (hx : ∀ φ [Spared φ Run], x.Unaware φ) : Abreast Store.Redrawn x x := by
  intro s t h
  have hspared : Spared h.retouch Run := Retouch.spares_runs rfl
  rw [h.eq_retouched, hx]
  cases x.run s with
  | error fault => exact .fault fault
  | ok p => exact .value p.1 (.of_retouch rfl p.2)

open Transaction in
instance : Store.Likeness Store.Redrawn where
  retouched h := ⟨h.retouch, h.eq_retouched, fun u _ => .of_retouch rfl u⟩
  deletes id table h := h.deleteRow id table
  opens now a c k data := .redrawn fun _ => unaware_openRun now a c k data
  appends now id stepId kind := .redrawn fun _ => unaware_append now id stepId kind
  finishes now id how := .redrawn fun _ => unaware_finish now id how

/-! ## What comes to the engine -/

namespace Engine

open Work Transaction

variable {settings : Settings} {T : Store → Store → Prop} [Store.Likeness T] {b : Bool}

theorem abreast_dispatch (event : Event) :
    Work.Abreast T b (dispatch settings event) (dispatch settings event) :=
  abreast_dispatchWith agree_chained fun _ => agree_chained

/-- A suspension is looked at in the same way, -/
theorem abreast_resume (c : Int) :
    Work.Abreast T b (resume settings c) (resume settings c) := by
  refine .bind (.unaware (unaware_take c)) fun taken => ?_
  cases taken with
  | none => exact .pure _
  | some t =>
    refine .lookUp_self (unaware_loadFlow _) (fun found => ?_) fun found => ?_
    -- how the flow is drawn has no part in what follows,
    · cases found with
      | none => rfl
      | some flow =>
        have hactive : flow.bare.automation.isActive = flow.automation.isActive := rfl
        simp only [Option.map_some, lift_steps_bare, bind_map_left, hactive]
        split
        · rfl
        refine bind_congr fun thread => ?_
        cases thread with
        | none => rfl
        | some thread =>
          refine bind_congr fun facts => bind_congr fun holds => ?_
          split
          · rfl
          refine bind_congr fun steps => ?_
          rw [stepsAfter?_bare]
          cases stepsAfter? t.stepId steps with
          | none => rfl
          | some remaining =>
            exact execute_bare settings (chained settings) flow c _ (some remaining)
    -- and what follows is abreast
    · cases found with
      | none => exact .pure _
      | some flow =>
        dsimp only
        split
        · exact .pure _
        refine .bind (.unaware (unaware_loadThread c)) fun thread => ?_
        cases thread with
        | none => exact .pure _
        | some thread =>
          refine .bind (abreast_loadFacts c _) fun facts => .bind (.lift _) fun holds => ?_
          split
          · exact .pure _
          refine .bind (.lift _) fun steps => ?_
          cases stepsAfter? t.stepId steps with
          | none => exact .pure _
          | some remaining => exact abreast_execute agree_chained flow c _ (some remaining)

/-- a message sets off the same, -/
theorem abreast_handleIncoming (r : Receipt) :
    Work.Abreast T b (handleIncoming settings r) (handleIncoming settings r) := by
  unfold handleIncoming
  split
  · exact .pure _
  refine .bind (abreast_resume _) fun resumed => ?_
  dsimp only
  split
  · exact .pure _
  have followed (opening : List Int) : Work.Abreast T b
      (dispatch settings (eventOf .incomingMessage r) >>= fun incoming =>
        pure (resumed.toList ++ opening ++ incoming))
      (dispatch settings (eventOf .incomingMessage r) >>= fun incoming =>
        pure (resumed.toList ++ opening ++ incoming)) := .returning (abreast_dispatch _)
  split
  · exact .bind (abreast_dispatch _) followed
  · exact .bind (.pure []) followed

/-- and so does an event in a conversation that is there. -/
theorem abreast_trigger (kind : EventKind) (c : Int) (tags : List Int) :
    Work.Abreast T b (trigger settings kind c tags) (trigger settings kind c tags) := by
  refine .bind (.unaware (unaware_loadThread c)) fun thread => ?_
  cases thread with
  | none => exact .pure _
  | some thread => exact abreast_dispatch _

end Engine

/-! ## Messages that come in -/

section

open Transaction Inbound

variable {φ : Retouch}

theorem unaware_client (m : Inbound) (name : String) : Unaware φ (m.client name) := by
  refine .bind (.lift _) fun userId => .bind (unaware_rows Client) fun clients => ?_
  split
  · dsimp only
    split
    · exact .bind (unaware_edit Client _ _) fun _ => .pure _
    · exact .bind (.pure _) fun _ => .pure _
  · exact .bind (unaware_add _) fun _ => .pure _

theorem unaware_conversation (now : Moment) (m : Inbound) (channelId clientId : Int) :
    Unaware φ (m.conversation now channelId clientId) := by
  refine .bind (unaware_rows Conversation) fun conversations => ?_
  split
  · exact .pure _
  · exact .bind (.lift _) fun _ => .bind (unaware_add _) fun _ => .pure _

theorem unaware_elsewhere (isNewClient : Bool) (channelId clientId : Int) :
    Unaware φ (elsewhere isNewClient channelId clientId) := by
  unfold elsewhere
  split
  · exact .pure _
  · exact .bind (unaware_rows Conversation) fun _ => .pure _

theorem unaware_duplicate? (m : Inbound) (conversationId : Int) :
    Unaware φ (m.duplicate? conversationId) := by
  unfold Inbound.duplicate?
  split
  · exact .pure _
  · exact .bind (.lift _) fun _ => .bind (unaware_rows Message) fun _ =>
      .bind (unaware_fit _) fun _ => .bind (unaware_fit _) fun _ => .pure _

theorem unaware_visit (now : Moment) (m : Inbound) : Unaware φ (m.visit now) := by
  refine .bind (.lift _) fun name => .bind (.lift _) fun channelId => ?_
  refine .bind (unaware_load Channel channelId) fun channel => ?_
  cases channel with
  | none => exact .throw _
  | some channel =>
    exact .bind (unaware_client m name) fun k => .bind (unaware_elsewhere _ _ _) fun _ =>
      .bind (unaware_conversation now m _ _) fun c => .bind (.lift _) fun _ =>
        .bind (unaware_edit Conversation _ _) fun _ => .pure _

theorem unaware_deposit (now : Moment) (m : Inbound) (v : Visit) :
    Unaware φ (m.deposit now v) :=
  .bind (.lift _) fun _ => .bind (.lift _) fun _ => .bind (unaware_add _) fun _ =>
    .bind (unaware_fit _) fun _ => .bind (unaware_edit Conversation _ _) fun _ => .pure _

/-- A message that comes in is stored without regard to runs and automations. -/
theorem unaware_record (now : Moment) (m : Inbound) : Unaware φ (m.record now) := by
  rw [record_eq]
  refine .bind (unaware_visit now m) fun v => .bind (unaware_duplicate? m _) fun found => ?_
  cases found with
  | some message => exact .lift _
  | none => exact .bind (unaware_deposit now m v) fun _ => .lift _

end

/-! ## Clicks -/

namespace Click

open Work Engine Transaction

variable {settings : Settings}

section

variable {φ : Retouch}

theorem unaware_rowsOfSteps : Unaware φ (List.map StepRow.bare <$> rows StepRow) := by
  unfold rows
  rw [map_bind]
  refine .bind (unaware_need _) fun _ => ?_
  simp only [map_bind, map_pure]
  exact .get_bind (fun s => congrArg pure (φ.steps_bare s.steps)) fun _ => .pure _

/-- A button is found without the drawings; which automations ran in the conversation matters. -/
theorem unaware_findButton [Spared φ Run] (data : String) (c : Option Int) :
    Unaware φ (findButton data c) := by
  refine .bind (.lift _) fun ref => ?_
  cases ref with
  | none => exact .pure _
  | some ref =>
    unfold rankedSteps
    dsimp only
    rw [bind_assoc]
    refine .lookUp unaware_rowsOfSteps (fun rows => ?_) fun rows => ?_
    · cases c with
      | none => simp only [pure_bind, buttonOf?_bare]
      | some id => simp only [bind_assoc, pure_bind, ranked_bare, buttonOf?_bare]
    · refine .bind ?_ fun _ => .lift _
      cases c with
      | none => exact .pure _
      | some id => exact .bind (unaware_rows Run) fun _ => .bind (unaware_fit id) fun _ => .pure _

end

variable {T : Store → Store → Prop} [Store.Likeness T] {b : Bool}

theorem abreast_changeTags (kind : EventKind) (thread : Thread) (config : Record) :
    Work.Abreast T b (changeTags kind thread config) (changeTags kind thread config) := by
  unfold changeTags
  split
  · refine .bind (.lift _) fun values => .bind (.unaware (unaware_change _ _ _)) fun changed => ?_
    split
    · exact .pure _
    · exact abreast_addNote _ _
  · exact .pure _

/-- The action of a button is carried out in the same way. -/
theorem abreast_act (thread : Thread) (action : String) (config : Record) :
    Work.Abreast T b (act settings thread action config) (act settings thread action config) := by
  refine .bind (.lift _) fun chat => ?_
  cases chat with
  | none => exact .pure _
  | some chat =>
    dsimp only
    split
    · split
      · exact .pure _
      · exact abreast_send _ _ _ _ _
    · exact abreast_changeTags _ _ _
    · exact abreast_changeTags _ _ _
    · split
      · split
        · exact .pure _
        · exact abreast_send _ _ _ _ _
      · exact .pure _

/-- A click is handled in the same way. -/
theorem abreast_handle {b : Bool} (c : Int) (data : String) :
    Work.Abreast Store.Redrawn b (handle settings c data) (handle settings c data) := by
  have found : Work.Abreast Store.Redrawn b (query (findButton data (some c)))
      (query (findButton data (some c))) :=
        .transact fun _ => .redrawn fun _ => unaware_findButton _ _
  refine .bind found fun button => ?_
  cases button with
  | none => exact .pure _
  | some button =>
    dsimp only
    split
    · exact .pure _
    split
    · exact .pure _
    split
    · exact .pure _
    refine .bind (.unaware (unaware_loadThread c)) fun thread => ?_
    cases thread with
    | none => exact .pure _
    | some thread => exact .returning (abreast_act thread _ _)

end Click

/-! ## Histories -/

/-- Worlds with the same in everything, but for how automations and their steps are drawn. -/
structure World.Redrawn (w v : World) : Prop where
  store : w.store.Redrawn v.store
  rest : v = { w with store := v.store }

namespace Engine

open Work

/-- What can happen at the desk. -/
inductive Incident where
  | occurred (o : Occurrence)
  | clicked (c : Int) (data : String)
  | received (m : Inbound)
  | elapsed (seconds : Value)

/-- What is told of an incident: the ids of its runs, what came of a click, or the time. -/
inductive Incident.Report where
  | runs (ids : List Int)
  | click (r : Click.Result)
  | time (now : Moment)
deriving DecidableEq, Repr

/-- What the engine does about what comes to it; tells the ids of the runs. -/
def Occurrence.runs (settings : Settings) : Occurrence → Work (List Int)
  | .dispatched event => dispatch settings event
  | .triggered kind c tags => trigger settings kind c tags
  | .cameIn r => handleIncoming settings r
  | .lookedAt c => do return (← resume settings c).toList

/-- What the desk does about an incident. -/
def Incident.play (settings : Settings) : Incident → Work Incident.Report
  | .occurred o => do return .runs (← o.runs settings)
  | .clicked c data => do return .click (← Click.handle settings c data)
  | .received m => do
    let r ← transact fun now => m.record now
    return .runs (← handleIncoming settings r)
  | .elapsed seconds => do return .time (← pass seconds)

/-- Incidents one after another; a fault ends the incident in which it comes up. -/
def playAll (settings : Settings) : List Incident → Work (List (Except Fault Incident.Report))
  | [] => return []
  | i :: rest => do
    let report ← attempt (i.play settings)
    return report :: (← playAll settings rest)

variable {settings : Settings} {b : Bool}

theorem abreast_pass (seconds : Value) :
    Work.Abreast Store.Redrawn b (pass seconds) (pass seconds) := by
  refine .bind (.lift _) fun micros => .get_bind fun w v h => ?_
  obtain @⟨t, -, -⟩ := h
  exact .bind (.lift _) fun later =>
    .bind (.of_storeless (fun _ _ => rfl) fun _ => ⟨rfl, rfl⟩) fun _ => .pure later

/-- Redrawn worlds are told apart by no incident. -/
theorem abreast_play (i : Incident) :
    Work.Abreast Store.Redrawn b (i.play settings) (i.play settings) := by
  cases i with
  | occurred o =>
    refine .returning ?_
    cases o with
    | dispatched event => exact abreast_dispatch event
    | triggered kind c tags => exact abreast_trigger kind c tags
    | cameIn r => exact abreast_handleIncoming r
    | lookedAt c => exact .returning (abreast_resume c)
  | clicked c data => exact .returning (Click.abreast_handle c data)
  | received m =>
    exact .bind (.told fun now => unaware_record now m) fun r =>
      .returning (abreast_handleIncoming r)
  | elapsed seconds => exact .returning (abreast_pass seconds)

theorem abreast_playAll (incidents : List Incident) :
    Work.Abreast Store.Redrawn b (playAll settings incidents) (playAll settings incidents) := by
  induction incidents with
  | nil => exact .pure _
  | cons i rest ih => exact .bind (.attempt (abreast_play i)) fun _ => .returning ih

/-- The world once incidents are over. -/
def afterwards (settings : Settings) (incidents : List Incident) (w : World) : World :=
  ((playAll settings incidents).runOn w).2

/-- Incidents come to the same in two worlds: -/
structure WorkAlike (settings : Settings) (incidents : List Incident) (w v : World) : Prop where
  /-- the same is told of each of them, the ids of runs and faults included; -/
  reports : ((playAll settings incidents).runOn v).1 = ((playAll settings incidents).runOn w).1
  /-- the same is delivered and asked of the messaging service, to the same answers, with the same
  waits in between; -/
  deliveries : (afterwards settings incidents v).deliveries
    = (afterwards settings incidents w).deliveries
  requests : (afterwards settings incidents v).requests = (afterwards settings incidents w).requests
  waits : (afterwards settings incidents v).waits = (afterwards settings incidents w).waits
  /-- the log has the same runs with the same traces, -/
  runs : (afterwards settings incidents v).store.runs = (afterwards settings incidents w).store.runs
  /-- the history the same messages, -/
  messages : (afterwards settings incidents v).store.messages
    = (afterwards settings incidents w).store.messages
  /-- clients carry the same tags, -/
  tags : (afterwards settings incidents v).store.tags = (afterwards settings incidents w).store.tags
    ∧ (afterwards settings incidents v).store.memberships
      = (afterwards settings incidents w).store.memberships
  /-- conversations have the same status and the same in their slots; -/
  conversations : (afterwards settings incidents v).store.conversations
    = (afterwards settings incidents w).store.conversations
  /-- and the worlds still differ in nothing but their drawings. -/
  redrawn : (afterwards settings incidents w).Redrawn (afterwards settings incidents v)

/-- **Redrawn worlds work alike**: whatever those who edit automations call them, write about them,
move about and point at, it has no part in what comes of any incidents. -/
theorem work_alike (settings : Settings) {w v : World} (h : w.Redrawn v)
    (incidents : List Incident) : WorkAlike settings incidents w v := by
  have hworlds : World.Abreast Store.Redrawn w.memory.tagGuard w v := by
    rw [h.rest]
    exact .of_stores rfl h.store
  have halike : Work.Abreast Store.Redrawn w.memory.tagGuard (playAll settings incidents)
      (playAll settings incidents) := abreast_playAll incidents
  have hend := halike w v hworlds
  have hboth : ((playAll settings incidents).runOn v).1 = ((playAll settings incidents).runOn w).1
      ∧ (afterwards settings incidents w).Redrawn (afterwards settings incidents v) := by
    unfold afterwards
    generalize (playAll settings incidents).runOn w = p at hend ⊢
    generalize (playAll settings incidents).runOn v = q at hend ⊢
    obtain ⟨r, @⟨t, -, hstores⟩⟩ := hend
    exact ⟨rfl, hstores, rfl⟩
  obtain ⟨hreports, hredrawn⟩ := hboth
  have hrest := hredrawn.rest
  have hstore := hredrawn.store.rest
  exact
    { reports := hreports
      deliveries := (congrArg World.deliveries hrest :)
      requests := (congrArg World.requests hrest :)
      waits := (congrArg World.waits hrest :)
      runs := (congrArg Store.runs hstore :)
      messages := (congrArg Store.messages hstore :)
      tags := ⟨(congrArg Store.tags hstore :), (congrArg Store.memberships hstore :)⟩
      conversations := (congrArg Store.conversations hstore :)
      redrawn := hredrawn }

/-! ### A museum with a guide -/

/-- A museum. Its guide shows a new visitor the way and waits for a visitor who comes back; another
automation greets whoever asks for a tour. -/
def museum : World :=
  let automation (id : Int) (name trigger : String) (config : Value) : Automation :=
    { id, name, description := none, channelId := none, trigger, triggerConfig := config
      isActive := true }
  let step (id : Int) (stepId kind : String) (config : Record) : StepRow :=
    { id, automationId := id, stepId, kind, config := .object config, position := .null, order := 0
      nextStepId := none, trueStepId := none, falseStepId := none }
  let member (kind : String) (config : Record) : Value :=
    .object [("type", .str kind), ("config", .object config)]
  { store :=
      { channels := [⟨1, "Desk", "telegram", .null, .null, true⟩]
        automations :=
          [automation 1 "guide" "new_conversation" .null,
            automation 2 "tour" "keyword" (.object [("keywords", .str "tour")])]
        steps :=
          [step 1 "way" groupKind [("steps", .list [
              member Click.buttonsKind [("text", .str "This way."),
                ("buttons", .list [.object [("text", .str "Map"), ("action", .str "send_text"),
                  ("action_config", .object [("text", .str "Turn left.")])]])],
              member "condition" [("condition_type", .str "is_returning_client")]])],
            step 2 "welcome" "send_text" [("text", .str "A tour!")]] } }

/-- The same, after someone gave the guide another name, moved the first step and pointed its arrows
at the other one. -/
def redrawnMuseum : World :=
  { museum with
    store :=
      { museum.store with
        automations := museum.store.automations.map fun a =>
          if a.id = 1 then { a with name := "hall", description := some "shows the way" } else a
        steps := museum.store.steps.map fun r =>
          if r.id = 1 then
            { r with
              position := .object [("x", .int 3)], nextStepId := some "welcome"
              trueStepId := some "way", falseStepId := some "nowhere" }
          else r } }

/-- Ada comes in, asks for the map, and later for a tour. -/
def tour : List Incident :=
  let letter (content : String) : Inbound :=
    { channelId := .int 1, userId := .int 9, chatId := .int 77, name := .str "Ada", content }
  [.received (letter "Hello"), .clicked 1 "way-s0:0", .elapsed (.int 60), .received (letter "tour"),
    .occurred (.lookedAt 1)]

/-- Ada's way through the museum is the same, however it is drawn. -/
theorem work_alike_museum :
    museum.Redrawn redrawnMuseum
      ∧ redrawnMuseum.store ≠ museum.store
      ∧ (afterwards {} tour redrawnMuseum).deliveries.length = 3
      ∧ WorkAlike {} tour museum redrawnMuseum := by
  have hredrawn : museum.Redrawn redrawnMuseum := ⟨⟨⟨rfl, rfl⟩, rfl⟩, rfl⟩
  have halike := work_alike {} hredrawn tour
  refine ⟨hredrawn, by decide +kernel, ?_, halike⟩
  rw [halike.deliveries]
  decide +kernel

end Engine

end Deskflow
