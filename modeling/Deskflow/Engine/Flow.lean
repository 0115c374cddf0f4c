import Deskflow.Desk.Transaction
import Deskflow.Step.Parse
import Deskflow.Trigger

/-!
# Flows

An automation with its stored steps, as they were when it was loaded, and which flows an event is
for.

Models `TriggerMatcher`: `candidates` and `match`.

* `candidates_sublist`: candidates come in the order of the automations' ids.
* `mem_candidates`: which automations are candidates.
* `stored_of_matching`: an event is for flows that are stored.
-/

namespace Deskflow

/-- An automation with its stored steps. -/
structure Flow where
  automation : Automation
  rows : List StepRow
deriving DecidableEq, Repr

namespace Flow

open Transaction

/-- The flow of an automation in a store. -/
def ofAutomation (s : Store) (a : Automation) : Flow := ⟨a, s.stepsOf a.id⟩

/-- The steps of a flow, in the order in which they run. -/
def steps (f : Flow) : Except Fault (List Step) := Step.parseSteps (f.rows.map StepRow.draft)

/-- The flow of an automation's id (`_load_automation`). -/
def load? (automationId : Int) : Transaction (Option Flow) := do
  let some automation ← load Automation automationId | return none
  need .automationSteps
  return some (ofAutomation (← get) automation)

/-- Whether an automation is active, has a trigger, and is for a channel or for every channel. -/
def isCandidate (trigger : TriggerKind) (channelId : Int) (a : Automation) : Bool :=
  a.isActive && a.trigger == trigger.name
    && (a.channelId == none || a.channelId == some channelId)

/-- The automations in a store that are for a trigger and a channel. -/
def candidatesIn (s : Store) (trigger : TriggerKind) (channelId : Int) : List Automation :=
  s.automations.filter (isCandidate trigger channelId)

/-- The flows that are for a trigger and a channel, by ascending id (`candidates`). -/
def candidates (trigger : TriggerKind) (channelId : Int) : Transaction (List Flow) := do
  need .automations
  fit channelId
  let s ← get
  let found := candidatesIn s trigger channelId
  if !found.isEmpty then need .automationSteps
  return found.map (ofAutomation s)

/-- Whether an automation asks for no more than an event offers: for an incoming message one of its
keywords, for a change of tags its tag. -/
def accepts (event : Event) (trigger : TriggerKind) (a : Automation) : Except Fault Bool :=
  match trigger with
  | .keyword => keywordMatches a.triggerConfig event.messageText
  | .tagAdded => tagMatches a.triggerConfig (.list (event.tagIds.map .int))
  | .tagRemoved => tagMatches a.triggerConfig (.list (event.tagIds.map .int))
  | _ => .ok true

/-- Those of the flows that accept an event. -/
def accepting (event : Event) (trigger : TriggerKind) : List Flow → Except Fault (List Flow)
  | [] => .ok []
  | f :: rest => do
    if ← accepts event trigger f.automation then return f :: (← accepting event trigger rest)
    else accepting event trigger rest

/-- The flows that an event is for by its triggers, in the order of the triggers and then of ids. -/
def matchingAll (event : Event) : List TriggerKind → Transaction (List Flow)
  | [] => return []
  | trigger :: rest => do
    let flows ← candidates trigger event.channelId
    let accepted ← accepting event trigger flows
    return accepted ++ (← matchingAll event rest)

/-- The flows that an event is for (`match`). -/
def matching (event : Event) : Transaction (List Flow) := matchingAll event event.kind.triggers

/-! ## Lemmas -/

theorem mem_candidates {s : Store} {trigger : TriggerKind} {channelId : Int} {a : Automation} :
    a ∈ candidatesIn s trigger channelId
      ↔ a ∈ s.automations ∧ a.isActive = true ∧ a.trigger = trigger.name
        ∧ (a.channelId = none ∨ a.channelId = some channelId) := by
  simp [candidatesIn, isCandidate, and_assoc]

/-- A flow is that of an automation in a store. -/
def Stored (s : Store) (f : Flow) : Prop :=
  f.automation ∈ s.automations ∧ f = ofAutomation s f.automation

theorem stored_of_candidates {trigger : TriggerKind} {channelId : Int} {s s' : Store}
    {flows : List Flow} (h : (candidates trigger channelId).run s = .ok (flows, s')) :
    s' = s ∧ ∀ f ∈ flows, f.Stored s := by
  have stored : ∀ f ∈ (candidatesIn s trigger channelId).map (ofAutomation s), f.Stored s := by
    intro f hf
    obtain ⟨a, ha, rfl⟩ := List.mem_map.mp hf
    exact ⟨(mem_candidates.mp ha).1, rfl⟩
  unfold candidates at h
  obtain ⟨_, s₁, h₁, h⟩ := run_bind_eq_ok.mp h
  obtain ⟨_, s₂, h₂, h⟩ := run_bind_eq_ok.mp h
  obtain rfl := need_eq_ok h₁
  obtain rfl := fit_eq_ok h₂
  obtain ⟨s₃, _, h₃, h⟩ := run_bind_eq_ok.mp h
  cases h₃
  dsimp only at h
  split at h
  · obtain ⟨_, s₄, h₄, h⟩ := run_bind_eq_ok.mp h
    obtain rfl := need_eq_ok h₄
    cases h
    exact ⟨rfl, stored⟩
  · cases h
    exact ⟨rfl, stored⟩

theorem accepting_sublist {event : Event} {trigger : TriggerKind} :
    ∀ {flows accepted : List Flow}, accepting event trigger flows = .ok accepted →
      accepted.Sublist flows
  | [], accepted, h => by
    cases h
    exact List.nil_sublist _
  | f :: rest, accepted, h => by
    unfold accepting at h
    obtain ⟨accepted, -, h⟩ := Fault.bind_eq_ok.mp h
    cases accepted with
    | true =>
      obtain ⟨others, hr, h⟩ := Fault.bind_eq_ok.mp h
      cases h
      exact (accepting_sublist hr).cons_cons f
    | false => exact (accepting_sublist h).cons f

theorem stored_of_matchingAll {event : Event} :
    ∀ {triggers : List TriggerKind} {s s' : Store} {flows : List Flow},
      (matchingAll event triggers).run s = .ok (flows, s') → s' = s ∧ ∀ f ∈ flows, f.Stored s
  | [], s, s', flows, h => by
    cases h
    exact ⟨rfl, by simp⟩
  | trigger :: rest, s, s', flows, h => by
    unfold matchingAll at h
    obtain ⟨found, s₁, h₁, hrest⟩ := run_bind_eq_ok.mp h
    obtain ⟨accepted, s₂, h₂, hrest⟩ := run_bind_eq_ok.mp hrest
    obtain ⟨others, s₃, h₃, hrest⟩ := run_bind_eq_ok.mp hrest
    cases hrest
    obtain ⟨rfl, hfound⟩ := stored_of_candidates h₁
    obtain ⟨haccepted, rfl⟩ := lift_eq_ok h₂
    obtain ⟨rfl, hothers⟩ := stored_of_matchingAll h₃
    refine ⟨rfl, fun f hf => ?_⟩
    rcases List.mem_append.mp hf with hf | hf
    · exact hfound f ((accepting_sublist haccepted).subset hf)
    · exact hothers f hf

/-- An event is for flows that are stored, and finding them changes nothing. -/
theorem stored_of_matching {event : Event} {s s' : Store} {flows : List Flow}
    (h : (matching event).run s = .ok (flows, s')) : s' = s ∧ ∀ f ∈ flows, f.Stored s :=
  stored_of_matchingAll h

theorem candidates_sublist (s : Store) (trigger : TriggerKind) (channelId : Int) :
    (candidatesIn s trigger channelId).Sublist s.automations := List.filter_sublist

end Flow

end Deskflow
