import Deskflow.Engine.Click
import Deskflow.Proofs.GroupEntries

/-!
# Drawings

What an automation is called and how it is described, where its steps stand and which steps their
arrows point to is drawn for those who edit it. `bare` is a thing without its drawing. The arrows
get as far as the heads of the steps that are carried out; nothing that is done with them depends on
them.

* `Step.parseSteps_bare`, `Flow.steps_bare`: a drawing has no part in which steps are read, and in
  what order.
* `Flow.accepting_bare`: nor in which flows accept an event,
* `Engine.execute_bare`, `Engine.fireAll_bare`: in what is executed,
* `Engine.stepsAfter?_bare`: in what is left of a run that was suspended,
* `Click.buttonOf?_bare`: and in which button was clicked.
-/

namespace Deskflow

/-- An automation without its drawing. -/
def Automation.bare (a : Automation) : Automation := { a with name := "", description := none }

/-- A stored step without its drawing. -/
def StepRow.bare (r : StepRow) : StepRow :=
  { r with position := .null, nextStepId := none, trueStepId := none, falseStepId := none }

/-- A flow without its drawing. -/
def Flow.bare (f : Flow) : Flow := ⟨f.automation.bare, f.rows.map StepRow.bare⟩

/-- A step, as it is stored, without its arrows. -/
def StepDraft.bare (d : StepDraft) : StepDraft :=
  { d with nextStepId := none, trueStepId := none, falseStepId := none }

/-- What is known of a step but for its arrows. -/
def StepHead.bare (h : StepHead) : StepHead :=
  { h with nextStepId := none, trueStepId := none, falseStepId := none }

/-- A step of the top level without its arrows; members of groups have none. -/
def Step.bare : Step → Step
  | .single head action => .single head.bare action
  | .group head name members => .group head.bare name members

/-- What is picked regardless of drawings can be picked with them or without. -/
theorem map_filter_of_comp {α : Type} {f : α → α} {p : α → Bool} (h : p ∘ f = p) (xs : List α) :
    (xs.filter p).map f = (xs.map f).filter p := by
  rw [List.filter_map, h]

/-! ## Reading steps -/

namespace Step

@[simp] theorem head_bare (s : Step) : s.bare.head = s.head.bare := by cases s <;> rfl

theorem parse_bare (d : StepDraft) : parse d.bare = bare <$> parse d := by
  unfold parse
  by_cases h : d.kind = groupKind
  · rw [ofConfig_of_group h, ofConfig_of_group h, Functor.map_map]
    rfl
  · rw [ofConfig_of_single h, ofConfig_of_single h, Functor.map_map]
    rfl

theorem parse_row_bare (row : StepRow) : parse row.bare.draft = bare <$> parse row.draft :=
  parse_bare row.draft

/-- Steps are read in the same order, -/
theorem ordered_bare (drafts : List StepDraft) :
    ordered (drafts.map StepDraft.bare) = (ordered drafts).map StepDraft.bare :=
  (map_sortBy precedes StepDraft.bare (fun _ _ => rfl) drafts).symm

/-- and as the same steps. -/
theorem parseSteps_bare (drafts : List StepDraft) :
    parseSteps (drafts.map StepDraft.bare) = List.map bare <$> parseSteps drafts := by
  unfold parseSteps
  rw [ordered_bare]
  generalize ordered drafts = ds
  induction ds with
  | nil => rfl
  | cons d ds ih =>
    simp only [List.map_cons, List.mapM_cons, parse_bare, ih, bind_map_left, map_bind, map_pure]

end Step

namespace Flow

variable (event : Event) (trigger : TriggerKind)

@[simp] theorem id_bare (f : Flow) : f.bare.automation.id = f.automation.id := rfl

theorem steps_bare (f : Flow) : f.bare.steps = List.map Step.bare <$> f.steps := by
  have hdrafts : f.bare.rows.map StepRow.draft = (f.rows.map StepRow.draft).map StepDraft.bare := by
    show (f.rows.map StepRow.bare).map StepRow.draft = _
    rw [List.map_map, List.map_map]
    rfl
  unfold steps
  rw [hdrafts]
  exact Step.parseSteps_bare _

theorem accepts_bare (a : Automation) : accepts event trigger a.bare = accepts event trigger a := by
  cases trigger <;> rfl

theorem accepting_bare : ∀ flows : List Flow,
    accepting event trigger (flows.map bare) = List.map bare <$> accepting event trigger flows
  | [] => rfl
  | f :: rest => by
    have haccepts : accepts event trigger f.bare.automation = accepts event trigger f.automation :=
      accepts_bare event trigger f.automation
    rw [List.map_cons, accepting, accepting, map_bind, haccepts]
    refine bind_congr fun accepted => ?_
    cases accepted with
    | true =>
      rw [if_pos rfl, if_pos rfl, accepting_bare rest, bind_map_left, map_bind]
      rfl
    | false => exact accepting_bare rest

end Flow

/-! ## Finding flows -/

/-- Stores with the same automations and the same steps, but for how they are drawn. -/
structure Store.SameFlows (s t : Store) : Prop where
  automations : t.automations.map Automation.bare = s.automations.map Automation.bare
  steps : t.steps.map StepRow.bare = s.steps.map StepRow.bare

/-- The flow of an automation in a store without its drawing. -/
def Store.bareFlow (s : Store) (a : Automation) : Flow := ⟨a, (s.stepsOf a.id).map StepRow.bare⟩

namespace Store.SameFlows

variable {s t : Store} (h : s.SameFlows t)

include h

theorem bareFlow : t.bareFlow = s.bareFlow := by
  have hstepsOf (s : Store) (id : Int) : (s.stepsOf id).map StepRow.bare
      = sortBy (fun a b => a.order ≤ b.order)
          ((s.steps.map StepRow.bare).filter fun r => r.automationId == id) := by
    rw [← map_filter_of_comp rfl]
    exact map_sortBy (fun a b : StepRow => a.order ≤ b.order) StepRow.bare (fun _ _ => rfl) _
  funext a
  unfold Store.bareFlow
  rw [hstepsOf, hstepsOf, h.steps]

/-- The same flows are candidates, -/
theorem candidates (trigger : TriggerKind) (channelId : Int) :
    ((Flow.candidatesIn t trigger channelId).map (Flow.ofAutomation t)).map Flow.bare
      = ((Flow.candidatesIn s trigger channelId).map (Flow.ofAutomation s)).map Flow.bare := by
  have hfound (s : Store) :
      ((Flow.candidatesIn s trigger channelId).map (Flow.ofAutomation s)).map Flow.bare
        = ((s.automations.map Automation.bare).filter (Flow.isCandidate trigger channelId)).map
            s.bareFlow := by
    rw [← map_filter_of_comp rfl, List.map_map, List.map_map]
    rfl
  rw [hfound, hfound, h.automations, h.bareFlow]

/-- and the same flow is that of an id. -/
theorem found (id : Int) :
    (t.find? Automation id).map (fun a => (Flow.ofAutomation t a).bare)
      = (s.find? Automation id).map fun a => (Flow.ofAutomation s a).bare := by
  have hfound (s : Store) : (s.find? Automation id).map (fun a => (Flow.ofAutomation s a).bare)
      = ((s.automations.map Automation.bare).find? fun a => a.id == id).map s.bareFlow := by
    rw [List.find?_map, Option.map_map]
    rfl
  rw [hfound, hfound, h.automations, h.bareFlow]

end Store.SameFlows

/-! ## Carrying steps out -/

namespace Engine

open Work

variable (settings : Settings) (onTags : TagHandler)

theorem lift_steps_bare (flow : Flow) :
    (liftM flow.bare.steps : Work (List Step)) = List.map Step.bare <$> liftM flow.steps := by
  rw [Flow.steps_bare]
  cases flow.steps <;> rfl

theorem runStep_bare (ctx : Context) (owner : Option String) (s : Step) :
    runStep settings onTags ctx owner s.bare = runStep settings onTags ctx owner s := by
  cases s with
  | single head action => cases action <;> rfl
  | group head name members => rfl

theorem runSteps_bare (ctx : Context) (owner : Option String) (steps : List Step) :
    runSteps settings onTags ctx owner (steps.map Step.bare)
      = runSteps settings onTags ctx owner steps := by
  induction steps with
  | nil => rfl
  | cons s rest ih => rw [List.map_cons, runSteps_cons, runSteps_cons, runStep_bare, ih]

/-- A flow is executed in the same way, -/
theorem execute_bare (flow : Flow) (c : Int) (data : Value) (instead : Option (List Step)) :
    execute settings onTags flow.bare c data (instead.map (List.map Step.bare))
      = execute settings onTags flow c data instead := by
  unfold execute
  refine bind_congr fun thread => ?_
  cases thread with
  | none => rfl
  | some thread =>
    refine bind_congr fun runId => ?_
    cases instead with
    | some steps => simp only [Option.map_some, pure_bind, runSteps_bare, Flow.id_bare]
    | none =>
      simp only [Option.map_none, lift_steps_bare, bind_map_left, runSteps_bare, Flow.id_bare]

/-- fired in the same way, -/
theorem fire_bare (event : Event) (flow : Flow) :
    fire settings onTags event flow.bare = fire settings onTags event flow := by
  have hexecute := execute_bare settings onTags flow event.conversationId
    (.object event.triggerData) none
  unfold fire
  rw [Option.map_none] at hexecute
  simp only [hexecute, Flow.id_bare]

/-- and so are flows one after another. -/
theorem fireAll_bare (event : Event) (flows : List Flow) :
    fireAll settings onTags event (flows.map Flow.bare) = fireAll settings onTags event flows := by
  induction flows with
  | nil => rfl
  | cons flow rest ih =>
    rw [List.map_cons, fireAll, fireAll, fire_bare, ih]

/-- The steps that come after a step are the same. -/
theorem stepsAfter?_bare (stepId : String) (steps : List Step) :
    stepsAfter? stepId (steps.map Step.bare)
      = (stepsAfter? stepId steps).map (List.map Step.bare) := by
  have hid : (fun s => s.head.stepId == stepId) ∘ Step.bare
      = fun s : Step => s.head.stepId == stepId := by
    funext s
    simp [StepHead.bare]
  have hafter (paused : Step) :
      (fun s => decide (paused.bare.head.order < s.head.order)) ∘ Step.bare
        = fun s : Step => decide (paused.head.order < s.head.order) := by
    funext s
    simp [StepHead.bare]
  unfold stepsAfter?
  rw [List.find?_map, hid, Option.map_map, Option.map_map]
  congr 1
  funext paused
  show (steps.map Step.bare).filter _ = (steps.filter _).map Step.bare
  rw [List.filter_map, hafter]

end Engine

/-! ## Clicks -/

namespace Click

open Engine

/-- Stored steps are ranked in the same way. -/
theorem ranked_bare (first : List Int) (rows : List StepRow) :
    ranked first (rows.map StepRow.bare) = (ranked first rows).map StepRow.bare := by
  unfold ranked
  rw [List.map_append, map_filter_of_comp rfl, map_filter_of_comp rfl]

theorem members?_bare (s : Step) : members? s.bare = members? s := by cases s <;> rfl

theorem buttonsOf?_bare (s : Step) : buttonsOf? s.bare = buttonsOf? s := by
  cases s with
  | single head action => cases action <;> rfl
  | group head name members => rfl

theorem hasDigest_bare (digest : String) (index : Nat) (s : Step) :
    hasDigest digest index s.bare = hasDigest digest index s := by
  unfold hasDigest
  rw [buttonsOf?_bare, Step.head_bare]
  rfl

theorem stepOf?_bare (rows : List StepRow) (stepId kind : String) :
    stepOf? (rows.map StepRow.bare) stepId kind
      = Option.map Step.bare <$> stepOf? rows stepId kind := by
  have hfind : (rows.map StepRow.bare).find? (isFor stepId kind)
      = (rows.find? (isFor stepId kind)).map StepRow.bare := List.find?_map
  unfold stepOf?
  rw [hfind]
  cases rows.find? (isFor stepId kind) with
  | none => rfl
  | some row =>
    dsimp only [Option.map_some]
    rw [Step.parse_row_bare]
    cases Step.parse row.draft <;> rfl

/-- The buttons of a step that is found. -/
def buttonsIn? (found : Option Step) : Option (List Button) := found.bind buttonsOf?

theorem buttonsIn?_bare (found : Option Step) :
    buttonsIn? (found.map Step.bare) = buttonsIn? found := by
  cases found with
  | none => rfl
  | some s => exact buttonsOf?_bare s

/-- The buttons found for a key are the same, -/
theorem stepOfKey?_bare (rows : List StepRow) (key : String) :
    buttonsIn? <$> stepOfKey? (rows.map StepRow.bare) key = buttonsIn? <$> stepOfKey? rows key := by
  have hlone : buttonsIn? <$> stepOf? (rows.map StepRow.bare) key buttonsKind
      = buttonsIn? <$> stepOf? rows key buttonsKind := by
    rw [stepOf?_bare, Functor.map_map]
    simp only [buttonsIn?_bare]
  have hmembers (found : Option Step) :
      (found.map Step.bare).bind members? = found.bind members? := by
    cases found with
    | none => rfl
    | some s => exact members?_bare s
  unfold stepOfKey?
  cases Callback.memberOf? key with
  | none => exact hlone
  | some place =>
    obtain ⟨group, index⟩ := place
    dsimp only
    rw [stepOf?_bare, bind_map_left, map_bind, map_bind]
    refine bind_congr fun found => ?_
    rw [hmembers]
    cases found.bind members? with
    | none => exact hlone
    | some members => rfl

theorem find?_candidatesOf_bare (digest : String) (index : Nat) (s : Step) :
    (candidatesOf s.bare).find? (hasDigest digest index)
        = (candidatesOf s).find? (hasDigest digest index)
      ∨ (candidatesOf s.bare).find? (hasDigest digest index)
        = ((candidatesOf s).find? (hasDigest digest index)).map Step.bare := by
  cases s with
  | group head name members => exact .inl rfl
  | single head action =>
    have hdigest : hasDigest digest index ∘ Step.bare = hasDigest digest index :=
      funext (hasDigest_bare digest index)
    refine .inr ?_
    show ([Step.single head action].map Step.bare).find? (hasDigest digest index) = _
    rw [List.find?_map, hdigest]
    rfl

/-- and so are those found for a digest. -/
theorem findDigest?_bare (digest : String) (index : Nat) (rows : List StepRow) :
    buttonsIn? <$> findDigest? digest index (rows.map StepRow.bare)
      = buttonsIn? <$> findDigest? digest index rows := by
  induction rows with
  | nil => rfl
  | cons row rest ih =>
    rw [List.map_cons, findDigest?, findDigest?, Step.parse_row_bare, bind_map_left, map_bind,
      map_bind]
    refine bind_congr fun s => ?_
    rcases find?_candidatesOf_bare digest index s with hfound | hfound <;> rw [hfound]
    · cases (candidatesOf s).find? (hasDigest digest index) with
      | some step => rfl
      | none => exact ih
    · cases (candidatesOf s).find? (hasDigest digest index) with
      | some step => exact congrArg Except.ok (buttonsIn?_bare (some step))
      | none => exact ih

/-- **The same button is clicked** whatever the drawing is. -/
theorem buttonOf?_bare (rows : List StepRow) (ref : Callback.Ref) :
    buttonOf? (rows.map StepRow.bare) ref = buttonOf? rows ref := by
  have hbuttons (rows : List StepRow) : buttonOf? rows ref
      = (·.bind fun buttons => buttons[ref.index]?) <$> buttonsIn? <$> stepOfRef? rows ref := by
    rw [Functor.map_map]
    exact (map_eq_pure_bind _ _).symm
  rw [hbuttons, hbuttons]
  congr 1
  cases ref with
  | plain key index => exact stepOfKey?_bare rows key
  | hashed digest index =>
    have hbearing : (rows.map StepRow.bare).filter mayBear
        = (rows.filter mayBear).map StepRow.bare := (map_filter_of_comp rfl rows).symm
    show buttonsIn? <$> findDigest? digest index _ = _
    rw [hbearing]
    exact findDigest?_bare digest index _

end Click

end Deskflow
