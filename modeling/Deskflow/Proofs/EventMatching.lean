import Deskflow.Engine.Dispatch
import Deskflow.Proofs.WorkFrame

/-!
# Which automations an event is for

Whether an event is for an automation is told by the automation's own row: it is active, on the
channel of the event or on every channel, its trigger is one that the event sets off, and its
settings ask for no more than the event offers (`Event.IsFor`). This is all there is to it as long
as the settings of every automation that is looked at can be read. One whose settings cannot be read
(`Event.TripsOver`) stands in the way of all others.

Flows are found by `match`, which asks `keyword_matches` and `tag_trigger_matches` of one candidate
after another.

* `accepts_cases`: what is asked of an event.
* `matchingAll_cases`: which flows are found and in which order, or that none can be found.
* `Flow.mem_picked`: what is found is told by the automation's own row.
* `matches_apart`: the result.
-/

namespace Deskflow

/-- A text holds one of the keywords that settings name, case aside. -/
def NamesKeyword (config : Value) (text : Option String) : Prop :=
  ∃ raw, config.field "keywords" = .ok raw
    ∧ ∃ k ∈ parseKeywords raw, Text.holds (Text.lower (text.getD "")) k = true

/-- Settings leave open which tag they are about, or name one of these. -/
def AdmitsTag (config : Value) (tagIds : List Int) : Prop :=
  ∃ wanted, config.field "tag_id" = .ok wanted
    ∧ (wanted.isLeftOut = true ∨ ∃ id ∈ tagIds, wanted.toInt = .ok id)

namespace TriggerKind

/-- The settings of a trigger ask for no more than an event offers. -/
def Admits (event : Event) (config : Value) : TriggerKind → Prop
  | keyword => NamesKeyword config event.messageText
  | tagAdded | tagRemoved => AdmitsTag config event.tagIds
  | _ => True

/-- The settings of a trigger cannot be read: they count as given and are no record, or they are
about an infinite tag. A trigger that asks for nothing more does not look at them. -/
def Chokes (config : Value) : TriggerKind → Prop
  | keyword => config.isGiven = true ∧ config.kind ≠ .object
  | tagAdded | tagRemoved => (config.isGiven = true ∧ config.kind ≠ .object)
      ∨ ∃ x, config.field "tag_id" = .ok (.float x) ∧ x.isInfinite = true
  | _ => False

end TriggerKind

namespace Event

/-- An automation is active, has a trigger, and is on the channel of an event or on every
channel. -/
def Covers (e : Event) (t : TriggerKind) (a : Automation) : Prop :=
  a.isActive = true ∧ a.trigger = t.name ∧ (a.channelId = none ∨ a.channelId = some e.channelId)

/-- An event is for an automation. -/
def IsFor (e : Event) (a : Automation) : Prop :=
  ∃ t ∈ e.kind.triggers, e.Covers t a ∧ t.Admits e a.triggerConfig

/-- An automation has settings that cannot be read when an event is looked at. -/
def TripsOver (e : Event) (a : Automation) : Prop :=
  ∃ t ∈ e.kind.triggers, e.Covers t a ∧ t.Chokes a.triggerConfig

/-- In a store no automations can be looked for, whatever their settings are: a table is missing, or
none could hold the channel's id. -/
def Unsearchable (e : Event) (s : Store) : Prop :=
  s.absent.contains .automations = true ∨ Transaction.fits e.channelId = false
    ∨ (s.absent.contains .automationSteps = true
      ∧ ∃ a ∈ s.automations, ∃ t ∈ e.kind.triggers, e.Covers t a)

end Event

/-! ## What is asked of an event -/

theorem keywordMatches_cases (config : Value) (text : Option String) :
    ((∃ fault, keywordMatches config text = .error fault)
        ∧ config.isGiven = true ∧ config.kind ≠ .object) ∨
      ∃ matched, keywordMatches config text = .ok matched
        ∧ (matched = true ↔ NamesKeyword config text)
        ∧ ¬(config.isGiven = true ∧ config.kind ≠ .object) := by
  rw [← @Value.field_eq_error_iff config "keywords"]
  unfold keywordMatches NamesKeyword
  cases hfield : config.field "keywords" with
  | error fault => exact .inl ⟨⟨fault, rfl⟩, fault, rfl⟩
  | ok raw =>
    refine .inr ⟨_, rfl, ?_, by simp⟩
    simp [List.any_eq_true]

/-- The tags of an event are read as they are. -/
theorem mapM_toInt (ids : List Int) : (ids.map Value.int).mapM Value.toInt = .ok ids := by
  induction ids with
  | nil => rfl
  | cons id ids ih =>
    rw [List.map_cons, List.mapM_cons, ih]
    rfl

theorem givenItems_ints (ids : List Int) :
    (Value.list (ids.map Value.int)).givenItems = .ok (ids.map Value.int) := by
  cases ids <;> rfl

/-- What is asked about the tags of an event, once the settings say which tag it is. -/
theorem tagMatches_of_field {config wanted : Value} (h : config.field "tag_id" = .ok wanted)
    (ids : List Int) : tagMatches config (.list (ids.map .int)) =
      if wanted.isLeftOut then .ok true
      else wanted.toInt?.map fun id? => id?.any fun id => ids.contains id := by
  unfold tagMatches
  rw [h]
  simp only [bind, Except.bind]
  split
  · rfl
  · cases wanted.toInt? with
    | error fault => rfl
    | ok id? =>
      cases id? with
      | none => rfl
      | some id => simp only [givenItems_ints, mapM_toInt]; rfl

theorem tagMatches_cases (config : Value) (ids : List Int) :
    ((∃ fault, tagMatches config (.list (ids.map .int)) = .error fault)
        ∧ ((config.isGiven = true ∧ config.kind ≠ .object)
          ∨ ∃ x, config.field "tag_id" = .ok (.float x) ∧ x.isInfinite = true)) ∨
      ∃ matched, tagMatches config (.list (ids.map .int)) = .ok matched
        ∧ (matched = true ↔ AdmitsTag config ids)
        ∧ ¬((config.isGiven = true ∧ config.kind ≠ .object)
          ∨ ∃ x, config.field "tag_id" = .ok (.float x) ∧ x.isInfinite = true) := by
  rw [← @Value.field_eq_error_iff config "tag_id"]
  cases hfield : config.field "tag_id" with
  | error fault =>
    refine .inl ⟨⟨fault, ?_⟩, .inl ⟨fault, rfl⟩⟩
    unfold tagMatches
    rw [hfield]
    rfl
  | ok wanted =>
    have hinfinite : (∃ x, wanted = .float x ∧ x.isInfinite = true) ↔
        wanted.toInt = .error .infiniteNumber := Value.toInt_eq_infinite_iff.symm
    have hadmits : AdmitsTag config ids ↔
        wanted.isLeftOut = true ∨ ∃ id ∈ ids, wanted.toInt = .ok id := by
      simp [AdmitsTag, hfield]
    rw [tagMatches_of_field hfield, hadmits]
    simp only [Except.ok.injEq, reduceCtorEq, exists_false, false_or, hinfinite]
    by_cases hleft : wanted.isLeftOut = true
    · rw [if_pos hleft]
      refine .inr ⟨true, rfl, by simp [hleft], fun h => ?_⟩
      obtain ⟨x, rfl, -⟩ := Value.toInt_eq_infinite_iff.mp h
      cases hleft
    · rw [if_neg hleft]
      cases hint : wanted.toInt with
      | ok id =>
        refine .inr ⟨ids.contains id, by rw [Value.toInt?, hint]; rfl, ?_, by simp⟩
        rw [List.contains_iff_mem]
        simp [hleft]
      | error fault =>
        by_cases hfault : fault = .infiniteNumber
        · subst hfault
          exact .inl ⟨⟨.infiniteNumber, by rw [Value.toInt?, hint]; rfl⟩, rfl⟩
        · refine .inr ⟨false, ?_, by simp [hleft], by simpa using hfault⟩
          simp [Value.toInt?, hint, Except.map]

namespace Flow

open Transaction

/-- **What is asked of an event** can be told, unless the settings cannot be read. -/
theorem accepts_cases (event : Event) (t : TriggerKind) (a : Automation) :
    ((∃ fault, accepts event t a = .error fault) ∧ t.Chokes a.triggerConfig) ∨
      ∃ accepted, accepts event t a = .ok accepted
        ∧ (accepted = true ↔ t.Admits event a.triggerConfig) ∧ ¬t.Chokes a.triggerConfig := by
  cases t with
  | keyword => exact keywordMatches_cases a.triggerConfig event.messageText
  | tagAdded => exact tagMatches_cases a.triggerConfig event.tagIds
  | tagRemoved => exact tagMatches_cases a.triggerConfig event.tagIds
  | _ => exact .inr ⟨true, rfl, by simp [TriggerKind.Admits], by simp [TriggerKind.Chokes]⟩

/-! ## The flows of a trigger -/

variable {event : Event} {s : Store}

/-- Whether a flow is taken for an event by a trigger. -/
def isTaken (event : Event) (t : TriggerKind) (f : Flow) : Bool :=
  (accepts event t f.automation).toOption.getD false

/-- Flows are picked each by its own settings, where all of these can be read. -/
theorem accepting_cases (event : Event) (t : TriggerKind) (flows : List Flow) :
    ((∃ fault, accepting event t flows = .error fault)
        ∧ ∃ f ∈ flows, t.Chokes f.automation.triggerConfig) ∨
      accepting event t flows = .ok (flows.filter (isTaken event t))
        ∧ ∀ f ∈ flows, ¬t.Chokes f.automation.triggerConfig := by
  induction flows with
  | nil => exact .inr ⟨rfl, by simp⟩
  | cons f rest ih =>
    unfold accepting
    rcases accepts_cases event t f.automation with
      ⟨⟨fault, hfault⟩, hchokes⟩ | ⟨taken, hok, -, hfree⟩
    · exact .inl ⟨⟨fault, by rw [hfault]; rfl⟩, f, List.mem_cons_self, hchokes⟩
    have htaken : isTaken event t f = taken := by rw [isTaken, hok]; rfl
    rw [hok]
    rcases ih with ⟨⟨fault, hfault⟩, g, hg, hchokes⟩ | ⟨hrest, hall⟩
    · refine .inl ⟨⟨fault, ?_⟩, g, List.mem_cons_of_mem f hg, hchokes⟩
      rw [hfault]
      cases taken <;> rfl
    · refine .inr ⟨?_, by simpa using ⟨hfree, hall⟩⟩
      rw [hrest, List.filter_cons, htaken]
      cases taken <;> rfl

/-- Where the flows of a trigger can be looked for, these are there. -/
theorem run_candidates (t : TriggerKind) (channelId : Int) (s : Store) :
    (candidates t channelId).run s =
      if s.absent.contains .automations then .error (.tableMissing Table.automations.name)
      else if fits channelId then
        if candidatesIn s t channelId ≠ [] ∧ s.absent.contains .automationSteps then
          .error (.tableMissing Table.automationSteps.name)
        else .ok ((candidatesIn s t channelId).map (ofAutomation s), s)
      else .error .integerRange := by
  simp only [candidates, StateT.run_bind, run_need, run_fit]
  split
  · rfl
  · split
    · show (do
          if !(candidatesIn s t channelId).isEmpty then need .automationSteps
          return (candidatesIn s t channelId).map (ofAutomation s) :
            Transaction (List Flow)).run s = _
      cases hfound : candidatesIn s t channelId with
      | nil => rfl
      | cons a rest =>
        show (need .automationSteps >>= fun _ => pure _ : Transaction (List Flow)).run s = _
        rw [StateT.run_bind, run_need]
        cases s.absent.contains .automationSteps <;> rfl
    · rfl

/-- The flows that an event is for by a trigger. -/
def picked (event : Event) (s : Store) (t : TriggerKind) : List Flow :=
  ((candidatesIn s t event.channelId).map (ofAutomation s)).filter (isTaken event t)

/-- The flows of a trigger cannot be picked. -/
def Stuck (event : Event) (s : Store) (t : TriggerKind) : Prop :=
  s.absent.contains .automations = true ∨ fits event.channelId = false
    ∨ (s.absent.contains .automationSteps = true ∧ candidatesIn s t event.channelId ≠ [])
    ∨ ∃ a ∈ candidatesIn s t event.channelId, t.Chokes a.triggerConfig

/-- The flows of a trigger are picked unless it is stuck. -/
theorem pick_cases (event : Event) (s : Store) (t : TriggerKind) :
    ((∃ fault, (do accepting event t (← candidates t event.channelId) :
        Transaction (List Flow)).run s = .error fault) ∧ Stuck event s t) ∨
      (do accepting event t (← candidates t event.channelId) : Transaction (List Flow)).run s
        = .ok (picked event s t, s) ∧ ¬Stuck event s t := by
  rw [StateT.run_bind, run_candidates]
  unfold Stuck
  split
  · rename_i hauto
    exact .inl ⟨⟨_, rfl⟩, .inl hauto⟩
  · split
    · split
      · rename_i hsteps
        exact .inl ⟨⟨_, rfl⟩, .inr (.inr (.inl hsteps.symm))⟩
      · rename_i hauto hfits hsteps
        rcases accepting_cases event t
          ((candidatesIn s t event.channelId).map (ofAutomation s)) with
          ⟨⟨fault, hfault⟩, f, hf, hchokes⟩ | ⟨hok, hall⟩
        · obtain ⟨a, ha, rfl⟩ := List.mem_map.mp hf
          exact .inl ⟨⟨fault, run_lift_error hfault s⟩, .inr (.inr (.inr ⟨a, ha, hchokes⟩))⟩
        · refine .inr ⟨run_lift_ok hok s, ?_⟩
          rintro (h | h | h | ⟨a, ha, h⟩)
          · exact hauto h
          · rw [hfits] at h
            cases h
          · exact hsteps h.symm
          · exact hall _ (List.mem_map_of_mem ha) h
    · rename_i hfits
      exact .inl ⟨⟨_, rfl⟩, .inr (.inl (by simpa using hfits))⟩

/-- **Which flows are found and in which order**, or that none can be found. -/
theorem matchingAll_cases (event : Event) (s : Store) (triggers : List TriggerKind) :
    ((∃ fault, (matchingAll event triggers).run s = .error fault)
        ∧ ∃ t ∈ triggers, Stuck event s t) ∨
      (matchingAll event triggers).run s = .ok (triggers.flatMap (picked event s), s)
        ∧ ∀ t ∈ triggers, ¬Stuck event s t := by
  induction triggers with
  | nil => exact .inr ⟨rfl, by simp⟩
  | cons t rest ih =>
    have hsplit : matchingAll event (t :: rest) = (do
        let accepted ← (do accepting event t (← candidates t event.channelId) :
          Transaction (List Flow))
        return accepted ++ (← matchingAll event rest)) := by
      simp only [matchingAll, bind_assoc]
    rw [hsplit, StateT.run_bind]
    rcases pick_cases event s t with ⟨⟨fault, hfault⟩, hstuck⟩ | ⟨hok, hfree⟩
    · exact .inl ⟨⟨fault, by rw [hfault]; rfl⟩, t, List.mem_cons_self, hstuck⟩
    rw [hok]
    simp only [bind, Except.bind]
    rcases ih with ⟨⟨fault, hfault⟩, u, hu, hstuck⟩ | ⟨hrest, hall⟩
    · refine .inl ⟨⟨fault, ?_⟩, u, List.mem_cons_of_mem t hu, hstuck⟩
      show (matchingAll event rest >>= fun others => pure _ : Transaction (List Flow)).run s = _
      rw [StateT.run_bind, hfault]
      rfl
    · refine .inr ⟨?_, by simpa using ⟨hfree, hall⟩⟩
      show (matchingAll event rest >>= fun others => pure _ : Transaction (List Flow)).run s = _
      rw [StateT.run_bind, hrest]
      rfl

/-- A flow that is picked is that of an automation whose own row asks for no more than the event
offers. -/
theorem mem_picked {t : TriggerKind} (h : ¬Stuck event s t) {f : Flow} :
    f ∈ picked event s t ↔ f.Stored s ∧ event.Covers t f.automation
      ∧ t.Admits event f.automation.triggerConfig := by
  have taken : ∀ a ∈ candidatesIn s t event.channelId,
      (isTaken event t (ofAutomation s a) = true ↔ t.Admits event a.triggerConfig) := by
    intro a ha
    rcases accepts_cases event t a with ⟨-, hchokes⟩ | ⟨accepted, hok, hiff, -⟩
    · exact absurd (.inr (.inr (.inr ⟨a, ha, hchokes⟩))) h
    · rw [isTaken, show (ofAutomation s a).automation = a from rfl, hok]
      exact hiff
  unfold picked
  rw [List.mem_filter, List.mem_map]
  constructor
  · rintro ⟨⟨a, ha, rfl⟩, hf⟩
    obtain ⟨hmem, hcovers⟩ := mem_candidates.mp ha
    exact ⟨⟨hmem, rfl⟩, hcovers, (taken a ha).mp hf⟩
  · rintro ⟨⟨hmem, hf⟩, hcovers, hadmits⟩
    have ha := mem_candidates.mpr ⟨hmem, hcovers⟩
    refine ⟨⟨f.automation, ha, hf.symm⟩, ?_⟩
    rw [hf]
    exact (taken f.automation ha).mpr hadmits

/-- What keeps flows from being picked: no automations can be looked for, or the settings of one of
them cannot be read. -/
theorem exists_stuck_iff (event : Event) (s : Store) :
    (∃ t ∈ event.kind.triggers, Stuck event s t)
      ↔ event.Unsearchable s ∨ ∃ a ∈ s.automations, event.TripsOver a := by
  obtain ⟨t₀, ht₀⟩ : ∃ t, t ∈ event.kind.triggers := by
    cases event.kind <;> exact ⟨_, List.mem_cons_self⟩
  constructor
  · rintro ⟨t, ht, h | h | ⟨h, hne⟩ | ⟨a, ha, h⟩⟩
    · exact .inl (.inl h)
    · exact .inl (.inr (.inl h))
    · obtain ⟨a, ha⟩ := List.exists_mem_of_ne_nil _ hne
      obtain ⟨hmem, hcovers⟩ := mem_candidates.mp ha
      exact .inl (.inr (.inr ⟨h, a, hmem, t, ht, hcovers⟩))
    · obtain ⟨hmem, hcovers⟩ := mem_candidates.mp ha
      exact .inr ⟨a, hmem, t, ht, hcovers, h⟩
  · rintro ((h | h | ⟨h, a, ha, t, ht, hcovers⟩) | ⟨a, ha, t, ht, hcovers, h⟩)
    · exact ⟨t₀, ht₀, .inl h⟩
    · exact ⟨t₀, ht₀, .inr (.inl h)⟩
    · have hmem := mem_candidates.mpr ⟨ha, hcovers⟩
      exact ⟨t, ht, .inr (.inr (.inl ⟨h, List.ne_nil_of_mem hmem⟩))⟩
    · exact ⟨t, ht, .inr (.inr (.inr ⟨a, mem_candidates.mpr ⟨ha, hcovers⟩, h⟩))⟩

/-- **An event finds the flows of the automations that it is for**, in the order of its triggers and
of what is stored. -/
theorem matching_eq_ok {v : Store} {flows : List Flow}
    (h : (matching event).run s = .ok (flows, v)) :
    v = s ∧ flows = event.kind.triggers.flatMap (picked event s)
      ∧ ∀ t ∈ event.kind.triggers, ¬Stuck event s t := by
  rcases matchingAll_cases event s event.kind.triggers with ⟨⟨fault, hfault⟩, -⟩ | ⟨hok, hall⟩
  · rw [matching, hfault] at h
    cases h
  · rw [matching, hok] at h
    cases h
    exact ⟨rfl, rfl, hall⟩

theorem mem_matching {v : Store} {flows : List Flow}
    (h : (matching event).run s = .ok (flows, v)) (f : Flow) :
    f ∈ flows ↔ f.Stored s ∧ event.IsFor f.automation := by
  obtain ⟨-, rfl, hall⟩ := matching_eq_ok h
  rw [List.mem_flatMap]
  constructor
  · rintro ⟨t, ht, hf⟩
    obtain ⟨hstored, hfor⟩ := (mem_picked (hall t ht)).mp hf
    exact ⟨hstored, t, ht, hfor⟩
  · rintro ⟨hstored, t, ht, hfor⟩
    exact ⟨t, ht, (mem_picked (hall t ht)).mpr ⟨hstored, hfor⟩⟩

end Flow

/-! ## The result -/

namespace Engine

open Work

variable {settings : Settings} {onTags : TagHandler} {event : Event} {w : World}

/-- An event whose flows cannot be found is stopped before anything is done. -/
theorem runOn_dispatchWith_of_error {fault : Fault}
    (h : (Flow.matching event).run w.store = .error fault) :
    (dispatchWith settings onTags event).runOn w = (.error fault, w) := by
  unfold dispatchWith
  rw [runOn_bind, query, run_transact, h]

/-- How an event is matched against the automations of a store. -/
structure MatchesApart (event : Event) (s : Store) : Prop where
  /-- Nothing is found exactly where automations cannot be looked for, or one of them has settings
  that cannot be read, whatever the others are. -/
  fails : (∃ fault, (Flow.matching event).run s = .error fault)
    ↔ event.Unsearchable s ∨ ∃ a ∈ s.automations, event.TripsOver a
  /-- Otherwise the flows of the automations that the event is for are found, and no others: this is
  told by the row of each alone. -/
  found : ¬event.Unsearchable s → (∀ a ∈ s.automations, ¬event.TripsOver a) →
    ∃ flows, (Flow.matching event).run s = .ok (flows, s)
      ∧ ∀ f, f ∈ flows ↔ f.Stored s ∧ event.IsFor f.automation
  /-- A single automation whose settings cannot be read keeps all others from the event, -/
  stops : ∀ a ∈ s.automations, event.TripsOver a → ∀ settings onTags (w : World), w.store = s →
    ∃ fault, (dispatchWith settings onTags event).runOn w = (.error fault, w)
  /-- and if the event is the change of tags that a step makes, the fault is one of the step. -/
  spreads : ∀ a ∈ s.automations, event.TripsOver a → event.messageId = none →
    event.messageText = none → ∀ settings (w : World), w.store = s → w.memory.tagGuard = false →
      ∃ fault,
        (chained settings event.kind event.conversationId event.channelId event.tagIds).runOn w
          = (.error fault, w)

/-- **Automations are matched apart from each other, unless one has settings that cannot be
read.** -/
theorem matches_apart (event : Event) (s : Store) : MatchesApart event s := by
  have hstuck := Flow.exists_stuck_iff event s
  have fails : (∃ fault, (Flow.matching event).run s = .error fault)
      ↔ event.Unsearchable s ∨ ∃ a ∈ s.automations, event.TripsOver a := by
    rw [← hstuck]
    rcases Flow.matchingAll_cases event s event.kind.triggers with ⟨hfault, h⟩ | ⟨hok, h⟩
    · exact iff_of_true hfault h
    · refine iff_of_false ?_ fun ⟨t, ht, hs⟩ => h t ht hs
      rintro ⟨fault, hfault⟩
      rw [Flow.matching, hok] at hfault
      cases hfault
  have stops : ∀ a ∈ s.automations, event.TripsOver a → ∀ settings onTags (w : World),
      w.store = s → ∃ fault, (dispatchWith settings onTags event).runOn w = (.error fault, w) := by
    rintro a ha htrips settings onTags w rfl
    obtain ⟨fault, hfault⟩ := fails.mpr (.inr ⟨a, ha, htrips⟩)
    exact ⟨fault, runOn_dispatchWith_of_error hfault⟩
  refine ⟨fails, fun hsearch hfree => ?_, stops, ?_⟩
  · cases hrun : (Flow.matching event).run s with
    | error fault =>
      rcases fails.mp ⟨fault, hrun⟩ with h | ⟨a, ha, h⟩
      · exact absurd h hsearch
      · exact absurd h (hfree a ha)
    | ok p =>
      obtain ⟨flows, v⟩ := p
      obtain ⟨rfl, -⟩ := Flow.matching_eq_ok hrun
      exact ⟨flows, rfl, Flow.mem_matching hrun⟩
  · rintro a ha htrips hid htext settings w hw hguard
    obtain ⟨fault, hfault⟩ := stops a ha htrips settings quiet w hw
    refine ⟨fault, ?_⟩
    have hevent : (⟨event.kind, event.conversationId, event.channelId, none, none, event.tagIds⟩ :
        Event) = event := by
      rw [← hid, ← htext]
    unfold chained
    rw [hevent, runOn_bind]
    show (if w.memory.tagGuard = true then _ else _ : Work Unit).runOn w = _
    rw [if_neg (by simp [hguard]), runOn_bind, hfault]

/-! ### Two automations about tags -/

/-- A desk with an automation about an infinite tag, and one about tag 5. -/
def counter : Store :=
  let automation (id : Int) (tag : Value) : Automation :=
    { id, name := "greet", description := none, channelId := none, trigger := "tag_added",
      triggerConfig := .object [("tag_id", tag)], isActive := true }
  { automations := [automation 1 (.float (Binary64.infinity false)), automation 2 (.int 5)] }

/-- Tag 5 is given. -/
def tagGiven : Event :=
  { kind := .tagAdded, conversationId := 1, channelId := 1, tagIds := [5] }

/-- The automation about the infinite tag keeps the other one from its event. -/
theorem not_always_apart :
    ¬(∀ (event : Event) (s : Store), s.absent = [] → Transaction.fits event.channelId = true →
      ∃ flows, (Flow.matching event).run s = .ok (flows, s)
        ∧ ∀ a ∈ s.automations, event.IsFor a → Flow.ofAutomation s a ∈ flows) := by
  intro h
  obtain ⟨flows, hrun, -⟩ := h tagGiven counter rfl rfl
  have hfault : (Flow.matching tagGiven).run counter = .error .infiniteNumber := rfl
  rw [hfault] at hrun
  cases hrun

end Engine

end Deskflow
