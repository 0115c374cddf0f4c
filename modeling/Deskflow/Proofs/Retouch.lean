import Deskflow.Desk.History
import Deskflow.Desk.Slot
import Deskflow.Desk.Tagging
import Deskflow.Desk.Thread
import Deskflow.Proofs.Drawing

/-!
# Unaware of a retouch

What steps do to the store has nothing to do with the log of runs, apart from the notes that are
made there, and nothing with how automations are drawn. A `Retouch` of a store puts other runs into
the log and draws the automations in another way. `Transaction.Unaware` says by a law that a
transaction does not notice: in the retouched store it comes to the same, and leaves what it leaves
otherwise, retouched.

* `Unaware.bind`, `Unaware.get_bind`: the law holds of a sequence if it holds of its parts.
* `unaware_rows`, `unaware_load`, `unaware_add`, `unaware_edit`: every table that a retouch spares
  can be used.
* `unaware_loadThread` to `unaware_change`: the transactions that steps are made of.
* `unaware_openRun`, `unaware_append`, `unaware_finish`: a retouch that spares the log does not
  disturb those who keep it.
* `unaware_matching`, `unaware_loadFlow`: flows are found without their drawings.
-/

namespace Deskflow

/-- A store with other runs. -/
def Store.withRuns (s : Store) (runs : List Run) : Store := { s with runs }

/-- Other runs for the log, and automations and steps that are the same but for how they are drawn.
-/
structure Retouch where
  runs : List Run → List Run := id
  automations : List Automation → List Automation := id
  steps : List StepRow → List StepRow := id
  automations_bare : ∀ as, (automations as).map Automation.bare = as.map Automation.bare := by
    exact fun _ => rfl
  steps_bare : ∀ rows, (steps rows).map StepRow.bare = rows.map StepRow.bare := by
    exact fun _ => rfl

/-- A store after a retouch. -/
def Store.retouched (s : Store) (φ : Retouch) : Store :=
  { s with
    runs := φ.runs s.runs
    automations := φ.automations s.automations
    steps := φ.steps s.steps }

/-- To put other runs into the log is a retouch. -/
def Retouch.relog (runs : List Run) : Retouch := { runs := fun _ => runs }

theorem Store.sameFlows_retouched (s : Store) (φ : Retouch) : s.SameFlows (s.retouched φ) :=
  ⟨φ.automations_bare _, φ.steps_bare _⟩

/-- Rows that a retouch spares. -/
class Spared (φ : Retouch) (ρ : Type) [Row ρ] : Prop where
  rows_retouched (s : Store) : (Row.rows (s.retouched φ) : List ρ) = Row.rows s
  setRows_retouched (s : Store) (rows : List ρ) :
    Row.setRows (s.retouched φ) rows = (Row.setRows s rows).retouched φ

section

variable {φ : Retouch}

instance : Spared φ Channel := ⟨fun _ => rfl, fun _ _ => rfl⟩
instance : Spared φ Operator := ⟨fun _ => rfl, fun _ _ => rfl⟩
instance : Spared φ Tag := ⟨fun _ => rfl, fun _ _ => rfl⟩
instance : Spared φ Client := ⟨fun _ => rfl, fun _ _ => rfl⟩
instance : Spared φ Conversation := ⟨fun _ => rfl, fun _ _ => rfl⟩
instance : Spared φ Message := ⟨fun _ => rfl, fun _ _ => rfl⟩

/-- A retouch that leaves the runs alone spares the log. -/
theorem Retouch.spares_runs (h : φ.runs = id) : Spared φ Run where
  rows_retouched s := congrFun h s.runs
  setRows_retouched s rows := by
    show { s.retouched φ with runs := rows } = { s.retouched φ with runs := φ.runs rows }
    rw [h]
    rfl

end

namespace Transaction

variable {φ : Retouch}

/-- A retouch makes no difference to a transaction, and is there still after it. -/
def Unaware {α : Type} (φ : Retouch) (t : Transaction α) : Prop :=
  ∀ s, t.run (s.retouched φ) = (t.run s).map fun p => (p.1, p.2.retouched φ)

/-! ## Sequences -/

section

variable {α β : Type}

theorem Unaware.pure (a : α) : Unaware φ (Pure.pure a : Transaction α) := fun _ => rfl

theorem Unaware.throw (fault : Fault) : Unaware φ (throw fault : Transaction α) := fun _ => rfl

theorem Unaware.lift (e : Except Fault α) : Unaware φ (liftM e : Transaction α) := by
  intro s
  cases e <;> rfl

theorem Unaware.bind {t : Transaction α} {f : α → Transaction β} (ht : Unaware φ t)
    (hf : ∀ a, Unaware φ (f a)) : Unaware φ (t >>= f) := by
  intro s
  rw [StateT.run_bind, StateT.run_bind, ht]
  cases t.run s with
  | error fault => rfl
  | ok p => exact hf p.1 p.2

/-- What is looked up is the same but for what `p` leaves out of it, and what follows does not
depend on that. -/
theorem Unaware.lookUp {t : Transaction α} {p : α → α} (ht : Unaware φ (p <$> t))
    {f : α → Transaction β} (hf : ∀ a, f (p a) = f a) (h : ∀ a, Unaware φ (f a)) :
    Unaware φ (t >>= f) := by
  have hbare : t >>= f = (p <$> t) >>= f := by
    rw [bind_map_left]
    simp only [hf]
  rw [hbare]
  exact ht.bind h

/-- To look at the store is no matter if what follows does not depend on the retouch. -/
theorem Unaware.get_bind {f : Store → Transaction β}
    (hf : ∀ s, f (s.retouched φ) = f s) (h : ∀ s, Unaware φ (f s)) :
    Unaware φ (get >>= f) := by
  intro s
  rw [StateT.run_bind, StateT.run_bind, StateT.run_get, StateT.run_get, pure_bind, pure_bind, hf]
  exact h s s

theorem Unaware.modify {f : Store → Store}
    (hf : ∀ s, f (s.retouched φ) = (f s).retouched φ) :
    Unaware φ (modify f : Transaction Unit) := by
  intro s
  show Except.ok ((), f (s.retouched φ)) = Except.ok ((), (f s).retouched φ)
  rw [hf]

end

/-! ## Tables -/

theorem unaware_fit (n : Int) : Unaware φ (fit n) := by
  unfold fit
  split
  · exact .pure _
  · exact .throw _

theorem unaware_fit? (n : Option Int) : Unaware φ (fit? n) := by
  cases n with
  | none => exact .pure _
  | some n => exact unaware_fit n

theorem unaware_forM_fit : ∀ ids : List Int, Unaware φ (ids.forM fit)
  | [] => .pure _
  | n :: ids => .bind (unaware_fit n) fun _ => unaware_forM_fit ids

theorem unaware_need (t : Table) : Unaware φ (need t) := by
  refine .get_bind (fun _ => rfl) fun s => ?_
  split
  · exact .throw _
  · exact .pure _

section

variable (ρ : Type) [Row ρ] [Spared φ ρ]

theorem unaware_rows : Unaware φ (rows ρ) :=
  .bind (unaware_need _) fun _ =>
    .get_bind (fun s => by rw [Spared.rows_retouched]) fun _ => .pure _

theorem unaware_load (id : Int) : Unaware φ (load ρ id) := by
  refine .bind (unaware_need _) fun _ => .bind (unaware_fit id) fun _ => ?_
  refine .get_bind (fun s => ?_) fun _ => .pure _
  rw [Store.find?, Spared.rows_retouched]
  rfl

theorem unaware_edit (id : Int) (f : ρ → ρ) : Unaware φ (edit ρ id f) :=
  .modify fun s => by
    rw [Store.modify, Spared.rows_retouched, Spared.setRows_retouched]
    rfl

end

theorem unaware_add {ρ : Type} [Row ρ] [Spared φ ρ] (row : ρ) : Unaware φ (add row) := by
  intro s
  have hnext : (s.retouched φ).nextId ρ = s.nextId ρ := by
    unfold Store.nextId
    rw [Spared.rows_retouched]
  have hinsert : ∀ row : ρ, (s.retouched φ).insert row = (s.insert row).retouched φ := by
    intro row
    rw [Store.insert, Spared.rows_retouched, Spared.setRows_retouched]
    rfl
  rw [run_add, run_add, hnext, hinsert]
  show (if s.absent.contains _ = true then _ else _) = _
  split <;> rfl

/-! ## Threads and histories -/

theorem unaware_loadClient (id : Option Int) : Unaware φ (Thread.loadClient id) := by
  cases id with
  | none => exact .pure _
  | some id =>
    refine .bind (unaware_load Client id) fun client => ?_
    cases client with
    | none => exact .pure _
    | some client =>
      exact .bind (unaware_need _) fun _ => .bind (unaware_need _) fun _ => .pure _

theorem unaware_loadThread (id : Int) : Unaware φ (Thread.load? id) := by
  refine .bind (unaware_load Conversation id) fun conversation => ?_
  cases conversation with
  | none => exact .pure _
  | some conversation =>
    exact .bind (unaware_loadClient _) fun _ => .bind (unaware_load Channel _) fun _ => .pure _

theorem unaware_latestText (id : Int) : Unaware φ (History.latestText id) :=
  .bind (unaware_rows Message) fun _ => .bind (unaware_fit id) fun _ => .pure _

theorem unaware_countOfClient (id : Int) : Unaware φ (Thread.countOfClient id) :=
  .bind (unaware_rows Conversation) fun _ => .bind (unaware_fit id) fun _ => .pure _

theorem unaware_addOutgoing (now : Moment) (c : Conversation) (o : Outgoing) :
    Unaware φ (History.addOutgoing now c o) :=
  .bind (unaware_need _) fun _ => .bind (unaware_fit? _) fun _ =>
    .bind (unaware_add _) fun _ => .pure _

theorem unaware_setStatus (id : Int) (status : String) :
    Unaware φ (Thread.setStatus id status) := by
  refine .bind (unaware_load Conversation id) fun found => ?_
  cases found with
  | none => exact .pure _
  | some c => exact .bind (unaware_edit Conversation id _) fun _ => .pure _

theorem unaware_assignOperator (conversation operator : Value) :
    Unaware φ (Thread.assignOperator conversation operator) := by
  refine .bind (.lift _) fun conversationId => ?_
  refine .bind (unaware_load Conversation conversationId) fun found => ?_
  cases found with
  | none => exact .throw _
  | some c =>
    refine .bind (.lift _) fun operatorId => ?_
    exact .bind (unaware_load Operator operatorId) fun found =>
      .bind (unaware_edit Conversation conversationId _) fun _ => .pure _

theorem unaware_fill (id : Int) (content : Except Fault Record) :
    Unaware φ (Slot.fill id content) := by
  refine .bind (unaware_load Conversation id) fun found => ?_
  cases found with
  | none => exact .pure _
  | some c => exact .bind (.lift _) fun fields => unaware_edit Conversation id _

theorem unaware_take (id : Int) : Unaware φ (Slot.take id) := by
  refine .bind (unaware_load Conversation id) fun found => ?_
  cases found with
  | none => exact .pure _
  | some c =>
    refine .bind (.lift _) fun taken => ?_
    cases taken with
    | none => exact .pure _
    | some held => exact .bind (unaware_edit Conversation id _) fun _ => .lift _

/-! ## Tags -/

theorem unaware_existing (ids : List Int) : Unaware φ (Tagging.existing ids) :=
  .bind (unaware_rows Tag) fun _ => .bind (unaware_forM_fit ids) fun _ => .pure _

theorem unaware_tagsNamed (values : List Value) : Unaware φ (Tagging.tagsNamed values) := by
  refine .bind (.lift _) fun ids => ?_
  split
  · exact .pure _
  · exact unaware_existing ids

theorem unaware_taggedClient (id : Int) : Unaware φ (Tagging.client? id) := by
  refine .bind (unaware_load Client id) fun client => ?_
  cases client with
  | none => exact .pure _
  | some client =>
    exact .bind (unaware_need _) fun _ => .bind (unaware_need _) fun _ => .pure _

theorem unaware_idsOfClient (id : Int) : Unaware φ (Tagging.idsOfClient id) := by
  refine .bind (unaware_taggedClient id) fun client => ?_
  cases client with
  | none => exact .pure _
  | some client => exact .get_bind (fun _ => rfl) fun _ => .pure _

theorem unaware_byId? (v : Value) : Unaware φ (Tagging.byId? v) := by
  unfold Tagging.byId?
  split
  · exact .pure _
  · refine .bind (.lift _) fun ids => ?_
    cases ids with
    | nil => exact .pure _
    | cons id _ => exact unaware_load Tag id

theorem unaware_byName? (name : String) (create : Bool) :
    Unaware φ (Tagging.byName? name create) := by
  refine .bind (unaware_rows Tag) fun tags => ?_
  split
  · exact .pure _
  · split
    · exact .bind (unaware_add _) fun _ => .pure _
    · exact .pure _

theorem unaware_resolve (id : Value) (name : Option String) (create : Bool) :
    Unaware φ (Tagging.resolve id name create) := by
  refine .bind (unaware_byId? id) fun tag => ?_
  cases tag with
  | some tag => exact .pure _
  | none =>
    simp only
    split
    · exact .pure _
    · exact unaware_byName? _ create

theorem unaware_change (remove : Bool) (clientId : Int) (values : List Value) :
    Unaware φ (Tagging.change remove clientId values) := by
  refine .bind (.lift _) fun ids => ?_
  refine .bind (unaware_taggedClient clientId) fun client => ?_
  cases client with
  | none => exact .pure _
  | some client =>
    simp only
    split
    · exact .pure _
    · refine .bind (unaware_existing ids) fun tags => ?_
      refine .bind (.modify fun s => ?_) fun _ => .pure _
      cases remove <;> rfl

/-! ## The log -/

section

variable [Spared φ Run]

theorem unaware_openRun (now : Moment) (automationId conversationId : Int) (clientId : Option Int)
    (triggerData : Value) :
    Unaware φ (RunLog.openRun now automationId conversationId clientId triggerData) :=
  .bind (unaware_need _) fun _ => .bind (unaware_fit _) fun _ => .bind (unaware_fit _) fun _ =>
    .bind (unaware_fit? _) fun _ => .bind (unaware_add _) fun _ => .pure _

theorem unaware_append (now : Moment) (id : Int) (stepId kind : String) :
    Unaware φ (RunLog.append now id stepId kind) := by
  refine .bind (unaware_load Run id) fun found => ?_
  cases found with
  | none => exact .pure _
  | some r =>
    dsimp only
    split
    · exact .pure _
    · exact .bind (.lift _) fun _ => unaware_edit Run id _

theorem unaware_finish (now : Moment) (id : Int) (how : RunEnd) :
    Unaware φ (RunLog.finish now id how) := by
  refine .bind (unaware_load Run id) fun found => ?_
  cases found with
  | none => exact .pure _
  | some r =>
    dsimp only
    split
    · exact .pure _
    · exact unaware_edit Run id _

end

/-! ## Flows -/

/-- Hands flows out; if there are any, the table of steps has to be there. -/
def handOut (flows : List Flow) : Transaction (List Flow) := do
  if !flows.isEmpty then need .automationSteps
  return flows

theorem candidates_bare (trigger : TriggerKind) (channelId : Int) :
    List.map Flow.bare <$> Flow.candidates trigger channelId = (do
      need .automations
      fit channelId
      let s ← get
      handOut (((Flow.candidatesIn s trigger channelId).map (Flow.ofAutomation s)).map
        Flow.bare)) := by
  unfold Flow.candidates
  rw [map_bind]
  refine bind_congr fun _ => ?_
  rw [map_bind]
  refine bind_congr fun _ => ?_
  rw [map_bind]
  refine bind_congr fun s => ?_
  cases Flow.candidatesIn s trigger channelId with
  | nil => rfl
  | cons a rest =>
    show List.map Flow.bare <$> (do need .automationSteps; return _) = do
      need .automationSteps
      return _
    rw [map_bind]
    rfl

theorem unaware_candidates (trigger : TriggerKind) (channelId : Int) :
    Unaware φ (List.map Flow.bare <$> Flow.candidates trigger channelId) := by
  rw [candidates_bare]
  refine .bind (unaware_need _) fun _ => .bind (unaware_fit _) fun _ => ?_
  refine .get_bind (fun s => ?_) fun s => ?_
  · rw [(s.sameFlows_retouched φ).candidates]
  · unfold handOut
    split
    · exact .bind (unaware_need _) fun _ => .pure _
    · exact .bind (.pure _) fun _ => .pure _

theorem matchingAll_bare (event : Event) (trigger : TriggerKind) (rest : List TriggerKind) :
    List.map Flow.bare <$> Flow.matchingAll event (trigger :: rest) = (do
      let flows ← List.map Flow.bare <$> Flow.candidates trigger event.channelId
      let accepted ← Flow.accepting event trigger flows
      return accepted ++ (← List.map Flow.bare <$> Flow.matchingAll event rest)) := by
  rw [Flow.matchingAll, map_bind, bind_map_left]
  refine bind_congr fun flows => ?_
  rw [Flow.accepting_bare]
  cases Flow.accepting event trigger flows with
  | error fault => rfl
  | ok accepted =>
    show List.map Flow.bare <$> (do return accepted ++ (← Flow.matchingAll event rest))
      = (do return accepted.map Flow.bare ++ (← List.map Flow.bare <$> Flow.matchingAll event rest))
    rw [map_bind, bind_map_left]
    refine bind_congr fun others => ?_
    rw [map_pure, List.map_append]

theorem unaware_matchingAll (event : Event) :
    ∀ triggers, Unaware φ (List.map Flow.bare <$> Flow.matchingAll event triggers)
  | [] => .pure _
  | trigger :: rest => by
    rw [matchingAll_bare]
    exact .bind (unaware_candidates trigger _) fun _ => .bind (.lift _) fun _ =>
      .bind (unaware_matchingAll event rest) fun _ => .pure _

/-- The flows that an event is for are the same but for how they are drawn. -/
theorem unaware_matching (event : Event) :
    Unaware φ (List.map Flow.bare <$> Flow.matching event) := unaware_matchingAll event _

/-- Hands a flow out, if there is one; then the table of steps has to be there. -/
def handOut? : Option Flow → Transaction (Option Flow)
  | none => return none
  | some flow => do
    need .automationSteps
    return some flow

theorem loadFlow_bare (id : Int) : Option.map Flow.bare <$> Flow.load? id = (do
    need .automations
    fit id
    let s ← get
    handOut? ((s.find? Automation id).map fun a => (Flow.ofAutomation s a).bare)) := by
  unfold Flow.load? load
  simp only [map_bind, bind_assoc]
  refine bind_congr fun _ => bind_congr fun _ => ?_
  refine StateT.ext fun s => ?_
  simp only [StateT.run_bind, StateT.run_get, pure_bind]
  cases s.find? Automation id with
  | none => rfl
  | some a =>
    simp only [Option.map_some, handOut?, StateT.run_bind, StateT.run_map, run_need]
    split <;> rfl

/-- So is the flow of an automation's id. -/
theorem unaware_loadFlow (id : Int) : Unaware φ (Option.map Flow.bare <$> Flow.load? id) := by
  rw [loadFlow_bare]
  refine .bind (unaware_need _) fun _ => .bind (unaware_fit _) fun _ => ?_
  refine .get_bind (fun s => ?_) fun s => ?_
  · rw [(s.sameFlows_retouched φ).found]
  · cases (s.find? Automation id).map fun a => (Flow.ofAutomation s a).bare with
    | none => exact .pure _
    | some flow => exact .bind (unaware_need _) fun _ => .pure _

end Transaction

end Deskflow
