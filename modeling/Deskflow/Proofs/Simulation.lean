import Deskflow.Proofs.RunIsolation
import Deskflow.Proofs.Retouch

/-!
# Two operations abreast

Two operations are abreast, each in a world of its own, if they come to the same there and leave
worlds behind in which others can go on abreast. The worlds may differ in their stores, by a
likeness (`Store.Likeness`): a relation that nothing about the store tells apart which steps have to
do with, neither the ways to write the log of runs nor what is unaware of a retouch.

Sequences are abreast if their parts are. So are steps, executions and whole events, each with
itself and, where two handlers of changes of tags agree, with the same under the other handler.

* `Abreast.bind`, `Abreast.unaware`, `Abreast.of_storeless`: how operations come to be abreast.
* `abreast_runAction`, `abreast_execute`, `abreast_dispatchWith`: steps, executions and events.
* `agree_handler`: the handlers that executions are handed agree with themselves.
-/

namespace Deskflow

/-! ## Transactions -/

namespace Transaction

variable {α β : Type} {T : Store → Store → Prop}

/-- Two outcomes are the same, with stores that are alike. -/
inductive SameOutcome (T : Store → Store → Prop) :
    Except Fault (α × Store) → Except Fault (α × Store) → Prop
  | fault (fault : Fault) : SameOutcome T (.error fault) (.error fault)
  | value (a : α) {s t : Store} (h : T s t) : SameOutcome T (.ok (a, s)) (.ok (a, t))

/-- Two transactions come to the same in stores that are alike, and leave such stores. -/
def Abreast (T : Store → Store → Prop) (x y : Transaction α) : Prop :=
  ∀ s t, T s t → SameOutcome T (x.run s) (y.run t)

theorem Abreast.pure (a : α) : Abreast T (Pure.pure a) (Pure.pure a) := fun _ _ h => .value a h

theorem Abreast.bind {x y : Transaction α} {f g : α → Transaction β} (hx : Abreast T x y)
    (hf : ∀ a, Abreast T (f a) (g a)) : Abreast T (x >>= f) (y >>= g) := by
  intro s t h
  rw [StateT.run_bind, StateT.run_bind]
  have hxy := hx s t h
  generalize x.run s = p at hxy
  generalize y.run t = q at hxy
  cases hxy with
  | fault fault => exact .fault fault
  | value a h => exact hf a _ _ h

end Transaction

/-- Stores of which the one is the other after a retouch, whatever is done to the tables that no
retouch concerns. -/
class Store.Lookalike (T : Store → Store → Prop) : Prop where
  retouched {s t : Store} : T s t →
    ∃ φ, t = s.retouched φ ∧ ∀ u : Store, u.runs = s.runs → T u (u.retouched φ)

/-- Stores that nothing tells apart which steps do, not even what they do to the runs. -/
class Store.Likeness (T : Store → Store → Prop) : Prop extends Store.Lookalike T where
  deletes {s t : Store} (id : Int) (table : Table) :
    T s t → T (s.deleteRow id table) (t.deleteRow id table)
  opens (now : Moment) (automationId conversationId : Int) (clientId : Option Int)
      (triggerData : Value) :
    Transaction.Abreast T (RunLog.openRun now automationId conversationId clientId triggerData)
      (RunLog.openRun now automationId conversationId clientId triggerData)
  appends (now : Moment) (id : Int) (stepId kind : String) :
    Transaction.Abreast T (RunLog.append now id stepId kind) (RunLog.append now id stepId kind)
  finishes (now : Moment) (id : Int) (how : RunEnd) :
    Transaction.Abreast T (RunLog.finish now id how) (RunLog.finish now id how)

/-- What is unaware of a retouch does not tell such stores apart. -/
theorem Transaction.Abreast.unaware {α : Type} {T : Store → Store → Prop} [Store.Lookalike T]
    {x : Transaction α} (hx : ∀ {φ}, x.Unaware φ) : Abreast T x x := by
  intro s t h
  obtain ⟨φ, rfl, hφ⟩ := Store.Lookalike.retouched h
  have hs : x.run s = (x.run s).map fun p => (p.1, p.2.withRuns s.runs) :=
    hx (φ := .relog s.runs) s
  rw [hx]
  cases hr : x.run s with
  | error fault => exact .fault fault
  | ok p =>
    rw [hr] at hs
    have hruns : p.2.runs = s.runs := congrArg (fun p => p.2.runs) (Except.ok.inj hs)
    exact .value p.1 (hφ p.2 hruns)

/-- In the same store a transaction comes to the same. -/
theorem Transaction.Abreast.of_eq {α : Type} (x : Transaction α) : Abreast Eq x x := by
  rintro s _ rfl
  cases x.run s with
  | error fault => exact .fault fault
  | ok p => exact .value p.1 rfl

/-- Stores that are the same are told apart by nothing. -/
instance : Store.Likeness Eq where
  retouched h := ⟨{}, h.symm, fun _ _ => rfl⟩
  deletes _ _ h := h ▸ rfl
  opens _ _ _ _ _ := .of_eq _
  appends _ _ _ _ := .of_eq _
  finishes _ _ _ := .of_eq _

/-! ## Operations -/

/-- Worlds that differ in nothing but their stores, which are alike, and with the guard at `b`. -/
inductive World.Abreast (T : Store → Store → Prop) (b : Bool) (w : World) : World → Prop
  | of_stores {t : Store} (guard : w.memory.tagGuard = b) (stores : T w.store t) :
    World.Abreast T b w { w with store := t }

namespace Work

variable {α β : Type} {T : Store → Store → Prop} {b : Bool}

/-- Two operations ended in the same way, in such worlds. -/
inductive SameEnd (T : Store → Store → Prop) (b : Bool) :
    Except Fault α × World → Except Fault α × World → Prop
  | of_worlds (r : Except Fault α) {w v : World} (h : World.Abreast T b w v) :
    SameEnd T b (r, w) (r, v)

/-- Two operations come to the same in such worlds, and leave such worlds. -/
def Abreast (T : Store → Store → Prop) (b : Bool) (x y : Work α) : Prop :=
  ∀ w v, World.Abreast T b w v → SameEnd T b (x.runOn w) (y.runOn v)

theorem Abreast.pure (a : α) : Abreast T b (Pure.pure a) (Pure.pure a) :=
  fun _ _ h => .of_worlds (.ok a) h

theorem Abreast.throw (fault : Fault) :
    Abreast T b (throw fault : Work α) (throw fault) := fun _ _ h => .of_worlds (.error fault) h

theorem Abreast.lift (e : Except Fault α) : Abreast T b (liftM e) (liftM e) :=
  fun _ _ h => .of_worlds e h

theorem Abreast.bind {x y : Work α} {f g : α → Work β} (hx : Abreast T b x y)
    (hf : ∀ a, Abreast T b (f a) (g a)) : Abreast T b (x >>= f) (y >>= g) := by
  intro w v h
  have hxy := hx w v h
  rw [runOn_bind, runOn_bind]
  generalize x.runOn w = p at hxy
  generalize y.runOn v = q at hxy
  obtain ⟨r, h⟩ := hxy
  cases r with
  | error fault => exact .of_worlds (.error fault) h
  | ok a => exact hf a _ _ h

theorem Abreast.returning {x y : Work α} (hx : Abreast T b x y) {g : α → β} :
    Abreast T b (x >>= fun a => Pure.pure (g a)) (y >>= fun a => Pure.pure (g a)) :=
  hx.bind fun a => .pure (g a)

/-- What is done in view of the worlds. -/
theorem Abreast.get_bind {f g : World → Work β}
    (h : ∀ w v, World.Abreast T b w v → Abreast T b (f w) (g v)) :
    Abreast T b (get >>= f) (get >>= g) := fun w v hw => h w v hw w v hw

theorem Abreast.attempt {x y : Work α} (h : Abreast T b x y) :
    Abreast T b (attempt x) (attempt y) := by
  intro w v hw
  have hxy := h w v hw
  rw [run_attempt, run_attempt]
  generalize x.runOn w = p at hxy
  generalize y.runOn v = q at hxy
  obtain ⟨r, hnext⟩ := hxy
  exact .of_worlds (.ok r) hnext

/-- What has nothing to do with the store is abreast with itself, if it leaves the guard alone. -/
theorem Abreast.of_storeless {x : Work α}
    (hx : ∀ w t, x.runOn { w with store := t }
      = ((x.runOn w).1, { (x.runOn w).2 with store := t }))
    (hw : ∀ w, (x.runOn w).2.store = w.store
      ∧ (x.runOn w).2.memory.tagGuard = w.memory.tagGuard) : Abreast T b x x := by
  rintro w _ @⟨t, hguard, hstores⟩
  rw [hx w t]
  exact .of_worlds _ (.of_stores ((hw w).2.trans hguard) ((hw w).1 ▸ hstores))

theorem Abreast.transact {t u : Moment → Transaction α}
    (h : ∀ now, Transaction.Abreast T (t now) (u now)) :
    Abreast T b (transact t) (transact u) := by
  rintro w _ @⟨s, hguard, hstores⟩
  have htu := h w.clock w.store s hstores
  simp only [run_transact]
  generalize (t w.clock).run w.store = p at htu
  generalize (u w.clock).run s = q at htu
  cases htu with
  | fault fault => exact .of_worlds (.error fault) (.of_stores hguard hstores)
  | value a h => exact .of_worlds (.ok a) (.of_stores hguard h)

/-- Guarded work is abreast if it is with the guard up. -/
theorem Abreast.guarded {x y : Work α} (h : Abreast T true x y) :
    Abreast T b (guarded x) (guarded y) := by
  rintro w _ @⟨s, hguard, hstores⟩
  have hxy := h { w with memory := { w.memory with tagGuard := true } } _ (.of_stores rfl hstores)
  simp only [Work.guarded, runOn_ofFunction]
  generalize x.runOn _ = p at hxy
  generalize y.runOn _ = q at hxy
  obtain ⟨r, @⟨s', -, hstores'⟩⟩ := hxy
  exact .of_worlds r (.of_stores hguard hstores')

theorem abreast_request (r : Request) : Abreast T b (request r) (request r) := by
  refine .bind (.of_storeless (fun _ _ => rfl) fun _ => ⟨rfl, rfl⟩) fun _ => ?_
  refine .get_bind fun w v h => ?_
  obtain @⟨t, -, -⟩ := h
  dsimp only
  split
  · exact .throw _
  · exact .pure _

theorem abreast_sendRequest (r : Request) : Abreast T b (sendRequest r) (sendRequest r) := by
  refine .bind (abreast_request r) fun _ => .get_bind fun w v h => ?_
  obtain @⟨t, -, -⟩ := h
  exact .returning (.of_storeless (fun _ _ => rfl) fun _ => ⟨rfl, rfl⟩)

theorem Abreast.reported {x y : Work Sent} (h : Abreast T b x y) :
    Abreast T b (reported x) (reported y) := by
  refine .bind h.attempt fun r => ?_
  split
  · exact .pure _
  · exact .pure _
  · exact .throw _

theorem abreast_deliverLive (settings : Settings) (d : Delivery) :
    Abreast T b (deliverLive settings d) (deliverLive settings d) := by
  refine .bind (.lift _) fun token => ?_
  split
  · refine .get_bind fun w v h => ?_
    obtain @⟨t, -, -⟩ := h
    dsimp only
    split
    · exact .reported (abreast_sendRequest _)
    · exact .pure _
  · exact .pure _

variable [Store.Likeness T]

/-- What is unaware of a retouch is abreast with itself. -/
theorem Abreast.unaware {t : Transaction α} (h : ∀ {φ}, t.Unaware φ) :
    Abreast T b (query t) (query t) := .transact fun _ => .unaware h

theorem Abreast.told {t : Moment → Transaction α} (h : ∀ now {φ}, (t now).Unaware φ) :
    Abreast T b (Work.transact t) (Work.transact t) := .transact fun now => .unaware (h now)

omit [Store.Likeness T] in
theorem query_map (p : α → β) (t : Transaction α) : query (p <$> t) = p <$> query t := by
  refine funext fun w => ?_
  show (query (p <$> t)).runOn w = (p <$> query t).runOn w
  rw [map_eq_pure_bind p (query t), runOn_bind, query, query, run_transact, run_transact,
    StateT.run_map]
  cases t.run w.store <;> rfl

/-- What is looked up is the same but for what `p` leaves out of it, before operations that do not
depend on that. -/
theorem Abreast.lookUp {t : Transaction α} {p : α → α}
    (ht : ∀ {φ}, Transaction.Unaware φ (p <$> t)) {f g : α → Work β} (hf : ∀ a, f (p a) = f a)
    (hg : ∀ a, g (p a) = g a) (hfg : ∀ a, Abreast T b (f a) (g a)) :
    Abreast T b (query t >>= f) (query t >>= g) := by
  have hleft (h : α → Work β) (hh : ∀ a, h (p a) = h a) :
      query t >>= h = query (p <$> t) >>= h := by
    rw [query_map, bind_map_left]
    simp only [hh]
  rw [hleft f hf, hleft g hg]
  exact .bind (.unaware ht) hfg

theorem Abreast.lookUp_self {t : Transaction α} {p : α → α}
    (ht : ∀ {φ}, Transaction.Unaware φ (p <$> t)) {f : α → Work β} (hf : ∀ a, f (p a) = f a)
    (h : ∀ a, Abreast T b (f a) (f a)) : Abreast T b (query t >>= f) (query t >>= f) :=
  .lookUp ht hf hf h

/-- A script that deletes a row deletes it in both stores. -/
theorem abreast_rehearse : Abreast T b rehearse rehearse := by
  rintro w _ @⟨t, hguard, hstores⟩
  obtain ⟨answer, rehearsal, deletion, hanswer⟩ : ∃ answer rehearsal,
      ∃ deletion : Option (Int × Table), ∀ s, w.rehearsal.answer s
        = (answer, rehearsal, deletion.elim s fun d => s.deleteRow d.1 d.2) := by
    rcases w.rehearsal with ⟨_ | ⟨outcome, script⟩, nextId⟩
    · exact ⟨_, _, none, fun _ => rfl⟩
    · cases outcome with
      | sentAfterDeleting table id => exact ⟨_, _, some (id, table), fun _ => rfl⟩
      | _ => exact ⟨_, _, none, fun _ => rfl⟩
  rw [rehearse, runOn_ofFunction, runOn_ofFunction]
  dsimp only
  rw [hanswer, hanswer]
  refine .of_worlds answer (.of_stores hguard ?_)
  cases deletion with
  | none => exact hstores
  | some d => exact Store.Likeness.deletes d.1 d.2 hstores

theorem abreast_deliver (settings : Settings) (d : Delivery) :
    Abreast T b (deliver settings d) (deliver settings d) := by
  rintro w _ @⟨t, hguard, hstores⟩
  have hway : Abreast T b (if w.live then deliverLive settings d else rehearse)
      (if w.live then deliverLive settings d else rehearse) := by
    split
    · exact abreast_deliverLive settings d
    · exact abreast_rehearse
  have hmade := hway w _ (.of_stores hguard hstores)
  simp only [deliver, runOn_ofFunction]
  generalize (if w.live then deliverLive settings d else rehearse).runOn w = p at hmade
  generalize (if w.live then deliverLive settings d else rehearse).runOn _ = q at hmade
  obtain ⟨r, @⟨t', hguard', hstores'⟩⟩ := hmade
  exact .of_worlds r (.of_stores hguard' hstores')

end Work

namespace Engine

open Work Transaction

variable {settings : Settings} {ctx : Context} {T : Store → Store → Prop} [Store.Likeness T]
  {b : Bool}

/-! ## Steps -/

theorem abreast_threadOf : Work.Abreast T b (threadOf ctx) (threadOf ctx) := by
  refine .bind (.unaware (unaware_loadThread _)) fun thread => ?_
  cases thread with
  | none => exact .throw _
  | some thread => exact .pure _

theorem abreast_loadFacts (c : Int) (clientId : Option Int) :
    Work.Abreast T b (loadFacts c clientId) (loadFacts c clientId) := by
  cases clientId with
  | none => exact .returning (.unaware (unaware_latestText c))
  | some id =>
    exact .bind (.unaware (unaware_idsOfClient id)) fun _ =>
      .bind (.unaware (unaware_latestText c)) fun _ =>
        .returning (.unaware (unaware_countOfClient id))

omit [Store.Likeness T] in
theorem abreast_channelOf (thread : Thread) :
    Work.Abreast T b (channelOf thread) (channelOf thread) := by
  unfold channelOf
  split
  · exact .pure _
  · refine .get_bind fun w v h => ?_
    obtain @⟨t, -, -⟩ := h
    exact .throw _

theorem abreast_send (thread : Thread) (chat : Int) (content : Content)
    (keyboard : List Callback.Key) (outgoing : Outgoing) :
    Work.Abreast T b (send settings thread chat content keyboard outgoing)
      (send settings thread chat content keyboard outgoing) := by
  refine .bind (abreast_channelOf thread) fun channel => ?_
  refine .bind (abreast_deliver settings _) fun sent => ?_
  cases sent with
  | none => exact .pure _
  | some sent => exact .returning (.told fun _ => unaware_addOutgoing _ _ _)

theorem abreast_withChat {act : Thread → Int → Work Unit}
    (h : ∀ thread chat, Work.Abreast T b (act thread chat) (act thread chat)) :
    Work.Abreast T b (withChat ctx act) (withChat ctx act) := by
  refine .bind abreast_threadOf fun thread => .bind (.lift _) fun chat => ?_
  cases chat with
  | none => exact .pure _
  | some chat => exact h thread chat

theorem abreast_addNote (c : Conversation) (note : Outgoing) :
    Work.Abreast T b (addNote c note) (addNote c note) :=
  .returning (.told fun _ => unaware_addOutgoing _ _ _)

theorem abreast_targetTags (targets : TagTargets) (create : Bool) :
    Work.Abreast T b (targetTags targets create) (targetTags targets create) := by
  have existing : Work.Abreast T b (tagsOfIds targets.ids) (tagsOfIds targets.ids) := by
    unfold tagsOfIds
    split
    · exact .pure _
    · exact .unaware (unaware_tagsNamed _)
  have named : Work.Abreast T b (tagsOfName create targets.name)
      (tagsOfName create targets.name) := by
    cases targets.name with
    | none => exact .pure _
    | some name => exact .returning (.unaware (unaware_resolve _ _ _))
  refine .bind existing fun tags => ?_
  split
  · exact .pure _
  · exact .returning named

theorem abreast_assign (operatorId : Option Int) :
    Work.Abreast T b (assign ctx operatorId) (assign ctx operatorId) := by
  unfold assign
  split
  · refine .bind abreast_threadOf fun thread => ?_
    exact .bind (.unaware (unaware_assignOperator _ _)) fun name => abreast_addNote _ _
  · exact .pure _

/-- Two handlers do the same about changes of tags, where the guard is at `b`. -/
def Agree (T : Store → Store → Prop) (b : Bool) (h k : TagHandler) : Prop :=
  ∀ kind, kind.isTagEvent = true → ∀ c channel tags,
    Work.Abreast T b (h kind c channel tags) (k kind c channel tags)

variable {h k : TagHandler}

theorem abreast_changeTags (agree : Agree T b h k) {kind : EventKind}
    (hkind : kind.isTagEvent = true) (targets : TagTargets) :
    Work.Abreast T b (changeTags h ctx kind targets) (changeTags k ctx kind targets) := by
  refine .bind abreast_threadOf fun thread => ?_
  dsimp only
  split
  · refine .bind (abreast_targetTags _ _) fun ids => ?_
    split
    · exact .pure _
    · refine .bind (.unaware (unaware_change _ _ _)) fun changed => ?_
      split
      · exact .pure _
      · exact .bind (abreast_addNote _ _) fun _ => agree kind hkind _ _ _
  · exact .pure _

/-- What is known when a condition is judged, if it does not hold. -/
def unmet? (ctx : Context) (c : Condition) : Work (Option Facts) := do
  let thread ← threadOf ctx
  let facts ← loadFacts ctx.conversationId thread.conversation.clientId
  return if ← c.holds facts then none else some facts

/-- Stops at a step, for a condition that does not hold in view of what is known. -/
def stopAt (ctx : Context) (c : Condition) (facts : Facts) (stepId : String) : Work Progress := do
  query (Slot.save ctx.conversationId (ctx.suspension stepId c))
  logPause (ctx.pause stepId c facts)
  return .suspended

/-- A condition is judged in the same way wherever the run stops then. -/
theorem awaitCondition_eq (ctx : Context) (stepId : String) (c : Condition) :
    awaitCondition ctx stepId c = (do
      match ← unmet? ctx c with
      | none => return .goesOn
      | some facts => stopAt ctx c facts stepId) := by
  unfold awaitCondition unmet?
  simp only [bind_assoc]
  congr 1
  funext thread
  congr 1
  funext facts
  congr 1
  funext holds
  cases holds <;> rfl

theorem abreast_unmet? (c : Condition) : Work.Abreast T b (unmet? ctx c) (unmet? ctx c) :=
  .bind abreast_threadOf fun _ => .bind (abreast_loadFacts _ _) fun _ => .returning (.lift _)

theorem abreast_awaitCondition (stepId : String) (c : Condition) :
    Work.Abreast T b (awaitCondition ctx stepId c) (awaitCondition ctx stepId c) := by
  rw [awaitCondition_eq]
  refine .bind (abreast_unmet? c) fun facts => ?_
  cases facts with
  | none => exact .pure _
  | some facts =>
    exact .bind (.unaware (unaware_fill _ _)) fun _ =>
      .returning (.of_storeless (fun _ _ => rfl) fun _ => ⟨rfl, rfl⟩)

/-- A step that is no condition does the same whatever it would stop at. -/
theorem abreast_runAction_of_ne (agree : Agree T b h k) (owner owner' : String) (head : StepHead)
    {action : StepAction} (hcond : ∀ c, action ≠ .condition c) :
    Work.Abreast T b (runAction settings h ctx owner head action)
      (runAction settings k ctx owner' head action) := by
  cases action with
  | condition c => exact absurd rfl (hcond c)
  | sendText text =>
    refine .returning ?_
    unfold sendText
    split
    · exact .pure _
    · exact abreast_withChat fun _ _ => abreast_send _ _ _ _ _
  | sendButtons text imageUrl buttons =>
    refine .returning ?_
    unfold sendButtons
    split
    · exact .pure _
    · exact abreast_withChat fun _ _ => abreast_send _ _ _ _ _
  | sendMedia kind ref caption =>
    refine .returning ?_
    unfold sendMedia
    split
    · exact .pure _
    · exact abreast_withChat fun _ _ => abreast_send _ _ _ _ _
  | delay seconds =>
    simp only [runAction]
    split
    · exact .returning (.of_storeless (fun _ _ => rfl) fun _ => ⟨rfl, rfl⟩)
    · exact .pure _
  | addTag targets => exact .returning (abreast_changeTags agree rfl targets)
  | removeTag targets => exact .returning (abreast_changeTags agree rfl targets)
  | assignOperator operatorId => exact .returning (abreast_assign operatorId)
  | close => exact .returning (.unaware (unaware_setStatus _ _))
  | unknown kind => exact .pure _

theorem abreast_runAction (agree : Agree T b h k) (owner : String) (head : StepHead)
    (action : StepAction) :
    Work.Abreast T b (runAction settings h ctx owner head action)
      (runAction settings k ctx owner head action) := by
  by_cases hcond : ∃ c, action = .condition c
  · obtain ⟨c, rfl⟩ := hcond
    exact abreast_awaitCondition owner c
  · exact abreast_runAction_of_ne agree owner owner head fun c hc => hcond ⟨c, hc⟩

theorem abreast_begin (head : StepHead) : Work.Abreast T b (begin ctx head) (begin ctx head) :=
  .transact fun now => Store.Likeness.appends now ctx.runId head.stepId head.kind

theorem abreast_playBeat (agree : Agree T b h k) (beat : Beat) :
    Work.Abreast T b (playBeat settings h ctx beat) (playBeat settings k ctx beat) := by
  unfold playBeat
  cases beat.action with
  | none => exact .pure _
  | some action => exact abreast_runAction agree beat.owner beat.head action

theorem abreast_runBeats (agree : Agree T b h k) (beats : List Beat) :
    Work.Abreast T b (runBeats settings h ctx beats) (runBeats settings k ctx beats) := by
  induction beats with
  | nil => exact .pure _
  | cons beat rest ih =>
    refine .bind (.bind (abreast_begin beat.head) fun _ => abreast_playBeat agree beat) fun p => ?_
    cases p with
    | goesOn => exact ih
    | suspended => exact .pure _

/-! ## Executions and events -/

theorem abreast_execute (agree : Agree T b h k) (flow : Flow) (c : Int) (data : Value)
    (instead : Option (List Step)) :
    Work.Abreast T b (execute settings h flow c data instead)
      (execute settings k flow c data instead) := by
  refine .bind (.unaware (unaware_loadThread c)) fun thread => ?_
  rcases thread with _ | thread
  · exact .pure _
  refine .bind (.transact fun now => Store.Likeness.opens now _ _ _ _) fun runId => ?_
  have carries : ∀ steps, Work.Abreast T b
      (do endRun runId (← attempt
            (runSteps settings h ⟨flow.automation.id, runId, thread.conversation.id⟩ none steps))
          return some runId)
      (do endRun runId (← attempt
            (runSteps settings k ⟨flow.automation.id, runId, thread.conversation.id⟩ none steps))
          return some runId) := by
    intro steps
    rw [runSteps_eq_runBeats, runSteps_eq_runBeats]
    refine .bind (.attempt (abreast_runBeats agree _)) fun r => ?_
    have concludes : Work.Abreast T b (logConclusion ⟨runId, r⟩) (logConclusion ⟨runId, r⟩) :=
      .of_storeless (fun _ _ => rfl) fun _ => ⟨rfl, rfl⟩
    exact .returning (.bind concludes fun _ =>
      .transact fun now => Store.Likeness.finishes now runId _)
  cases instead with
  | some steps => exact .bind (.pure steps) carries
  | none => exact .bind (.lift flow.steps) carries

omit [Store.Likeness T] in
theorem abreast_recentlyFired (automationId : Int) (event : Event) :
    Work.Abreast T b (recentlyFired settings automationId event)
      (recentlyFired settings automationId event) := by
  unfold recentlyFired
  split
  · exact .pure _
  · exact .of_storeless (fun _ _ => rfl) fun _ => ⟨rfl, rfl⟩

/-- The flows of a tag event are executed with the guard up, all others as it is. -/
theorem abreast_fire {event : Event} (raised : Agree T true h k)
    (asItIs : event.kind.isTagEvent = false → Agree T b h k) (flow : Flow) :
    Work.Abreast T b (fire settings h event flow) (fire settings k event flow) := by
  unfold fire
  dsimp only
  split
  · refine .bind (abreast_recentlyFired _ event) fun fired => ?_
    split
    · exact .pure _
    · exact .guarded (abreast_execute raised flow _ _ _)
  · rename_i hkind
    exact abreast_execute (asItIs (by simpa using hkind)) flow _ _ _

theorem abreast_fireAll {event : Event} (raised : Agree T true h k)
    (asItIs : event.kind.isTagEvent = false → Agree T b h k) (flows : List Flow) :
    Work.Abreast T b (fireAll settings h event flows) (fireAll settings k event flows) := by
  induction flows with
  | nil => exact .pure _
  | cons flow rest ih => exact .bind (abreast_fire raised asItIs flow) fun _ => .returning ih

theorem abreast_dispatchWith {event : Event} (raised : Agree T true h k)
    (asItIs : event.kind.isTagEvent = false → Agree T b h k) :
    Work.Abreast T b (dispatchWith settings h event) (dispatchWith settings k event) :=
  .lookUp (unaware_matching event) (fireAll_bare settings h event) (fireAll_bare settings k event)
    fun flows => abreast_fireAll raised asItIs flows

omit [Store.Likeness T] in
theorem agree_quiet : Agree T b quiet quiet := fun _ _ _ _ _ => .pure _

theorem agree_chained : Agree T b (chained settings) (chained settings) := by
  intro kind hkind c channel tags
  refine .get_bind fun w v h => ?_
  obtain @⟨t, -, -⟩ := h
  dsimp only
  split
  · exact .pure _
  · exact .returning (abreast_dispatchWith agree_quiet fun _ => agree_quiet)

theorem agree_handler (honTags : IsHandler settings h) : Agree T b h h := by
  rcases honTags with rfl | rfl
  · exact agree_quiet
  · exact agree_chained

end Engine

end Deskflow
