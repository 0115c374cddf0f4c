import Deskflow.Proofs.WorkFrame

/-!
# What steps are made of

A step sends something, changes tags and notes which ones, makes a tag, hands the conversation over
and notes that, closes it, or waits, or else it is a condition. `Stepwork R` says that the pieces of
the first kind keep a relation `R`, and then every step that is made of them keeps it, apart from
what becomes of its changes of tags. A piece is told what the step knows when it comes to it: that a
thread was loaded and has a chat, that the message to be kept says what is sent, whose tags are
changed. What a click does is made of two of these pieces, `Clickwork R`.

A relation that cares neither for what the notes say nor for which of the tables beside runs and
messages are changed keeps them by `Sidework R`.

* `Stepwork.of_aside`: what keeps all work aside keeps these pieces.
* `Clickwork.of_service`: clicks keep what concerns nothing but the requests that send messages.
* `keeps_runAction`: any step but a condition.
* `judged_awaitCondition`, `keeps_awaitCondition`: what a condition does.
-/

namespace Deskflow

/-- The words that a delivery carries: a text, or the caption of media. -/
def Content.words : Content → String
  | .text words => words
  | .media _ _ caption => caption

/-- The kind that a message with this content is kept under. -/
def Content.kind : Content → String
  | .text _ => "text"
  | .media kind _ _ => kind.word

/-- The metadata field that tells notes from messages that were sent. -/
def History.noteField : String := "system_action"

/-- What the note about an operator is filed under. -/
def History.handOver : String := "operator_assigned"

/-- A message to be kept says what was sent, and is no note. -/
structure Outgoing.Copies (o : Outgoing) (content : Content) : Prop where
  words : o.content = content.words
  kind : o.kind = content.kind
  plain : o.metadata.has History.noteField = false

namespace Engine

open Work World Transaction

variable (settings : Settings) (ctx : Context)

/-! ## What is read -/

section

variable {R : World → World → Prop} [Std.Refl R] [IsTrans World R]

theorem keeps_loadFacts (conversationId : Int) (clientId : Option Int) :
    Work.Keeps R (loadFacts conversationId clientId) := by
  cases clientId with
  | none => exact Work.Keeps.returning (.reads (reads_latestText _))
  | some id =>
    exact Work.Keeps.bind (.reads (reads_idsOfClient _)) fun _ =>
      Work.Keeps.bind (.reads (reads_latestText _)) fun _ =>
        Work.Keeps.returning (.reads (reads_countOfClient _))

theorem keeps_threadOf : Work.Keeps R (threadOf ctx) := by
  refine Work.Keeps.bind (.reads (reads_loadThread _)) fun thread => ?_
  cases thread with
  | none => exact Work.Keeps.throw _
  | some thread => exact Work.Keeps.pure _

theorem keeps_channelOf (thread : Thread) : Work.Keeps R (channelOf thread) := by
  unfold channelOf
  split
  · exact Work.Keeps.pure _
  · exact Work.Keeps.bind Work.Keeps.get fun _ => Work.Keeps.throw _

end

/-- What was loaded as a thread is the conversation in the store, if there is one, -/
theorem conversation_of_loadThread {c : Int} {w v : World} {found : Option Thread}
    (h : (query (Thread.load? c)).runOn w = (.ok found, v)) :
    v = w ∧ w.store.find? Conversation c = found.map Thread.conversation := by
  obtain ⟨s, hr, rfl⟩ := runOn_query_eq_ok.mp h
  obtain rfl := reads_loadThread c w.store found s hr
  exact ⟨rfl, (found_of_loadThread hr).1⟩

/-- with the channel that it is on. -/
theorem channel_of_loadThread {c : Int} {w v : World} {thread : Thread}
    (h : (query (Thread.load? c)).runOn w = (.ok (some thread), v)) :
    thread.channel = w.store.find? Channel thread.conversation.channelId := by
  obtain ⟨s, hr, rfl⟩ := runOn_query_eq_ok.mp h
  exact (found_of_loadThread hr).2 thread rfl

theorem find?_of_loadThread {c : Int} {w v : World} {thread : Thread}
    (h : (query (Thread.load? c)).runOn w = (.ok (some thread), v)) :
    v = w ∧ w.store.find? Conversation c = some thread.conversation :=
  conversation_of_loadThread h

theorem aside_send (thread : Thread) (chat : Int) (content : Content)
    (keyboard : List Callback.Key) (outgoing : Outgoing) :
    Work.Keeps Aside (send settings thread chat content keyboard outgoing) := by
  refine Work.Keeps.bind (keeps_channelOf thread) fun channel => ?_
  refine Work.Keeps.bind (aside_deliver settings _) fun sent => ?_
  cases sent with
  | none => exact Work.Keeps.pure _
  | some sent =>
    exact Work.Keeps.returning (aside_transact fun _ => aside_addOutgoing _ _ _)

theorem aside_addNote (c : Conversation) (note : Outgoing) : Work.Keeps Aside (addNote c note) :=
  Work.Keeps.returning (aside_transact fun _ => aside_addOutgoing _ _ _)

/-! ## The pieces -/

/-- Attaches tags to the client of a conversation, or detaches them from it, and notes which ones;
tells them. -/
def relabel (c : Conversation) (clientId : Int) (kind : EventKind) (values : List Value) :
    Work (List Tag) := do
  let changed ← query (Tagging.change (kind = .tagRemoved) clientId values)
  if changed.isEmpty then return []
  addNote c (tagNote kind changed)
  return changed

/-- What the pieces keep that clicks in a conversation are made of. -/
structure Clickwork (settings : Settings) (c : Int) (R : World → World → Prop) : Prop where
  /-- The tags that are changed are those of the client of the conversation. -/
  relabels : ∀ {w k clientId kind}, kind.isTagEvent = true → w.store.find? Conversation c = some k →
    k.clientId = some clientId → ∀ values, R w ((relabel k clientId kind values).runOn w).2
  /-- What is sent goes to the chat of the conversation, and is kept as it was sent. -/
  sends : ∀ {w thread chat content outgoing} (keyboard : List Callback.Key),
    (query (Thread.load? c)).runOn w = (.ok (some thread), w) →
    thread.conversation.chatId = .ok (some chat) → Outgoing.Copies outgoing content →
    R w ((send settings thread chat content keyboard outgoing).runOn w).2

/-- What cares neither for the store, nor for the script and the record of deliveries, is kept by
clicks if it is kept while messages are sent. -/
theorem Clickwork.of_service {R : World → World → Prop} [Std.Refl R] [IsTrans World R]
    {settings : Settings} (c : Int)
    (stores : ∀ (w : World) (store : Store) (rehearsal : Rehearsal)
      (deliveries : List (Delivery × Answer)), R w { w with store, rehearsal, deliveries })
    (serves : ∀ (w : World) (sent : List Request) (nextId : Int),
      (∀ r ∈ sent, r.method ∈ Service.sendMethods) →
        R w { w with
          requests := w.requests ++ sent
          service := { w.service with nextId := nextId } }) :
    Clickwork settings c R := by
  have transacts {α : Type} (t : Moment → Transaction α) : Work.Keeps R (transact t) :=
    Work.Keeps.transact fun w _ s _ => stores w s w.rehearsal w.deliveries
  have rehearses : Work.Keeps R rehearse := fun w => stores w _ _ w.deliveries
  have delivers (d : Delivery) : Work.Keeps R (deliver settings d) := fun w =>
    IsTrans.trans _ _ _ (keeps_answer serves rehearses settings d w) (stores _ _ _ _)
  refine ⟨fun _ _ _ values => ?_, fun _ _ _ _ => ?_⟩
  · refine Work.Keeps.bind (transacts _) (fun changed => ?_) _
    split
    · exact Work.Keeps.pure _
    · exact Work.Keeps.bind (Work.Keeps.returning (transacts _)) fun _ => Work.Keeps.pure _
  · refine Work.Keeps.bind (keeps_channelOf _) (fun channel => ?_) _
    refine Work.Keeps.bind (delivers _) fun sent => ?_
    cases sent with
    | none => exact Work.Keeps.pure _
    | some sent => exact Work.Keeps.returning (transacts _)

/-- What the pieces keep that steps in a conversation are made of, apart from conditions and from
what becomes of changes of tags. -/
structure Stepwork (settings : Settings) (c : Int) (R : World → World → Prop) : Prop
    extends Clickwork settings c R where
  /-- A tag is made for a name that no tag has. -/
  makes : ∀ {w s} {tag added : Tag}, (∀ t ∈ w.store.tags, t.name ≠ tag.name) →
    (add tag).run w.store = .ok (added, s) → R w { w with store := s }
  /-- The conversation gets a status, and perhaps another operator. -/
  edits : ∀ w (operator : Option Int → Option Int) status,
    R w { w with store := w.store.modify Conversation c fun k =>
      { k with operatorId := operator k.operatorId, status } }
  /-- It is noted who the operator is. -/
  notes : ∀ {k} content operatorId, Row.id k = c →
    Work.Keeps R (addNote k
      (History.note content History.handOver [("operator_id", .int operatorId)]))
  waits : ∀ {seconds}, 0 ≤ seconds → Work.Keeps R (wait seconds)

/-- What these pieces keep where it does not matter what the notes say, nor which tables are changed
that have nothing to do with runs or messages. -/
structure Sidework (settings : Settings) (c : Int) (R : World → World → Prop) : Prop where
  stores : ∀ {w s}, w.store.Beside s → R w { w with store := s }
  notes : ∀ k content action details,
    Work.Keeps R (addNote k (History.note content action details))
  waits : ∀ {seconds}, 0 ≤ seconds → Work.Keeps R (wait seconds)
  /-- What is sent goes to the chat of the conversation, and is kept as it was sent. -/
  sends : ∀ {w thread chat content outgoing} (keyboard : List Callback.Key),
    (query (Thread.load? c)).runOn w = (.ok (some thread), w) →
    thread.conversation.chatId = .ok (some chat) → Outgoing.Copies outgoing content →
    R w ((send settings thread chat content keyboard outgoing).runOn w).2

theorem Sidework.stepwork {settings : Settings} {c : Int} {R : World → World → Prop} [Std.Refl R]
    [IsTrans World R] (work : Sidework settings c R) : Stepwork settings c R where
  relabels _ _ _ values := by
    refine Work.Keeps.bind (Work.Keeps.transact fun w a s hr =>
      work.stores (beside_change _ _ values w.store a s hr)) (fun changed => ?_) _
    split
    · exact Work.Keeps.pure _
    · exact Work.Keeps.returning (work.notes _ _ _ _)
  sends := work.sends
  makes _ h := work.stores (beside_add_tag _ _ _ _ h)
  edits w _ _ :=
    work.stores ⟨Store.Aside.modify_conversation w.store c fun _ => rfl, rfl, rfl⟩
  notes _ _ _ := work.notes _ _ _ _
  waits := work.waits

theorem sidework_aside (c : Int) : Sidework settings c Aside where
  stores := .of_beside
  notes _ _ _ _ := aside_addNote _ _
  waits := aside_wait
  sends _ _ _ _ := aside_send settings _ _ _ _ _ _

/-- What keeps all work aside is kept by the pieces of steps. -/
theorem Stepwork.of_aside {c : Int} {R : World → World → Prop}
    (aside : ∀ {w v}, Aside w v → R w v) : Stepwork settings c R :=
  have work := (sidework_aside settings c).stepwork
  { relabels := fun hkind hk hclient values => aside (work.relabels hkind hk hclient values)
    sends := fun keyboard loaded hchat hcopies => aside (work.sends keyboard loaded hchat hcopies)
    makes := fun hnew h => aside (work.makes hnew h)
    edits := fun w operator status => aside (work.edits w operator status)
    notes := fun content operatorId hk w => aside (work.notes content operatorId hk w)
    waits := fun h w => aside (work.waits h w) }

/-! ## Steps -/

section

variable {settings ctx} {R : World → World → Prop} [Std.Refl R] [IsTrans World R]

theorem loaded_of_threadOf {thread : Thread} {w v : World}
    (h : (threadOf ctx).runOn w = (.ok thread, v)) :
    (query (Thread.load? ctx.conversationId)).runOn w = (.ok (some thread), v) := by
  unfold threadOf at h
  obtain ⟨found, m, hload, h⟩ := runOn_bind_eq_ok.mp h
  cases found with
  | none => cases h
  | some thread =>
    cases h
    exact hload

/-- A change of tags, up to the event that it is; none if no tag is changed. -/
def retag (ctx : Context) (kind : EventKind) (targets : TagTargets) : Work (Option Event) := do
  let conversation := (← threadOf ctx).conversation
  let some clientId := conversation.clientId | return none
  let removes := kind = .tagRemoved
  let ids ← targetTags targets !removes
  if ids.isEmpty then return none
  let changed ← query (Tagging.change removes clientId (ids.map .int))
  if changed.isEmpty then return none
  addNote conversation (tagNote kind changed)
  return some
    { kind
      conversationId := conversation.id
      channelId := conversation.channelId
      tagIds := changed.map Tag.id }

/-- A change of tags is made of the piece that changes and notes them. -/
theorem retag_eq_relabel (ctx : Context) (kind : EventKind) (targets : TagTargets) :
    retag ctx kind targets = (do
      let conversation := (← threadOf ctx).conversation
      let some clientId := conversation.clientId | return none
      let ids ← targetTags targets (!decide (kind = .tagRemoved))
      if ids.isEmpty then return none
      let changed ← relabel conversation clientId kind (ids.map .int)
      return if changed.isEmpty then none
        else some
          { kind
            conversationId := conversation.id
            channelId := conversation.channelId
            tagIds := changed.map Tag.id }) := by
  unfold retag relabel
  congr 1
  funext thread
  dsimp only
  split
  · congr 1
    funext ids
    split
    · rfl
    · simp only [bind_assoc]
      congr 1
      funext changed
      split
      · simp
      · rename_i hne
        have hchanged : changed ≠ [] := fun h => hne (List.isEmpty_iff.mpr h)
        simp [hchanged]
  · rfl

/-- What is done about a change of tags comes after it. -/
theorem changeTags_eq_retag (onTags : TagHandler) (ctx : Context) (kind : EventKind)
    (targets : TagTargets) : changeTags onTags ctx kind targets = (do
      match ← retag ctx kind targets with
      | some e => onTags e.kind e.conversationId e.channelId e.tagIds
      | none => return ()) := by
  unfold changeTags retag
  simp only [bind_assoc]
  congr 1
  funext thread
  cases thread.conversation.clientId with
  | none => simp
  | some clientId =>
    simp only [bind_assoc]
    congr 1
    funext ids
    split
    · simp
    · simp only [bind_assoc]
      congr 1
      funext changed
      split
      · simp
      · simp

/-- The event that a change of tags is: one about tags, in the conversation of the run. -/
theorem retag_eq_some {kind : EventKind} {targets : TagTargets} {e : Event} {w v : World}
    (h : (retag ctx kind targets).runOn w = (.ok (some e), v)) :
    e = { kind, conversationId := ctx.conversationId, channelId := e.channelId,
          tagIds := e.tagIds } := by
  unfold retag at h
  obtain ⟨thread, w₁, hthread, h⟩ := runOn_bind_eq_ok.mp h
  have hid : thread.conversation.id = ctx.conversationId :=
    Store.id_of_find? (find?_of_loadThread (loaded_of_threadOf hthread)).2
  dsimp only at h
  split at h
  · obtain ⟨ids, w₃, -, h⟩ := runOn_bind_eq_ok.mp h
    split at h
    · cases h
    · obtain ⟨changed, w₄, -, h⟩ := runOn_bind_eq_ok.mp h
      split at h
      · cases h
      · obtain ⟨_, w₅, -, h⟩ := runOn_bind_eq_ok.mp h
        cases h
        rw [hid]
  · cases h

/-- What the making of a tag keeps is kept when tags are looked up. -/
theorem keeps_targetTags
    (makes : ∀ {w s} {tag added : Tag}, (∀ t ∈ w.store.tags, t.name ≠ tag.name) →
      (add tag).run w.store = .ok (added, s) → R w { w with store := s })
    (targets : TagTargets) (create : Bool) :
    Work.Keeps R (targetTags targets create) := by
  have existing : Work.Keeps R (tagsOfIds targets.ids) := by
    unfold tagsOfIds
    split
    · exact Work.Keeps.pure _
    · exact Work.Keeps.reads (reads_tagsNamed _)
  have named : Work.Keeps R (tagsOfName create targets.name) := by
    cases targets.name with
    | none => exact Work.Keeps.pure _
    | some name =>
      refine Work.Keeps.returning (Work.Keeps.transact fun w found s h => ?_)
      rcases made_of_resolve h with rfl | ⟨tag, added, hnew, hadd⟩
      · exact Std.Refl.refl w
      · exact makes hnew hadd
  refine Work.Keeps.bind existing fun existing => ?_
  split
  · exact Work.Keeps.pure _
  · exact Work.Keeps.returning named

/-- Looking tags up leaves conversations alone. -/
theorem conversations_targetTags (targets : TagTargets) (create : Bool) (w : World) :
    ((targetTags targets create).runOn w).2.store.conversations = w.store.conversations := by
  let Same : World → World → Prop := fun w v => v.store.conversations = w.store.conversations
  have : Std.Refl Same := ⟨fun _ => rfl⟩
  have : IsTrans World Same := ⟨fun _ _ _ h k => k.trans h⟩
  refine keeps_targetTags (R := Same) (fun {w s tag added} _ h => ?_) targets create w
  rw [run_add] at h
  split at h
  · cases h
  · cases h
    rfl

variable {c : Int} (work : Stepwork settings c R)

include work

omit [IsTrans World R] in
/-- What is sent to the chat of the conversation, if it has one. -/
theorem Stepwork.withChat (hc : ctx.conversationId = c) (content : Thread → Content)
    (keyboard : List Callback.Key) (outgoing : Thread → Outgoing)
    (copies : ∀ thread, (outgoing thread).Copies (content thread)) :
    Work.Keeps R (withChat ctx fun thread chat =>
      send settings thread chat (content thread) keyboard (outgoing thread)) := by
  subst hc
  intro w
  refine Work.Keeps.eq_bind (keeps_threadOf ctx) (Std.Refl.refl w) fun thread hthread => ?_
  refine Work.Keeps.eq_bind (Work.Keeps.lift _) (Std.Refl.refl w) fun chat hchat => ?_
  cases chat with
  | none => exact Std.Refl.refl w
  | some chat =>
    exact work.sends keyboard (loaded_of_threadOf hthread) (congrArg Prod.fst hchat) (copies thread)

omit [IsTrans World R] in
theorem Stepwork.sendText (hc : ctx.conversationId = c) (text : String) :
    Work.Keeps R (sendText settings ctx text) := by
  unfold Engine.sendText
  split
  · exact Work.Keeps.pure _
  · exact work.withChat hc (fun thread => .text (fillIn thread text)) []
      (fun thread => { content := fillIn thread text }) fun _ => ⟨rfl, rfl, rfl⟩

omit [IsTrans World R] in
theorem Stepwork.sendButtons (hc : ctx.conversationId = c) (head : StepHead)
    (text imageUrl : String) (buttons : List Button) :
    Work.Keeps R (sendButtons settings ctx head text imageUrl buttons) := by
  unfold Engine.sendButtons
  split
  · exact Work.Keeps.pure _
  · refine work.withChat hc
      (fun thread =>
        if imageUrl = "" then .text (fillIn thread text)
        else .media .image imageUrl (fillIn thread text)) _
      (fun thread => buttonsMessage settings (fillIn thread text) imageUrl buttons) fun thread => ?_
    unfold buttonsMessage
    split <;> exact ⟨rfl, rfl, rfl⟩

omit [IsTrans World R] in
theorem Stepwork.sendMedia (hc : ctx.conversationId = c) (kind : MediaKind)
    (ref caption : String) : Work.Keeps R (sendMedia settings ctx kind ref caption) := by
  unfold Engine.sendMedia
  split
  · exact Work.Keeps.pure _
  · exact work.withChat hc (fun thread => .media kind ref (fillIn thread caption)) []
      (fun thread =>
        { content := fillIn thread caption
          kind := kind.word
          attachments := attachment settings kind ref }) fun _ => ⟨rfl, rfl, rfl⟩

theorem Stepwork.assign (hc : ctx.conversationId = c) (operatorId : Option Int) :
    Work.Keeps R (assign ctx operatorId) := by
  subst hc
  unfold Engine.assign
  split
  · intro w
    refine Work.Keeps.eq_bind (keeps_threadOf ctx) (Std.Refl.refl w) fun thread hthread => ?_
    have hid : Row.id thread.conversation = ctx.conversationId :=
      Store.id_of_find? (find?_of_loadThread (loaded_of_threadOf hthread)).2
    refine Work.Keeps.bind (Work.Keeps.transact fun w name s h => ?_)
      (fun name => work.notes _ _ hid) w
    obtain ⟨operator, rfl⟩ := assigned_of_assignOperator h
    exact work.edits w operator _
  · exact Work.Keeps.pure _

theorem Stepwork.retag (hc : ctx.conversationId = c) {kind : EventKind}
    (hkind : kind.isTagEvent = true) (targets : TagTargets) :
    Work.Keeps R (retag ctx kind targets) := by
  subst hc
  intro w
  rw [retag_eq_relabel]
  refine Work.Keeps.eq_bind (keeps_threadOf ctx) (Std.Refl.refl w) fun thread hthread => ?_
  have hfound := (find?_of_loadThread (loaded_of_threadOf hthread)).2
  dsimp only
  split
  · rename_i clientId hclient
    have hsame := conversations_targetTags targets (!decide (kind = .tagRemoved)) w
    refine trans_bind (keeps_targetTags work.makes targets _ w) fun ids v hids => ?_
    rw [hids] at hsame
    split
    · exact Std.Refl.refl v
    · rw [snd_runOn_returning]
      refine work.relabels hkind ?_ hclient _
      rw [← hfound]
      exact congrArg (List.find? fun r : Conversation => Row.id r == ctx.conversationId) hsame
  · exact Std.Refl.refl w

/-- A change of tags is made of these pieces, but for what becomes of it as an event. -/
theorem Stepwork.changeTags (hc : ctx.conversationId = c) {onTags : TagHandler}
    {kind : EventKind} (hkind : kind.isTagEvent = true)
    (handled : ∀ channel tags, Work.Keeps R (onTags kind ctx.conversationId channel tags))
    (targets : TagTargets) : Work.Keeps R (changeTags onTags ctx kind targets) := by
  intro w
  have hw : R w ((Engine.retag ctx kind targets).runOn w).2 := work.retag hc hkind targets w
  rw [changeTags_eq_retag, runOn_bind]
  rcases hr : (Engine.retag ctx kind targets).runOn w with ⟨fault | _ | e, v⟩ <;> rw [hr] at hw
  · exact hw
  · exact hw
  · have he := retag_eq_some hr
    rw [he]
    exact IsTrans.trans w v _ hw (handled _ _ v)

/-- A step that is no condition is made of these pieces, but for what becomes of its changes of
tags. -/
theorem keeps_runAction (hc : ctx.conversationId = c) {onTags : TagHandler}
    (handled : ∀ kind, kind.isTagEvent = true → ∀ channel tags,
      Work.Keeps R (onTags kind ctx.conversationId channel tags)) (owner : String)
    (head : StepHead) {action : StepAction} (hcond : ∀ c, action ≠ .condition c) :
    Work.Keeps R (runAction settings onTags ctx owner head action) := by
  cases action with
  | condition c => exact absurd rfl (hcond c)
  | sendText text => exact Work.Keeps.returning (work.sendText hc text)
  | sendButtons text imageUrl buttons =>
    exact Work.Keeps.returning (work.sendButtons hc head text imageUrl buttons)
  | sendMedia kind ref caption => exact Work.Keeps.returning (work.sendMedia hc kind ref caption)
  | delay seconds =>
    simp only [runAction]
    split
    · rename_i hvalid
      have hpositive : 0 ≤ seconds := by
        simp only [isValidDelay, Bool.and_eq_true, decide_eq_true_eq] at hvalid
        omega
      exact Work.Keeps.returning (work.waits hpositive)
    · exact Work.Keeps.pure _
  | addTag targets => exact Work.Keeps.returning (work.changeTags hc rfl (handled _ rfl) targets)
  | removeTag targets => exact Work.Keeps.returning (work.changeTags hc rfl (handled _ rfl) targets)
  | assignOperator operatorId => exact Work.Keeps.returning (work.assign hc operatorId)
  | close =>
    subst hc
    refine Work.Keeps.returning (Work.Keeps.transact fun w old s h => ?_)
    rcases set_of_setStatus h with rfl | rfl
    · exact Std.Refl.refl w
    · exact work.edits w id _
  | unknown kind => exact Work.Keeps.pure _

end

/-! ## Conditions -/

/-- What is known in a conversation when a condition is judged there. -/
def Knows (ctx : Context) (w : World) (facts : Facts) : Prop :=
  ∃ thread, (query (Thread.load? ctx.conversationId)).runOn w = (.ok (some thread), w) ∧
    (loadFacts ctx.conversationId thread.conversation.clientId).runOn w = (.ok facts, w)

/-- The suspension that a run leaves behind at a step. -/
def Context.suspension (ctx : Context) (stepId : String) (c : Condition) : Suspension :=
  ⟨ctx.automationId, stepId, ctx.runId, c.record⟩

/-- What is put on record of it. -/
def Context.pause (ctx : Context) (stepId : String) (c : Condition) (facts : Facts) : Pause :=
  ⟨ctx.automationId, ctx.runId, ctx.conversationId, stepId, c, facts⟩

/-- How a condition step ends: stopped by a fault, or by the judgment of the condition in view of
what is known. Only a suspension changes the world. -/
inductive Judged (ctx : Context) (stepId : String) (c : Condition) (w : World) :
    Except Fault Progress × World → Prop
  | stopped (fault : Fault) : Judged ctx stepId c w (.error fault, w)
  | held (facts : Facts) (hk : Knows ctx w facts) (hc : c.holds facts = .ok true) :
      Judged ctx stepId c w (.ok .goesOn, w)
  | suspended (facts : Facts) (s : Store) (hk : Knows ctx w facts) (hc : c.holds facts = .ok false)
      (hs : (Slot.save ctx.conversationId (ctx.suspension stepId c)).run w.store = .ok ((), s)) :
      Judged ctx stepId c w (.ok .suspended,
        { w with store := s, pauses := w.pauses ++ [ctx.pause stepId c facts] })

/-- **A condition step is judged once**, and does nothing else. -/
theorem judged_awaitCondition (ctx : Context) (stepId : String) (c : Condition) (w : World) :
    Judged ctx stepId c w ((awaitCondition ctx stepId c).runOn w) := by
  unfold awaitCondition threadOf
  have hw := Work.Keeps.reads (R := Eq) (reads_loadThread ctx.conversationId) w
  simp only [runOn_bind]
  rcases hl : (query (Thread.load? ctx.conversationId)).runOn w with ⟨_ | _ | thread, v⟩ <;>
    rw [hl] at hw <;> obtain rfl : w = v := hw
  · exact .stopped _
  · exact .stopped _
  · have hf := keeps_loadFacts (R := Eq) ctx.conversationId thread.conversation.clientId w
    simp only [runOn_pure]
    rcases hfacts : (loadFacts ctx.conversationId thread.conversation.clientId).runOn w with
      ⟨_ | facts, v⟩ <;> rw [hfacts] at hf <;> obtain rfl : w = v := hf
    · exact .stopped _
    · have hk : Knows ctx w facts := ⟨thread, hl, hfacts⟩
      simp only [runOn_lift]
      cases hc : c.holds facts with
      | error fault => exact .stopped _
      | ok holds =>
        cases holds with
        | true => exact .held facts hk hc
        | false =>
          simp only [Bool.false_eq_true, if_false, runOn_bind, query, run_transact]
          cases hs : (Slot.save ctx.conversationId (ctx.suspension stepId c)).run w.store with
          | error fault =>
            simp only [Context.suspension] at hs
            simp only [hs]
            exact .stopped _
          | ok p =>
            have h := Judged.suspended facts p.2 hk hc hs
            simp only [Context.suspension] at hs
            simp only [hs]
            exact h

/-- What suspensions keep is kept by conditions. -/
theorem keeps_awaitCondition {R : World → World → Prop} [Std.Refl R] {ctx : Context}
    {stepId : String} {c : Condition}
    (suspends : ∀ w facts s, c.holds facts = .ok false →
      (Slot.save ctx.conversationId (ctx.suspension stepId c)).run w.store = .ok ((), s) →
        R w { w with store := s, pauses := w.pauses ++ [ctx.pause stepId c facts] }) :
    Work.Keeps R (awaitCondition ctx stepId c) := by
  intro w
  have hj := judged_awaitCondition ctx stepId c w
  generalize (awaitCondition ctx stepId c).runOn w = out at hj
  cases hj with
  | stopped fault => exact Std.Refl.refl w
  | held facts hk hc => exact Std.Refl.refl w
  | suspended facts s hk hc hs => exact suspends w facts s hc hs

end Engine

end Deskflow
