import Deskflow.Proofs.ConversationFrame
import Mathlib.Data.Finset.SDiff

/-!
# The notes tell which tags a client carries

Whenever the tags of a client are changed, a note in the history of the conversation says which ones
were given or taken. Who retells these notes in order, from the tags that the client carried at
first, ends with those that it carries at last: nothing is changed without a note, and no note is
made of a change that did not happen, whatever runs set off others meanwhile.

A note is told from other messages by its metadata (`Message.tagDeed?`). It names tags by their ids
and by their names, in the same order. Nothing else that is kept of a run or a click is taken for
such a note: messages that were sent are none, and the note about an operator is of another kind.

The notes have to stay (`World.Lasting`): the messages have their table, and nobody deletes a
message or a tag meanwhile. Other rows may be deleted. Clients carry only tags that exist, as a new
tag could be given an id that someone carries already.

Tags are changed by `_add_tag` and `_remove_tag`, and by the buttons of `execute_action`.

* `carried_change`: what a client carries once its tags were changed.
* `tallies_relabel`: the one place where they are.
* `runwork_tallies`, `Click.tallies_handle`: what it comes to in runs and under a button.
* `tells_tags`: the result.
-/

namespace Deskflow

/-! ## Notes -/

/-- What is carried once tags were given or, if the event is that, taken. -/
def EventKind.outcome (kind : EventKind) (carried ids : Finset Int) : Finset Int :=
  if kind = .tagRemoved then carried \ ids else carried ∪ ids

namespace Message

/-- The change of tags that a message is a note of, if it is one. -/
def tagDeed? (m : Message) : Option EventKind :=
  match Record.get? m.metadata.fields History.noteField with
  | some (.str action) => (EventKind.ofName? action).filter EventKind.isTagEvent
  | _ => none

/-- The ids of the tags that a note is about. -/
def tagIds (m : Message) : List Int :=
  match Record.get? m.metadata.fields "tag_ids" with
  | some (.list ids) => ids.filterMap fun
    | .int id => some id
    | _ => none
  | _ => []

/-- What is carried after what a message tells, if it is a note about tags. -/
def retell (carried : Finset Int) (m : Message) : Finset Int :=
  match m.tagDeed? with
  | some kind => kind.outcome carried m.tagIds.toFinset
  | none => carried

/-- A note is about these tags: it lists their ids, and in the same order their names. -/
structure Lists (m : Message) (tags : List Tag) : Prop where
  ids : Record.get? m.metadata.fields "tag_ids" = some (.list (tags.map fun t => .int t.id))
  names : Record.get? m.metadata.fields "tag_names" = some (.list (tags.map fun t => .str t.name))

theorem Lists.tagIds_eq {m : Message} {tags : List Tag} (h : m.Lists tags) :
    m.tagIds = tags.map Tag.id := by
  rw [tagIds, h.ids]
  simp [List.filterMap_map]

variable (now : Moment) (k : Conversation) (id : Int)

/-- What has no mark of a note is no note. -/
theorem tagDeed?_of_plain {o : Outgoing} (h : o.metadata.has History.noteField = false) :
    tagDeed? { History.outgoingRow now k o with id } = none := by
  have hmerge : (Record.merge [("sent_by", .str "automation")] o.metadata).has History.noteField
      = false := by
    rw [Record.has_merge, h]
    rfl
  have hnone : Record.get? (Record.merge [("sent_by", .str "automation")] o.metadata)
      History.noteField = none := by simpa [Record.has] using hmerge
  unfold tagDeed?
  change (match Record.get? (Record.merge _ o.metadata) History.noteField with
    | some (.str action) => (EventKind.ofName? action).filter EventKind.isTagEvent
    | _ => none) = none
  rw [hnone]

/-- The note about an operator is none about tags, -/
theorem tagDeed?_handOver (content : String) (operatorId : Int) :
    tagDeed? { History.outgoingRow now k
      (History.note content History.handOver [("operator_id", .int operatorId)]) with id }
        = none := by
  rfl

/-- and the note about tags is one, -/
theorem tagDeed?_tagNote {kind : EventKind} (hkind : kind.isTagEvent = true) (tags : List Tag) :
    tagDeed? { History.outgoingRow now k (Engine.tagNote kind tags) with id } = some kind := by
  cases kind <;> first | rfl | cases hkind

/-- which lists them. -/
theorem lists_tagNote (kind : EventKind) (tags : List Tag) :
    Lists { History.outgoingRow now k (Engine.tagNote kind tags) with id } tags where
  ids := rfl
  names := by
    refine congrArg (fun l => some (Value.list l)) ?_
    simp

end Message

/-! ## Stores -/

namespace Store

/-- The ids of the tags that a client carries. -/
def carried (s : Store) (n : Int) : Finset Int := ((s.tagsOf n).map Tag.id).toFinset

/-- The conversation, if it is there, is that of a client. -/
def Theirs (c n : Int) (s : Store) : Prop :=
  ∀ k, s.find? Conversation c = some k → k.clientId = some n

/-- What was added to the history of a conversation tells what became of the tags of a client: -/
structure Told (c n : Int) (s t : Store) : Prop where
  tags : s.tags ⊆ t.tags
  /-- the messages are added to the conversation, those about tags name tags that exist, and who
  retells them from the tags that were carried before ends with those that are carried after. -/
  notes : ∃ added, t.messages = s.messages ++ added
    ∧ (∀ m ∈ added, m.conversationId = c)
    ∧ (∀ m ∈ added, m.tagDeed?.isSome → ∃ named, named ⊆ t.tags ∧ m.Lists named)
    ∧ added.foldl Message.retell (s.carried n) = t.carried n

variable {c n : Int} {s t u : Store}

/-- Where clients carry only tags that exist, those are carried that are attached. -/
theorem mem_carried (hs : s.Rooted) {id : Int} :
    id ∈ s.carried n ↔ (⟨n, id⟩ : Membership) ∈ s.memberships := by
  rw [carried, List.mem_toFinset, List.mem_map]
  constructor
  · rintro ⟨t, ht, rfl⟩
    exact List.contains_iff_mem.mp (List.mem_filter.mp ht).2
  · intro h
    obtain ⟨t, ht, hid⟩ := hs _ h
    have hid : t.id = id := hid
    exact ⟨t, List.mem_filter.mpr ⟨ht, by rw [hid]; exact List.contains_iff_mem.mpr h⟩, hid⟩

theorem carried_congr (hs : s.Rooted) (ht : t.Rooted) (h : t.memberships = s.memberships) :
    t.carried n = s.carried n := by
  ext id
  rw [mem_carried ht, mem_carried hs, h]

/-- **What a client carries once its tags were changed.** -/
theorem carried_change {kind : EventKind} {ids : List Int} (hs : s.Rooted)
    (ht : ((if kind = .tagRemoved then Tagging.detached else Tagging.attached) s n ids).Rooted) :
    ((if kind = .tagRemoved then Tagging.detached else Tagging.attached) s n ids).carried n
      = kind.outcome (s.carried n) ids.toFinset := by
  ext id
  rw [mem_carried ht, EventKind.outcome]
  split
  · rw [Tagging.mem_detached, Finset.mem_sdiff, mem_carried hs, List.mem_toFinset]
    simp
  · rw [Tagging.mem_attached, Finset.mem_union, mem_carried hs, List.mem_toFinset]
    simp

/-- What a change of tags of the client of a conversation comes to. -/
structure Changed (c n : Int) (kind : EventKind) (changed : List Tag) (s t : Store) : Prop
    extends Brushed c s t where
  history : t.messages = s.messages
  exist : changed ⊆ t.tags
  outcome : s.Rooted →
    t.carried n = kind.outcome (s.carried n) (changed.map Tag.id).toFinset

theorem changed_of_change (hclient : s.clientIn? c = some n) {kind : EventKind}
    {values : List Value} {changed : List Tag}
    (h : (Tagging.change (kind = .tagRemoved) n values).run s = .ok (changed, t)) :
    Changed c n kind changed s t := by
  obtain ⟨hexist, ht⟩ := Transaction.changed_of_change h
  simp only [decide_eq_true_eq] at ht
  have hbrushed : Brushed c s t := by
    rw [ht]
    split
    · exact .detached hclient _
    · exact .attached hclient hexist
  refine ⟨hbrushed, by rw [ht]; split <;> rfl, fun x hx => hbrushed.labels ▸ hexist x hx,
    fun hs => ?_⟩
  have hrooted := hbrushed.rooted hs
  rw [ht] at hrooted ⊢
  exact carried_change hs hrooted

/-- Where nothing is noted, nothing may have changed. -/
theorem Told.of_quiet (hmessages : t.messages = s.messages) (htags : s.tags ⊆ t.tags)
    (hcarried : t.carried n = s.carried n) : Told c n s t where
  tags := htags
  notes := ⟨[], by rw [hmessages, List.append_nil], by simp, by simp, hcarried.symm⟩

/-- What one message tells. -/
theorem Told.of_message {m : Message} (hmessages : t.messages = s.messages ++ [m])
    (hc : m.conversationId = c) (htags : s.tags ⊆ t.tags)
    (hlists : m.tagDeed?.isSome → ∃ named, named ⊆ t.tags ∧ m.Lists named)
    (hcarried : m.retell (s.carried n) = t.carried n) : Told c n s t where
  tags := htags
  notes := by
    refine ⟨[m], hmessages, fun m' hm => ?_, fun m' hm => ?_, hcarried⟩ <;>
      cases List.mem_singleton.mp hm
    · exact hc
    · exact hlists

theorem Told.trans (h : Told c n s t) (k : Told c n t u) : Told c n s u where
  tags := List.Subset.trans h.tags k.tags
  notes := by
    obtain ⟨added, hadded, hc, hlists, hretold⟩ := h.notes
    obtain ⟨added', hadded', hc', hlists', hretold'⟩ := k.notes
    refine ⟨added ++ added', by rw [hadded', hadded, List.append_assoc], fun m hm => ?_,
      fun m hm hdeed => ?_, by rw [List.foldl_append, hretold, hretold']⟩
    · exact (List.mem_append.mp hm).elim (hc m) (hc' m)
    · rcases List.mem_append.mp hm with hm | hm
      · obtain ⟨named, hnamed, hm⟩ := hlists m hm hdeed
        exact ⟨named, List.Subset.trans hnamed k.tags, hm⟩
      · exact hlists' m hm hdeed

theorem Theirs.congr (h : s.Theirs c n) (hconversations : t.conversations = s.conversations) :
    t.Theirs c n := by
  intro k hk
  rw [find?, show Row.rows t = t.conversations from rfl, hconversations] at hk
  exact h k hk

/-- A change of conversations that leaves their clients alone. -/
theorem Theirs.modify (h : s.Theirs c n) (id : Int) {f : Conversation → Conversation}
    (hid : ∀ k, (f k).id = k.id) (hclient : ∀ k, (f k).clientId = k.clientId) :
    (s.modify Conversation id f).Theirs c n := by
  intro k hk
  rw [find?_modify s id c f hid] at hk
  obtain ⟨k₀, hk₀, rfl⟩ := Option.map_eq_some_iff.mp hk
  rw [← h k₀ hk₀]
  split
  · exact hclient k₀
  · rfl

end Store

/-! ## Worlds -/

namespace World

/-- What is noted stays, and clients carry only tags that exist. -/
structure Lasting (w : World) : Prop where
  table : w.store.absent.contains .messages = false
  messages : w.rehearsal.Spares .messages
  tags : w.rehearsal.Spares .tags
  rooted : w.store.Rooted

/-- What is added to the history of a conversation tells what becomes of the tags of its client. -/
def Tallies (c n : Int) (w v : World) : Prop :=
  w.Lasting → w.store.Theirs c n → v.Lasting ∧ v.store.Theirs c n ∧ w.store.Told c n v.store

variable {c n : Int} {v w : World}

/-- Where no message is added, and no tag or membership changed. -/
theorem Tallies.of_quiet (hspares : ∀ t, w.rehearsal.Spares t → v.rehearsal.Spares t)
    (habsent : v.store.absent = w.store.absent) (hmessages : v.store.messages = w.store.messages)
    (htags : v.store.tags = w.store.tags) (hmemberships : v.store.memberships = w.store.memberships)
    (htheirs : w.store.Theirs c n → v.store.Theirs c n) : Tallies c n w v := by
  intro hw hn
  have hrooted : v.store.Rooted := by
    intro m hm
    rw [htags]
    exact hw.rooted m (hmemberships ▸ hm)
  refine ⟨⟨habsent ▸ hw.table, hspares _ hw.messages, hspares _ hw.tags, hrooted⟩, htheirs hn, ?_⟩
  exact .of_quiet hmessages (fun _ h => htags ▸ h)
    (Store.carried_congr hw.rooted hrooted hmemberships)

/-- What changes neither the store nor the script. -/
theorem Tallies.of_eq (hstore : v.store = w.store) (hrehearsal : v.rehearsal = w.rehearsal) :
    Tallies c n w v :=
  .of_quiet (fun _ h => hrehearsal ▸ h) (by rw [hstore]) (by rw [hstore]) (by rw [hstore])
    (by rw [hstore]) fun h => hstore ▸ h

/-- What changes conversations but for their clients. -/
theorem Tallies.modify (w : World) (id : Int) {f : Conversation → Conversation}
    (hid : ∀ k, (f k).id = k.id) (hclient : ∀ k, (f k).clientId = k.clientId) :
    Tallies c n w { w with store := w.store.modify Conversation id f } :=
  .of_quiet (fun _ h => h) rfl rfl rfl rfl fun h => h.modify id hid hclient

instance : Std.Refl (Tallies c n) := ⟨fun _ => .of_eq rfl rfl⟩

instance : IsTrans World (Tallies c n) := ⟨fun _ _ _ h k hu hn =>
  have ⟨hv, hn, htold⟩ := h hu hn
  have ⟨hw, hn, ktold⟩ := k hv hn
  ⟨hw, hn, htold.trans ktold⟩⟩

end World

namespace Engine

open Work World

variable {settings : Settings} {c n : Int} {w : World}

/-! ## The pieces of steps -/

/-- A message that is no note about tags. -/
theorem tallies_transact {k : Conversation} (hk : k.id = c) {o : Outgoing}
    (ho : ∀ now id, Message.tagDeed? { History.outgoingRow now k o with id } = none) :
    Work.Keeps (Tallies c n) (transact fun now => History.addOutgoing now k o) :=
  Work.Keeps.transact fun w id s h hw hn => by
    obtain rfl := History.addOutgoing_eq_ok h
    refine ⟨⟨hw.table, hw.messages, hw.tags, hw.rooted⟩, hn, ?_⟩
    refine .of_message (messages_insert_outgoing w.clock k o w.store) hk (List.Subset.refl _)
      (fun h => ?_) ?_
    · rw [ho] at h
      cases h
    · rw [Message.retell, ho]
      rfl

/-- A note of what was changed. -/
theorem told_note {k : Conversation} (hk : k.id = c) {kind : EventKind}
    (hkind : kind.isTagEvent = true) {changed : List Tag} {s t : Store}
    (h : Store.Changed c n kind changed s t) (hs : s.Rooted) (now : Moment) :
    s.Told c n (t.insert { History.outgoingRow now k (tagNote kind changed) with
      id := t.nextId Message }) := by
  have hlists := Message.lists_tagNote now k (t.nextId Message) kind changed
  refine .of_message ((messages_insert_outgoing now k _ t).trans (by rw [h.history])) hk
    (fun _ ht => h.labels.symm ▸ ht) (fun _ => ⟨changed, h.exist, hlists⟩) ?_
  rw [Message.retell, Message.tagDeed?_tagNote _ _ _ hkind, hlists.tagIds_eq]
  exact (h.outcome hs).symm

/-- **What is changed of tags is noted.** -/
theorem tallies_relabel {k : Conversation} {m : Int} {kind : EventKind}
    (hkind : kind.isTagEvent = true) (hk : w.store.find? Conversation c = some k)
    (hm : k.clientId = some m) (values : List Value) :
    Tallies c n w ((relabel k m kind values).runOn w).2 := by
  intro hw hn
  obtain rfl : m = n := Option.some.inj (hm.symm.trans (hn k hk))
  have hclient : w.store.clientIn? c = some m := by rw [Store.clientIn?, hk]; exact hm
  unfold relabel
  rw [query, runOn_bind, run_transact]
  rcases h : (Tagging.change (kind = .tagRemoved) m values).run w.store with fault | ⟨changed, s⟩
  · exact Std.Refl.refl (r := Tallies c m) w hw hn
  have hchanged := Store.changed_of_change hclient h
  have hlasting : World.Lasting { w with store := s } :=
    ⟨hchanged.absent ▸ hw.table, hw.messages, hw.tags, hchanged.rooted hw.rooted⟩
  have htheirs := hn.congr hchanged.conversations
  dsimp only
  split
  · -- Nothing was changed, and nothing is noted.
    rename_i hempty
    refine ⟨hlasting, htheirs, .of_quiet hchanged.history (fun _ ht => ?_) ?_⟩
    · exact hchanged.labels.symm ▸ ht
    · refine (hchanged.outcome hw.rooted).trans ?_
      rw [List.isEmpty_iff.mp hempty]
      simp [EventKind.outcome]
  · rw [snd_runOn_returning, addNote, snd_runOn_returning, run_transact,
      History.run_addOutgoing _ _ _ _ hlasting.table (by rintro _ ⟨⟩)]
    exact ⟨⟨hlasting.table, hw.messages, hw.tags, hlasting.rooted⟩, htheirs,
      told_note (Store.id_of_find? hk) hkind hchanged hw.rooted w.clock⟩

/-- A deletion that is scripted. -/
theorem tallies_delete {r : Rehearsal} {t : Table} {id : Int}
    (hmem : Outcome.sentAfterDeleting t id ∈ w.rehearsal.script)
    (hr : ∀ o ∈ r.script, o ∈ w.rehearsal.script) :
    Tallies c n w { w with store := w.store.deleteRow id t, rehearsal := r } := by
  have haside := Aside.of_delete hmem hr
  have htheirs (h : w.store.Theirs c n) : (w.store.deleteRow id t).Theirs c n := fun k hk => by
    obtain ⟨k₀, hk₀, hcore⟩ := haside.found c k hk
    rw [← h k₀ hk₀]
    exact congrArg (fun core => core.2.2.1) hcore
  intro hw hn
  cases t with
  | messages => exact absurd hmem (hw.messages id)
  | tags => exact absurd hmem (hw.tags id)
  | _ => exact Tallies.of_quiet haside.spares rfl rfl rfl rfl htheirs hw hn

theorem tallies_rehearse : Work.Keeps (Tallies c n) rehearse := by
  intro w
  simp only [rehearse, runOn_ofFunction, Rehearsal.answer]
  cases hs : w.rehearsal.script with
  | nil =>
    exact .of_quiet (fun t _ => by simp [Rehearsal.Spares, Rehearsal.play, hs]) rfl rfl rfl rfl
      fun h => h
  | cons o rest =>
    have hrest : ∀ o' ∈ rest, o' ∈ w.rehearsal.script := fun o' ho => by
      rw [hs]
      exact List.mem_cons_of_mem _ ho
    cases o with
    | sentAfterDeleting t id =>
      exact tallies_delete (by rw [hs]; exact List.mem_cons_self) hrest
    | _ => exact .of_quiet (fun t h id hid => h id (hrest _ hid)) rfl rfl rfl rfl fun h => h

theorem tallies_deliver (settings : Settings) (d : Delivery) :
    Work.Keeps (Tallies c n) (deliver settings d) := fun w =>
  IsTrans.trans _ _ _
    (keeps_answer (fun _ _ _ _ => .of_eq rfl rfl) tallies_rehearse settings d w) (.of_eq rfl rfl)

theorem tallies_send {thread : Thread} (hk : thread.conversation.id = c) (chat : Int)
    {content : Content} (keyboard : List Callback.Key) {outgoing : Outgoing}
    (hcopies : outgoing.Copies content) :
    Work.Keeps (Tallies c n) (send settings thread chat content keyboard outgoing) := by
  refine Work.Keeps.bind (keeps_channelOf thread) fun channel => ?_
  refine Work.Keeps.bind (tallies_deliver settings _) fun sent => ?_
  cases sent with
  | none => exact Work.Keeps.pure _
  | some sent =>
    refine Work.Keeps.returning (tallies_transact hk fun now id => ?_)
    refine Message.tagDeed?_of_plain now _ id ?_
    rw [Record.has_put, hcopies.plain]
    rfl

theorem clickwork_tallies (settings : Settings) (c n : Int) :
    Clickwork settings c (Tallies c n) where
  relabels hkind hk hm values := tallies_relabel hkind hk hm values
  sends keyboard loaded _ hcopies :=
    tallies_send (Store.id_of_find? (find?_of_loadThread loaded).2) _ keyboard hcopies _

theorem stepwork_tallies (settings : Settings) (c n : Int) :
    Stepwork settings c (Tallies c n) where
  toClickwork := clickwork_tallies settings c n
  -- A tag that is made is carried by nobody, as its id is new.
  makes {w s tag added} _ h hw hn := by
    rw [Transaction.run_add] at h
    split at h
    · cases h
    · cases h
      have hmade : w.store.Confined c (w.store.insert (Row.withId tag (w.store.nextId Tag))) :=
        .insert_tag w.store tag
      have hrooted := hmade.rooted hw.rooted
      obtain ⟨made, htags, -⟩ := hmade.tags
      exact ⟨⟨hw.table, hw.messages, hw.tags, hrooted⟩, hn,
        .of_quiet rfl (htags ▸ List.subset_append_left _ _)
          (Store.carried_congr hw.rooted hrooted rfl)⟩
  edits w _ _ := .modify w c (fun _ => rfl) fun _ => rfl
  notes _ _ hk := Work.Keeps.returning <| tallies_transact hk fun now id =>
    Message.tagDeed?_handOver now _ id _ _
  waits _ := Work.Keeps.modify fun _ => .of_eq rfl rfl

/-! ## Runs -/

theorem tallies_awaitCondition (ctx : Context) (stepId : String) (condition : Condition) :
    Work.Keeps (Tallies c n) (awaitCondition ctx stepId condition) := by
  refine keeps_awaitCondition fun w facts s _ hs => ?_
  rcases Slot.fill_eq_ok hs with ⟨-, rfl⟩ | ⟨k, fields, -, -, rfl⟩
  · exact .of_eq rfl rfl
  · exact .of_quiet (fun _ h => h) rfl rfl rfl rfl fun h => h.modify _ (fun _ => rfl) fun _ => rfl

theorem runwork_tallies (settings : Settings) (c n : Int) :
    Runwork settings c (Tallies c n) where
  executes := keeps_execute (fun _ _ => .of_quiet (fun _ h => h) rfl rfl rfl rfl fun h => h)
    (fun _ _ => .of_eq rfl rfl) (stepwork_tallies settings c n) tallies_awaitCondition
  remembers _ _ := .of_eq rfl rfl

theorem tallies_take {taken : Option Suspension} {s : Store}
    (h : (Slot.take c).run w.store = .ok (taken, s)) : Tallies c n w { w with store := s } := by
  rcases Slot.erased_of_take h with ⟨-, rfl⟩ | ⟨k, held, fields, -, -, -, rfl⟩
  · exact .of_eq rfl rfl
  · exact .modify w c (fun _ => rfl) fun _ => rfl

end Engine

namespace Click

open World

theorem tallies_handle (settings : Settings) (c n : Int) (data : String) :
    Work.Keeps (Tallies c n) (handle settings c data) :=
  keeps_handle (Engine.clickwork_tallies settings c n) data

end Click

/-! ## The result -/

namespace Engine

open Work World

/-- The notes in a conversation with a client tell what becomes of the tags of the client, faults or
not, -/
structure TellsTags (settings : Settings) (w : World) : Prop where
  /-- when something comes to the engine, with all the runs that it sets off, -/
  events : ∀ (o : Occurrence) (n : Int), w.store.clientIn? o.conversationId = some n →
    w.store.Told o.conversationId n ((o.handle settings).runOn w).2.store
  /-- when a run is carried out for itself, -/
  runs : ∀ (flow : Flow) (c : Int) (data : Value) (instead : Option (List Step)) (n : Int),
    w.store.clientIn? c = some n →
      w.store.Told c n ((execute settings (chained settings) flow c data instead).runOn w).2.store
  /-- and when a button is clicked. -/
  clicks : ∀ (c : Int) (data : String) (n : Int), w.store.clientIn? c = some n →
    w.store.Told c n ((Click.handle settings c data).runOn w).2.store

/-- **The notes tell which tags a client carries**, if they stay. -/
theorem tells_tags (settings : Settings) {w : World} (hw : w.Lasting) : TellsTags settings w := by
  have theirs {c n : Int} (h : w.store.clientIn? c = some n) : w.store.Theirs c n := by
    intro k hk
    rwa [Store.clientIn?, hk] at h
  refine ⟨fun o n hn => ?_, fun flow c data instead n hn => ?_, fun c data n hn => ?_⟩
  · exact ((runwork_tallies settings _ n).handle tallies_take rfl w hw (theirs hn)).2.2
  · have work := runwork_tallies settings c n
    exact (work.executes work.chained flow data instead w hw (theirs hn)).2.2
  · exact (Click.tallies_handle settings c n data w hw (theirs hn)).2.2

/-! ### A gym with visitors and members -/

/-- A conversation at a gym, with a client who is a visitor. Whoever comes in is made a member, and
whoever is given a tag is no visitor any more. -/
def gym : World :=
  let row (id : Int) (kind : String) (config : Record) : StepRow :=
    { id, automationId := id, stepId := "s1", kind, config := .object config, position := .null,
      order := 0, nextStepId := none, trueStepId := none, falseStepId := none }
  let automation (id : Int) (trigger : String) : Automation :=
    { id, name := trigger, description := none, channelId := none, trigger, triggerConfig := .null,
      isActive := true }
  { store :=
      { tags := [⟨5, "member", none⟩, ⟨6, "visitor", none⟩]
        clients := [⟨1, none, some "Ida", none, none, .null⟩]
        memberships := [⟨1, 6⟩]
        conversations :=
          [{ id := 1, channelId := 1, clientId := some 1, operatorId := none, status := "open",
             metadata := .null, unreadCount := 0, lastMessageAt := none }]
        automations := [automation 1 "new_conversation", automation 2 "tag_added"]
        steps := [row 1 "add_tag" [("tag_ids", .list [.int 5, .int 9])],
          row 2 "remove_tag" [("tag_name", .str "visitor")]] } }

/-- Ida comes in. -/
def enrolled : World :=
  (((Occurrence.dispatched
    { kind := .newConversation, conversationId := 1, channelId := 1 }).handle {}).runOn gym).2

/-- At the gym Ida is made a member, and then is no visitor any more. -/
theorem tells_tags_gym :
    gym.store.Told 1 1 enrolled.store
      ∧ (enrolled.store.messages.map fun m => (m.tagDeed?, m.tagIds))
        = [(some .tagAdded, [5]), (some .tagRemoved, [6])]
      ∧ (gym.store.tagsOf 1).map Tag.name = ["visitor"]
      ∧ (enrolled.store.tagsOf 1).map Tag.name = ["member"] := by
  have hlasting : gym.Lasting :=
    ⟨rfl, fun id => by simp [gym], fun id => by simp [gym], by decide⟩
  have htold := (tells_tags {} hlasting).events
    (.dispatched { kind := .newConversation, conversationId := 1, channelId := 1 }) 1 rfl
  refine ⟨htold, ?_, ?_, ?_⟩
  · decide +kernel
  · decide +kernel
  · decide +kernel

end Engine

end Deskflow
