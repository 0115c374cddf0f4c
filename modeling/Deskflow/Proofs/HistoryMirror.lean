import Deskflow.Engine.Click
import Deskflow.Proofs.ResumeOnce
import Mathlib.Data.List.Forall2

/-!
# The history mirrors what was delivered

What goes through to a client is kept as a message in the history of the conversation, and nothing
else is kept as a message that was sent. Notes stand among these messages and are told from them by
a field of their metadata.

The messages that are added while something is handled, less the notes, are compared with the
deliveries that are made meanwhile, less those that fail or break down. Each piece of work either
leaves both alone, or adds a note, or makes one delivery and keeps a message of it before anything
else happens: `Reflects` says so of a stretch of work and is a preorder, so that it holds of runs in
runs as it does of a single step.

Nobody deletes rows meanwhile, and the messages have their table (`World.Intact`).

What was sent is kept by `add_outgoing_message`, and notes are made by `add_system_message`.

* `reflects_send`: the one place where something is delivered.
* `runwork_reflects`, `Click.reflects_handle`: what it comes to in runs and under a button.
* `history_mirrors`: the result.
-/

namespace Deskflow

/-- A delivery is made on the channel of a conversation, to its chat. -/
def Delivery.AddressedTo (s : Store) (c : Int) (d : Delivery) : Prop :=
  ∃ k, s.find? Conversation c = some k ∧ s.find? Channel k.channelId = some d.channel
    ∧ k.chatId = .ok (some d.chat)

namespace Delivery.AddressedTo

variable {c : Int} {d : Delivery}

theorem of_beside {s t : Store} (h : s.Beside t) (hd : d.AddressedTo s c) : d.AddressedTo t c := by
  obtain ⟨k, hk, hchannel, hchat⟩ := hd
  have hcore := h.threads c
  rw [hk] at hcore
  obtain ⟨k', hk', hcore⟩ := Option.map_eq_some_iff.mp hcore
  simp only [Conversation.core, Prod.mk.injEq] at hcore
  obtain ⟨-, hchannelId, -, hmetadata⟩ := hcore
  refine ⟨k', hk', ?_, ?_⟩
  · rw [hchannelId, ← hchannel]
    exact congrArg (List.find? fun r : Channel => Row.id r == k.channelId) h.channels
  · rw [← hchat, Conversation.chatId, hmetadata]
    rfl

/-- A change of the slot leaves the chat that metadata name. -/
theorem withMetadata {s : Store} {other : Int} {k : Conversation} {fields : Record}
    (hk : s.find? Conversation other = some k)
    (hfields : ∀ {v}, k.metadata.field chatField = .ok v →
      (Value.object fields).field chatField = .ok v) (hd : d.AddressedTo s c) :
    d.AddressedTo (s.withMetadata other fields) c := by
  obtain ⟨l, hl, hchannel, hchat⟩ := hd
  by_cases hc : c = other
  · subst hc
    obtain rfl : l = k := Option.some.inj (hl.symm.trans hk)
    have hself := (s.find?_withMetadata_self c fields).trans (congrArg (Option.map _) hk)
    refine ⟨_, hself, hchannel, ?_⟩
    obtain ⟨v, hv, hint⟩ := Fault.bind_eq_ok.mp hchat
    exact Fault.bind_eq_ok.mpr ⟨v, hfields hv, hint⟩
  · refine ⟨l, ?_, hchannel, hchat⟩
    rw [← hl]
    exact Store.find?_modify_ne s _ (fun _ => rfl) hc

end Delivery.AddressedTo

/-- What a delivery that went through left with the messaging service: a message without an id, or
with one that fits 64 bits. A larger id cannot be kept. -/
def sentOf? : Answer → Option Sent
  | .ok (some sent) => if sent.messageId.all Transaction.fits then some sent else none
  | _ => none

/-- The deliveries that went through, each with what it left. -/
def succeeded (calls : List (Delivery × Answer)) : List (Delivery × Sent) :=
  calls.filterMap fun call => (sentOf? call.2).map (Prod.mk call.1)

/-- Whether a message was sent, and neither came in nor is a note. -/
def Message.isSent (m : Message) : Bool :=
  m.direction == "outgoing" && !m.metadata.fields.has History.noteField

/-- A message is that of a delivery in a conversation. -/
structure Message.Mirrors (s : Store) (c : Int) (call : Delivery × Sent) (m : Message) : Prop where
  addressed : call.1.AddressedTo s c
  conversation : m.conversationId = c
  channel : m.channelId = call.1.channel.id
  content : m.content = some call.1.content.words
  kind : m.kind = call.1.content.kind
  providerMessageId : m.providerMessageId = call.2.messageId

namespace World

/-- From one world to another, the messages that were sent are those of the deliveries that went
through, one for one and in the same order, in the history of a conversation. The chat of the
conversation is read off the later world: where metadata are a list of pairs, it can be read only
once a slot was filled or emptied, which makes a record of them. -/
def Mirrored (c : Int) (w v : World) : Prop :=
  ∃ calls added, v.deliveries = w.deliveries ++ calls
    ∧ v.store.messages = w.store.messages ++ added
    ∧ List.Forall₂ (Message.Mirrors v.store c) (succeeded calls) (added.filter Message.isSent)

/-- The messages have their table, and no script deletes a row. -/
structure Intact (w : World) : Prop where
  table : w.store.absent.contains .messages = false
  spares : ∀ t, w.rehearsal.Spares t

/-- A stretch of work in a conversation mirrors its deliveries, and what was addressed to the
conversation still is. -/
structure Reflected (c : Int) (w v : World) : Prop where
  intact : v.Intact
  addressed : ∀ d : Delivery, d.AddressedTo w.store c → d.AddressedTo v.store c
  mirrored : Mirrored c w v

/-- The same from a world that is intact. -/
def Reflects (c : Int) (w v : World) : Prop := w.Intact → Reflected c w v

variable {c : Int} {u v w : World}

/-- What makes no delivery and adds no message. -/
theorem Reflects.of_eq (hr : v.rehearsal = w.rehearsal) (ha : v.store.absent = w.store.absent)
    (hd : v.deliveries = w.deliveries) (hm : v.store.messages = w.store.messages)
    (addressed : ∀ d : Delivery, d.AddressedTo w.store c → d.AddressedTo v.store c) :
    Reflects c w v := fun hw =>
  { intact := ⟨ha ▸ hw.table, hr ▸ hw.spares⟩
    addressed := addressed
    mirrored := ⟨[], [], by rw [hd, List.append_nil], by rw [hm, List.append_nil], .nil⟩ }

theorem Mirrored.trans (h : Mirrored c u v) (k : Mirrored c v w)
    (addressed : ∀ d : Delivery, d.AddressedTo v.store c → d.AddressedTo w.store c) :
    Mirrored c u w := by
  obtain ⟨calls, added, hcalls, hadded, hmirrors⟩ := h
  obtain ⟨calls', added', hcalls', hadded', hmirrors'⟩ := k
  refine ⟨calls ++ calls', added ++ added', ?_, ?_, ?_⟩
  · rw [hcalls', hcalls, List.append_assoc]
  · rw [hadded', hadded, List.append_assoc]
  · rw [succeeded, List.filterMap_append, List.filter_append]
    have hmirrors : List.Forall₂ (Message.Mirrors w.store c) (succeeded calls)
        (added.filter Message.isSent) :=
      hmirrors.imp fun _ _ h => { h with addressed := addressed _ h.addressed }
    exact List.rel_append hmirrors hmirrors'

instance : Std.Refl (Reflects c) := ⟨fun _ => .of_eq rfl rfl rfl rfl fun _ h => h⟩

instance : IsTrans World (Reflects c) := ⟨fun _ _ _ h k hu =>
  have h := h hu
  have k := k h.intact
  { intact := k.intact
    addressed := fun d hd => k.addressed d (h.addressed d hd)
    mirrored := h.mirrored.trans k.mirrored k.addressed }⟩

end World

namespace Engine

open Work World

variable {settings : Settings} {c : Int} {w v : World}

/-! ## Work that delivers nothing -/

theorem reflects_beside {s : Store} (h : w.store.Beside s) :
    Reflects c w { w with store := s } :=
  .of_eq rfl h.absent rfl h.messages fun _ hd => hd.of_beside h

theorem reflects_awaitCondition (ctx : Context) (stepId : String) (condition : Condition) :
    Work.Keeps (Reflects c) (awaitCondition ctx stepId condition) := by
  refine keeps_awaitCondition fun w facts s _ hs => ?_
  rcases Slot.fill_eq_ok hs with ⟨-, rfl⟩ | ⟨k, fields, hk, hf, rfl⟩
  · exact .of_eq rfl rfl rfl rfl fun _ hd => hd
  · exact .of_eq rfl rfl rfl rfl fun _ hd =>
      hd.withMetadata hk (Suspension.field_of_fillSlot hf (by decide))

theorem messages_insert_outgoing (now : Moment) (k : Conversation) (o : Outgoing) (s : Store) :
    (s.insert { History.outgoingRow now k o with id := s.nextId Message }).messages
      = s.messages ++ [{ History.outgoingRow now k o with id := s.nextId Message }] :=
  Store.rows_insert_nextId s (History.outgoingRow now k o)

theorem isSent_outgoingRow (now : Moment) (k : Conversation) (o : Outgoing) (id : Int) :
    Message.isSent { History.outgoingRow now k o with id } = !o.metadata.has History.noteField := by
  have hmerge : (Record.merge [("sent_by", .str "automation")] o.metadata).has History.noteField
      = o.metadata.has History.noteField := by
    rw [Record.has_merge]
    rfl
  exact congrArg Bool.not hmerge

theorem has_note (content action : String) (details : Record) :
    (History.note content action details).metadata.has History.noteField = true := by
  rw [History.note, Record.has_merge]
  rfl

theorem reflects_note (k : Conversation) (content action : String) (details : Record) :
    Work.Keeps (Reflects c) (addNote k (History.note content action details)) := by
  refine Work.Keeps.returning (Work.Keeps.transact fun w id s h hw => ?_)
  obtain rfl := History.addOutgoing_eq_ok h
  refine ⟨⟨hw.table, hw.spares⟩, fun _ hd => hd, [], _, (List.append_nil _).symm,
    messages_insert_outgoing _ _ _ _, ?_⟩
  rw [List.filter_singleton, isSent_outgoingRow, has_note]
  exact .nil

/-! ## One delivery -/

/-- What the answer to a delivery leaves alone, where no script deletes a row. -/
def Answered (w v : World) : Prop :=
  (∀ t, w.rehearsal.Spares t) →
    (∀ t, v.rehearsal.Spares t) ∧ v.store = w.store ∧ v.deliveries = w.deliveries

instance : Std.Refl Answered := ⟨fun _ h => ⟨h, rfl, rfl⟩⟩

instance : IsTrans World Answered := ⟨fun _ _ _ h k hu =>
  have ⟨hspares, hstore, hcalls⟩ := h hu
  have ⟨hspares', hstore', hcalls'⟩ := k hspares
  ⟨hspares', hstore'.trans hstore, hcalls'.trans hcalls⟩⟩

theorem answered_rehearse : Work.Keeps Answered rehearse := by
  intro w
  simp only [rehearse, runOn_ofFunction, Rehearsal.answer]
  cases hs : w.rehearsal.script with
  | nil => exact fun _ => ⟨fun t id => by simp [Rehearsal.play, hs], rfl, rfl⟩
  | cons o rest =>
    intro hw
    have hrest : ∀ n t, Rehearsal.Spares ⟨rest, n⟩ t := fun n t id hid =>
      hw t id (by rw [hs]; exact List.mem_cons_of_mem _ hid)
    cases o with
    | sentAfterDeleting t id => exact absurd (by rw [hs]; exact List.mem_cons_self) (hw t id)
    | _ => exact ⟨hrest _, rfl, rfl⟩

/-- Where no script deletes a row, a delivery changes nothing that is kept, and is put on record
with its answer. -/
theorem answered_deliver (settings : Settings) (d : Delivery) (h : ∀ t, w.rehearsal.Spares t) :
    ∃ answer v, (deliver settings d).runOn w = (answer, v) ∧ (∀ t, v.rehearsal.Spares t)
      ∧ v.store = w.store ∧ v.deliveries = w.deliveries ++ [(d, answer)] := by
  have hanswer : Answered w ((if w.live then deliverLive settings d else rehearse).runOn w).2 :=
    keeps_answer (fun _ _ _ _ h => ⟨h, rfl, rfl⟩) answered_rehearse settings d w
  obtain ⟨hspares, hstore, hcalls⟩ := hanswer h
  exact ⟨_, _, rfl, hspares, hstore, congrArg (· ++ _) hcalls⟩

theorem runOn_deliver (settings : Settings) (hw : w.Intact) (d : Delivery) :
    ∃ answer v, (deliver settings d).runOn w = (answer, v) ∧ v.Intact ∧ v.store = w.store
      ∧ v.deliveries = w.deliveries ++ [(d, answer)] := by
  obtain ⟨answer, v, hdeliver, hspares, hstore, hcalls⟩ := answered_deliver settings d hw.spares
  refine ⟨answer, v, hdeliver, ⟨?_, hspares⟩, hstore, hcalls⟩
  exact (congrArg (fun s : Store => s.absent.contains .messages) hstore).trans hw.table

/-- A delivery of which no message is kept, as it did not go through. -/
theorem reflected_of_unsent (hv : v.Intact) (hstore : v.store = w.store) {d : Delivery}
    {answer : Answer} (hcalls : v.deliveries = w.deliveries ++ [(d, answer)])
    (hunsent : sentOf? answer = none) : Reflected c w v where
  intact := hv
  addressed _ hd := hstore ▸ hd
  mirrored := ⟨[(d, answer)], [], hcalls, by rw [hstore, List.append_nil], by
    simp [succeeded, hunsent]⟩

/-- The message that is to be kept of a delivery mirrors it. -/
theorem mirrors_outgoingRow {s : Store} {k : Conversation} {o : Outgoing} {d : Delivery}
    {sent : Sent} (haddressed : d.AddressedTo s k.id) (hchannel : d.channel.id = k.channelId)
    (hcopies : o.Copies d.content) (hid : o.providerMessageId = sent.messageId) (now : Moment)
    (id : Int) : Message.Mirrors s k.id (d, sent) { History.outgoingRow now k o with id } where
  addressed := haddressed
  conversation := rfl
  channel := hchannel.symm
  content := congrArg some hcopies.words
  kind := hcopies.kind
  providerMessageId := hid

/-- Of a delivery that went through a message is kept, if its id fits 64 bits. -/
theorem reflected_of_sent (hv : v.Intact) (hstore : v.store = w.store) {d : Delivery} {sent : Sent}
    (hcalls : v.deliveries = w.deliveries ++ [(d, .ok (some sent))]) {k : Conversation}
    {o : Outgoing} (haddressed : d.AddressedTo w.store k.id) (hchannel : d.channel.id = k.channelId)
    (hcopies : o.Copies d.content) (hid : o.providerMessageId = sent.messageId) :
    Reflected k.id w ((transact fun now => History.addOutgoing now k o).runOn v).2 := by
  rw [run_transact]
  by_cases hfits : sent.messageId.all Transaction.fits = true
  · have hids : ∀ n, o.providerMessageId = some n → Transaction.fits n = true := fun n hn => by
      simpa [hid.symm.trans hn] using hfits
    rw [History.run_addOutgoing v.clock k o v.store hv.table hids]
    have hkept : ∀ id, Message.isSent { History.outgoingRow v.clock k o with id } = true :=
      fun id => by rw [isSent_outgoingRow, hcopies.plain]; rfl
    have hsucceeded : succeeded [(d, .ok (some sent))] = [(d, sent)] := by
      simp [succeeded, sentOf?, hfits]
    refine ⟨⟨hv.table, hv.spares⟩, fun _ hd => hstore ▸ hd, _, _, hcalls,
      (messages_insert_outgoing v.clock k o v.store).trans (by rw [hstore]), ?_⟩
    rw [hsucceeded, List.filter_cons_of_pos (hkept _)]
    exact .cons (mirrors_outgoingRow (hstore ▸ haddressed) hchannel hcopies hid _ _) .nil
  · obtain ⟨n, hn, hunfit⟩ : ∃ n, sent.messageId = some n ∧ Transaction.fits n = false := by
      simpa [Option.all_eq_true] using hfits
    rw [History.run_addOutgoing_of_unfit v.clock k hv.table (hid.trans hn) hunfit]
    exact reflected_of_unsent hv hstore hcalls (by rw [sentOf?, if_neg hfits])

/-- **What is delivered is kept as a message at once**, if it went through. -/
theorem reflects_send {thread : Thread} {chat : Int} {content : Content} {outgoing : Outgoing}
    (keyboard : List Callback.Key)
    (loaded : (query (Thread.load? c)).runOn w = (.ok (some thread), w))
    (hchat : thread.conversation.chatId = .ok (some chat)) (hcopies : outgoing.Copies content) :
    Reflects c w ((send settings thread chat content keyboard outgoing).runOn w).2 := by
  intro hw
  have hk := (find?_of_loadThread loaded).2
  obtain rfl : thread.conversation.id = c := Store.id_of_find? hk
  refine Work.Keeps.eq_bind (keeps_channelOf thread) (Std.Refl.refl (r := Reflects _) w hw)
    fun channel hchannel => ?_
  have hfound : w.store.find? Channel thread.conversation.channelId = some channel := by
    rw [← channel_of_loadThread loaded]
    unfold channelOf at hchannel
    split at hchannel
    · rename_i hsome
      rw [hsome]
      exact congrArg some (Except.ok.inj (congrArg Prod.fst hchannel))
    · cases hchannel
  obtain ⟨answer, v, hdeliver, hv, hstore, hcalls⟩ :=
    runOn_deliver settings hw { channel, chat, content, keyboard }
  rw [runOn_bind, hdeliver]
  rcases answer with fault | _ | sent
  · exact reflected_of_unsent hv hstore hcalls rfl
  · exact reflected_of_unsent hv hstore hcalls rfl
  show Reflected _ w ((transact _ >>= fun _ => pure ()).runOn v).2
  rw [snd_runOn_returning]
  refine reflected_of_sent hv hstore hcalls ⟨_, hk, hfound, hchat⟩ (Store.id_of_find? hfound)
    ⟨hcopies.words, hcopies.kind, ?_⟩ rfl
  rw [Record.has_put, hcopies.plain]
  rfl

theorem sidework_reflects (settings : Settings) (c : Int) : Sidework settings c (Reflects c) where
  stores := reflects_beside
  notes := reflects_note
  waits _ := Work.Keeps.modify fun _ => .of_eq rfl rfl rfl rfl fun _ hd => hd
  sends keyboard loaded hchat hcopies := reflects_send keyboard loaded hchat hcopies

/-! ## Runs -/

theorem runwork_reflects (settings : Settings) (c : Int) : Runwork settings c (Reflects c) where
  executes := keeps_execute (fun _ _ => .of_eq rfl rfl rfl rfl fun _ hd => hd)
    (fun _ _ => .of_eq rfl rfl rfl rfl fun _ hd => hd)
    (sidework_reflects settings c).stepwork reflects_awaitCondition
  remembers _ _ := .of_eq rfl rfl rfl rfl fun _ hd => hd

theorem reflects_take {taken : Option Suspension} {s : Store}
    (h : (Slot.take c).run w.store = .ok (taken, s)) : Reflects c w { w with store := s } := by
  rcases Slot.erased_of_take h with ⟨-, rfl⟩ | ⟨k, held, fields, hk, hslot, -, rfl⟩
  · exact .of_eq rfl rfl rfl rfl fun _ hd => hd
  · exact .of_eq rfl rfl rfl rfl fun _ hd =>
      hd.withMetadata hk (Suspension.field_of_withoutSlot hslot (by decide))

end Engine

/-! ## Clicks -/

namespace Click

open Work World Engine

variable {settings : Settings} {c : Int} {w : World}

theorem reads_rankedSteps (conversationId : Option Int) :
    Transaction.Reads (rankedSteps conversationId) := by
  refine Transaction.Keeps.bind (Transaction.reads_rows StepRow) fun rows => ?_
  cases conversationId with
  | none => exact Transaction.Reads.pure _
  | some id =>
    exact Transaction.Keeps.bind (Transaction.reads_rows Run) fun _ =>
      Transaction.Keeps.bind (Transaction.reads_fit id) fun _ => Transaction.Reads.pure _

theorem reads_findButton (data : String) (conversationId : Option Int) :
    Transaction.Reads (findButton data conversationId) := by
  refine Transaction.Keeps.bind (Transaction.Reads.lift _) fun ref => ?_
  cases ref with
  | none => exact Transaction.Reads.pure _
  | some ref =>
    exact Transaction.Keeps.bind (reads_rankedSteps conversationId)
      fun _ => Transaction.Reads.lift _

/-- A change of tags under a button is the piece that changes and notes them. -/
theorem changeTags_eq_relabel (kind : EventKind) (thread : Thread) (config : Record) :
    changeTags kind thread config = (do
      let some clientId := thread.conversation.clientId | return ()
      let values ← (tagValues config : Work (List Value))
      let _ ← relabel thread.conversation clientId kind values) := by
  unfold changeTags relabel
  cases thread.conversation.clientId with
  | none => rfl
  | some clientId =>
    dsimp only
    congr 1
    funext values
    simp only [bind_assoc]
    congr 1
    funext changed
    split <;> simp

section

variable {R : World → World → Prop} [Std.Refl R] (work : Clickwork settings c R)

include work

theorem keeps_changeTags {kind : EventKind} (hkind : kind.isTagEvent = true) {thread : Thread}
    (hfound : w.store.find? Conversation c = some thread.conversation) (config : Record) :
    R w ((changeTags kind thread config).runOn w).2 := by
  rw [changeTags_eq_relabel]
  split
  · rename_i clientId hclient
    refine Work.Keeps.eq_bind (Work.Keeps.lift _) (Std.Refl.refl w) fun values _ => ?_
    rw [snd_runOn_returning]
    exact work.relabels hkind hfound hclient values
  · exact Std.Refl.refl w

/-- What the pieces of clicks keep is kept by the action of a button. -/
theorem keeps_act {thread : Thread}
    (loaded : (query (Thread.load? c)).runOn w = (.ok (some thread), w)) (action : String)
    (config : Record) : R w ((act settings thread action config).runOn w).2 := by
  refine Work.Keeps.eq_bind (Work.Keeps.lift _) (Std.Refl.refl w) fun chat hchat => ?_
  cases chat with
  | none => exact Std.Refl.refl w
  | some chat =>
    have hchat : thread.conversation.chatId = .ok (some chat) := congrArg Prod.fst hchat
    dsimp only
    split
    · split
      · exact Std.Refl.refl w
      · exact work.sends [] loaded hchat ⟨rfl, rfl, rfl⟩
    · exact keeps_changeTags work rfl (find?_of_loadThread loaded).2 config
    · exact keeps_changeTags work rfl (find?_of_loadThread loaded).2 config
    · split
      · split
        · exact Std.Refl.refl w
        · exact work.sends [] loaded hchat ⟨rfl, rfl, rfl⟩
      · exact Std.Refl.refl w

/-- What they keep is kept by a click. -/
theorem keeps_handle (data : String) : Work.Keeps R (handle settings c data) := by
  intro w
  refine Work.Keeps.eq_bind (.reads (reads_findButton data _)) (Std.Refl.refl w) fun button _ => ?_
  cases button with
  | none => exact Std.Refl.refl w
  | some button =>
    dsimp only
    split
    · exact Std.Refl.refl w
    split
    · exact Std.Refl.refl w
    split
    · exact Std.Refl.refl w
    refine Work.Keeps.eq_bind (.reads (Transaction.reads_loadThread c)) (Std.Refl.refl w)
      fun thread loaded => ?_
    cases thread with
    | none => exact Std.Refl.refl w
    | some thread =>
      dsimp only
      rw [snd_runOn_returning]
      exact keeps_act work loaded _ _

end

theorem reflects_handle (c : Int) (data : String) :
    Work.Keeps (Reflects c) (handle settings c data) :=
  keeps_handle (sidework_reflects settings c).stepwork.toClickwork data

end Click

/-! ## The result -/

namespace Engine

open Work World

/-- The history mirrors what is delivered, faults or not, -/
structure MirrorsDeliveries (settings : Settings) (w : World) : Prop where
  /-- when something comes to the engine, with all the runs that it sets off, -/
  events : ∀ o : Occurrence, Mirrored o.conversationId w ((o.handle settings).runOn w).2
  /-- when a run is carried out for itself, -/
  runs : ∀ (flow : Flow) (c : Int) (data : Value) (instead : Option (List Step)),
    Mirrored c w ((execute settings (chained settings) flow c data instead).runOn w).2
  /-- and when a button is clicked. -/
  clicks : ∀ (c : Int) (data : String), Mirrored c w ((Click.handle settings c data).runOn w).2

/-- **The history mirrors what was delivered**, if nobody deletes rows meanwhile. -/
theorem history_mirrors (settings : Settings) {w : World} (hw : w.Intact) :
    MirrorsDeliveries settings w where
  events _ := ((runwork_reflects settings _).handle reflects_take rfl w hw).mirrored
  runs flow c data instead :=
    have work := runwork_reflects settings c
    (work.executes work.chained flow data instead w hw).mirrored
  clicks c data := (Click.reflects_handle c data w hw).mirrored

/-! ### A florist whose line is bad -/

/-- A conversation at a florist, where a new client is greeted, shown a picture and given a tag,
which sets off a message of its own, before the farewell. Of the deliveries the first goes through,
the second fails, the third goes through without an id, and the fourth breaks down. -/
def florist : World :=
  let row (id : Int) (kind : String) (config : Record) : StepRow :=
    { id, automationId := id, stepId := "s1", kind, config := .object config, position := .null,
      order := 0, nextStepId := none, trueStepId := none, falseStepId := none }
  let automation (id : Int) (trigger : String) : Automation :=
    { id, name := trigger, description := none, channelId := none, trigger, triggerConfig := .null,
      isActive := true }
  let member (kind : String) (config : Record) : Value :=
    .object [("type", .str kind), ("config", .object config)]
  { store :=
      { channels := [⟨1, "Flowers", "telegram", .null, .null, true⟩]
        tags := [⟨5, "client", none⟩]
        clients := [⟨1, none, some "Rosa", none, none, .null⟩]
        conversations :=
          [{ id := 1, channelId := 1, clientId := some 1, operatorId := none, status := "open",
             metadata := .object [(chatField, .int 77)], unreadCount := 0, lastMessageAt := none }]
        automations := [automation 1 "new_conversation", automation 2 "tag_added"]
        steps :=
          [row 1 "group" [("steps", .list [member "send_text" [("text", .str "Welcome!")],
              member "send_image" [("url", .str "roses.png"), ("text", .str "Roses")],
              member "add_tag" [("tag_id", .int 5)],
              member "send_text" [("text", .str "Goodbye!")]])],
            row 2 "send_text" [("text", .str "Thank you!")]] }
    rehearsal := { script := [.sent, .failed, .sentAs none, .broken "line"] } }

/-- A new client comes in. -/
def greeted : World :=
  (((Occurrence.dispatched
    { kind := .newConversation, conversationId := 1, channelId := 1 }).handle {}).runOn florist).2

/-- At the florist's the greeting and the thanks are in the history, with a note between them. -/
theorem history_mirrors_florist :
    Mirrored 1 florist greeted
      ∧ (greeted.deliveries.map fun call => (call.1.content.words, (sentOf? call.2).isSome))
        = [("Welcome!", true), ("Roses", false), ("Thank you!", true), ("Goodbye!", false)]
      ∧ (greeted.store.messages.map fun m => (m.isSent, m.providerMessageId))
        = [(true, some 1001), (false, none), (true, none)] := by
  have hintact : florist.Intact := ⟨rfl, fun t id => by simp [florist]⟩
  have hmirrored := (history_mirrors {} hintact).events
    (.dispatched { kind := .newConversation, conversationId := 1, channelId := 1 })
  refine ⟨hmirrored, ?_, ?_⟩
  · decide +kernel
  · decide +kernel

end Engine

end Deskflow
