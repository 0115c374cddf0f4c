import Deskflow.Proofs.HistoryMirror

/-!
# What happens in a conversation stays there

Whatever comes to the engine in a conversation, with all the runs that it sets off, leaves every
other conversation alone, with its messages and runs, and what clients carry other than its own. The
desk's channels, operators, automations and steps stay as they are, tags are only added, and of the
conversation itself nothing changes but its status, its operator and its slot: `Store.Confined`. A
click changes even less, `Store.Brushed`: it sends, changes tags and notes them.

A run is changed by its id as it goes on. What is known then is that every run of that id is in the
conversation, since a run is opened under a new id and no run is added elsewhere (`Store.RunsOf`).

Nobody deletes rows meanwhile, and clients carry only tags that exist (`Store.Rooted`): otherwise a
new tag could be given an id that someone carries already.

What comes to the engine are `dispatch`, `handle_incoming_message`, `resume_paused` and the
triggers; clicks are handled by `handle_callback`.

* `brushed_relabel`, `brushed_send`: the two pieces that clicks are made of.
* `runwork_confines`, `brushed_handle`: what it comes to in runs and under a button.
* `Store.Confined.tagsOf`: what it comes to for the tags of other clients.
* `stays_inside`: the result.
-/

namespace Deskflow

/-! ## Conversations -/

/-- Metadata hold the same under every name but that of the slot. Where they are no record, they are
read as one when the slot is filled or emptied. -/
def Value.SlotApart (m m' : Value) : Prop :=
  m' = m ∨ ∃ r r', m.toRecord = .ok r ∧ m'.toRecord = .ok r' ∧
    ∀ name, name ≠ Suspension.slotField → Record.get? r' name = Record.get? r name

namespace Value.SlotApart

theorem trans {m m' m'' : Value} (h : m.SlotApart m') (k : m'.SlotApart m'') :
    m.SlotApart m'' := by
  rcases h with rfl | ⟨r, r', hr, hr', hget⟩
  · exact k
  rcases k with rfl | ⟨r₁, r'', hr₁, hr'', hget'⟩
  · exact .inr ⟨r, r', hr, hr', hget⟩
  obtain rfl : r' = r₁ := Except.ok.inj (hr'.symm.trans hr₁)
  exact .inr ⟨r, r'', hr, hr'', fun name hname => (hget' name hname).trans (hget name hname)⟩

theorem of_fillSlot {m : Value} {content : Except Fault Record} {fields : Record}
    (h : Suspension.fillSlot m content = .ok fields) : m.SlotApart (.object fields) := by
  obtain ⟨r, hr, h⟩ := Fault.bind_eq_ok.mp h
  obtain ⟨_, -, h⟩ := Fault.bind_eq_ok.mp h
  obtain ⟨_, -, h⟩ := Fault.bind_eq_ok.mp h
  cases h
  exact .inr ⟨r, _, hr, Value.toRecord_object _, fun _ hname => Record.get?_put_ne r _ hname⟩

theorem of_withoutSlot {m held : Value} {fields : Record}
    (h : Suspension.withoutSlot m = .ok (some (held, fields))) : m.SlotApart (.object fields) := by
  obtain ⟨r, hr, h⟩ := Fault.bind_eq_ok.mp h
  obtain ⟨_, -, hfields⟩ := Option.map_eq_some_iff.mp (Except.ok.inj h)
  cases hfields
  exact .inr ⟨r, _, hr, Value.toRecord_object _, fun _ hname => Record.get?_erase_ne r hname⟩

end Value.SlotApart

/-- A conversation is handled: it may get another status, operator and slot. -/
structure Conversation.Handled (k k' : Conversation) : Prop where
  id : k'.id = k.id
  channelId : k'.channelId = k.channelId
  clientId : k'.clientId = k.clientId
  unreadCount : k'.unreadCount = k.unreadCount
  lastMessageAt : k'.lastMessageAt = k.lastMessageAt
  metadata : k.metadata.SlotApart k'.metadata

theorem Conversation.Handled.refl (k : Conversation) : k.Handled k :=
  ⟨rfl, rfl, rfl, rfl, rfl, .inl rfl⟩

theorem Conversation.Handled.trans {k k' k'' : Conversation} (h : k.Handled k')
    (h' : k'.Handled k'') : k.Handled k'' where
  id := h'.id.trans h.id
  channelId := h'.channelId.trans h.channelId
  clientId := h'.clientId.trans h.clientId
  unreadCount := h'.unreadCount.trans h.unreadCount
  lastMessageAt := h'.lastMessageAt.trans h.lastMessageAt
  metadata := h.metadata.trans h'.metadata

/-! ## Stores -/

/-- A change of elements that leaves alone those that are looked at. -/
theorem filter_map_of_fixed {α : Type} {p : α → Bool} {f : α → α} :
    {l : List α} → (∀ a ∈ l, p (f a) = p a) → (∀ a ∈ l, p a = true → f a = a) →
      (l.map f).filter p = l.filter p
  | [], _, _ => rfl
  | a :: l, hp, hf => by
    have ih := filter_map_of_fixed (fun b hb => hp b (List.mem_cons_of_mem a hb))
      fun b hb => hf b (List.mem_cons_of_mem a hb)
    have ha := hp a List.mem_cons_self
    rw [List.map_cons]
    by_cases h : p a = true
    · rw [List.filter_cons_of_pos (ha.trans h), List.filter_cons_of_pos h, ih,
        hf a List.mem_cons_self h]
    · rw [List.filter_cons_of_neg (by rwa [ha]), List.filter_cons_of_neg h, ih]

namespace Store

/-- The client of a conversation, if it is there and has one. -/
def clientIn? (s : Store) (c : Int) : Option Int :=
  (s.find? Conversation c).bind Conversation.clientId

/-- Clients carry only tags that exist. -/
def Rooted (s : Store) : Prop := ∀ m ∈ s.memberships, ∃ t ∈ s.tags, t.id = m.tagId

instance (s : Store) : Decidable s.Rooted :=
  inferInstanceAs (Decidable (∀ m ∈ s.memberships, ∃ t ∈ s.tags, t.id = m.tagId))

/-- From one store to another, nothing changes outside a conversation: -/
structure Confined (c : Int) (s t : Store) : Prop where
  channels : t.channels = s.channels
  operators : t.operators = s.operators
  clients : t.clients = s.clients
  automations : t.automations = s.automations
  steps : t.steps = s.steps
  absent : t.absent = s.absent
  /-- other conversations stay as they are, -/
  others : (t.conversations.filter fun k => k.id != c) = s.conversations.filter fun k => k.id != c
  /-- and the conversation itself but for its status, operator and slot; -/
  own : Option.Rel Conversation.Handled (s.find? Conversation c) (t.find? Conversation c)
  /-- messages are added to it only, -/
  messages : ∃ added, t.messages = s.messages ++ added ∧ ∀ m ∈ added, m.conversationId = c
  /-- the runs of others stay, -/
  runs : (t.runs.filter fun r => r.conversationId != c)
    = s.runs.filter fun r => r.conversationId != c
  /-- and so do the memberships of clients other than its own; -/
  memberships : (t.memberships.filter fun m => some m.clientId != s.clientIn? c)
    = s.memberships.filter fun m => some m.clientId != s.clientIn? c
  /-- tags are only added, under new ids. -/
  tags : ∃ made, t.tags = s.tags ++ made ∧ ∀ new ∈ made, ∀ old ∈ s.tags, old.id < new.id
  rooted : s.Rooted → t.Rooted

/-- What a click in the conversation does changes neither its status nor its operator and slot,
opens no run and makes no tag. -/
structure Brushed (c : Int) (s t : Store) : Prop extends Confined c s t where
  conversations : t.conversations = s.conversations
  log : t.runs = s.runs
  labels : t.tags = s.tags

variable {c : Int} {s t u : Store}

theorem Brushed.refl (c : Int) (s : Store) : Brushed c s s where
  channels := rfl
  operators := rfl
  clients := rfl
  automations := rfl
  steps := rfl
  absent := rfl
  others := rfl
  own := by
    cases s.find? Conversation c with
    | none => exact .none
    | some k => exact .some (.refl k)
  messages := ⟨[], by simp⟩
  runs := rfl
  memberships := rfl
  tags := ⟨[], by simp⟩
  rooted := id
  conversations := rfl
  log := rfl
  labels := rfl

theorem Confined.refl (c : Int) (s : Store) : Confined c s s := (Brushed.refl c s).toConfined

theorem Confined.clientIn? (h : Confined c s t) : t.clientIn? c = s.clientIn? c := by
  have hown := h.own
  unfold Store.clientIn?
  generalize s.find? Conversation c = found, t.find? Conversation c = found' at hown
  cases hown with
  | none => rfl
  | some hk => exact hk.clientId

theorem Confined.trans (h : Confined c s t) (k : Confined c t u) : Confined c s u where
  channels := k.channels.trans h.channels
  operators := k.operators.trans h.operators
  clients := k.clients.trans h.clients
  automations := k.automations.trans h.automations
  steps := k.steps.trans h.steps
  absent := k.absent.trans h.absent
  others := k.others.trans h.others
  own := by
    have hown := h.own
    have kown := k.own
    generalize s.find? Conversation c = a, t.find? Conversation c = b,
      u.find? Conversation c = d at hown kown
    cases hown with
    | none =>
      cases kown
      exact .none
    | some hk =>
      cases kown with
      | some hk' => exact .some (hk.trans hk')
  messages := by
    obtain ⟨added, hadded, hc⟩ := h.messages
    obtain ⟨added', hadded', hc'⟩ := k.messages
    refine ⟨added ++ added', by rw [hadded', hadded, List.append_assoc], fun m hm => ?_⟩
    exact (List.mem_append.mp hm).elim (hc m) (hc' m)
  runs := k.runs.trans h.runs
  memberships := by
    have hk := k.memberships
    rw [h.clientIn?] at hk
    exact hk.trans h.memberships
  tags := by
    obtain ⟨made, hmade, hnew⟩ := h.tags
    obtain ⟨made', hmade', hnew'⟩ := k.tags
    refine ⟨made ++ made', by rw [hmade', hmade, List.append_assoc], fun new hm old hold => ?_⟩
    rcases List.mem_append.mp hm with hm | hm
    · exact hnew new hm old hold
    · exact hnew' new hm old (hmade ▸ List.mem_append_left made hold)
  rooted hs := k.rooted (h.rooted hs)

theorem Brushed.trans (h : Brushed c s t) (k : Brushed c t u) : Brushed c s u where
  toConfined := h.toConfined.trans k.toConfined
  conversations := k.conversations.trans h.conversations
  log := k.log.trans h.log
  labels := k.labels.trans h.labels

/-- **Other clients carry the tags that they did**, if clients carry only tags that exist. -/
theorem Confined.tagsOf (h : Confined c s t) (hs : s.Rooted) {n : Int}
    (hn : some n ≠ s.clientIn? c) : t.tagsOf n = s.tagsOf n := by
  have hmember (id : Int) : (⟨n, id⟩ : Membership) ∈ t.memberships
      ↔ (⟨n, id⟩ : Membership) ∈ s.memberships := by
    have := congrArg (fun l => (⟨n, id⟩ : Membership) ∈ l) h.memberships
    simpa [List.mem_filter, hn] using this
  obtain ⟨made, hmade, hnew⟩ := h.tags
  -- Nobody carries a new tag: what is carried was there before, and new ids are larger.
  have hnone : (made.filter fun new => t.memberships.contains ⟨n, new.id⟩) = [] := by
    refine List.filter_eq_nil_iff.mpr fun new hm hcarried => ?_
    obtain ⟨old, hold, hid⟩ := hs _ ((hmember new.id).mp (List.contains_iff_mem.mp hcarried))
    have hlt := hnew new hm old hold
    have : old.id = new.id := hid
    omega
  unfold Store.tagsOf
  rw [hmade, List.filter_append, hnone, List.append_nil]
  refine List.filter_congr fun old _ => ?_
  rw [Bool.eq_iff_iff, List.contains_iff_mem, List.contains_iff_mem]
  exact hmember old.id

/-! ### What changes -/

/-- A message in the conversation. -/
theorem Brushed.insert_message (s : Store) {k : Conversation} (hk : k.id = c) (now : Moment)
    (o : Outgoing) :
    Brushed c s (s.insert { History.outgoingRow now k o with id := s.nextId Message }) :=
  { Brushed.refl c s with
    messages := by
      refine ⟨_, rows_insert_nextId s (History.outgoingRow now k o), fun m hm => ?_⟩
      cases List.mem_singleton.mp hm
      exact hk }

/-- The client of the conversation comes to carry more tags that exist, -/
theorem Brushed.attached {n : Int} (hn : s.clientIn? c = some n) {tags : List Tag}
    (htags : ∀ t ∈ tags, t ∈ s.tags) :
    Brushed c s (Tagging.attached s n (tags.map Tag.id)) :=
  { Brushed.refl c s with
    memberships := by
      have hnone : ((((tags.map Tag.id).map (Membership.mk n)).filter fun m =>
          !s.memberships.contains m).filter fun m => some m.clientId != s.clientIn? c) = [] := by
        refine List.filter_eq_nil_iff.mpr fun m hm => ?_
        obtain ⟨id, -, rfl⟩ := List.mem_map.mp (List.mem_filter.mp hm).1
        simp [hn]
      show ((s.memberships ++ _).filter _) = _
      rw [List.filter_append, hnone, List.append_nil]
    rooted := by
      intro hs m hm
      rcases Tagging.mem_attached.mp hm with hm | ⟨-, hm⟩
      · exact hs m hm
      · obtain ⟨t, ht, hid⟩ := List.mem_map.mp hm
        exact ⟨t, htags t ht, hid⟩ }

/-- or fewer. -/
theorem Brushed.detached {n : Int} (hn : s.clientIn? c = some n) (ids : List Int) :
    Brushed c s (Tagging.detached s n ids) :=
  { Brushed.refl c s with
    memberships := by
      show ((s.memberships.filter _).filter _) = _
      rw [List.filter_filter]
      refine List.filter_congr fun m _ => ?_
      by_cases hm : m.clientId = n
      · simp [hn, hm]
      · simp [hm]
    rooted := fun hs m hm => hs m (Tagging.mem_detached.mp hm).1 }

/-- Another tag. -/
theorem Confined.insert_tag (s : Store) (tag : Tag) :
    Confined c s (s.insert (Row.withId tag (s.nextId Tag))) := by
  have hrows : (s.insert (Row.withId tag (s.nextId Tag))).tags
      = s.tags ++ [Row.withId tag (s.nextId Tag)] := rows_insert_nextId s tag
  exact
    { Confined.refl c s with
      tags := by
        refine ⟨_, hrows, fun new hnew old hold => ?_⟩
        cases List.mem_singleton.mp hnew
        exact id_lt_nextId hold
      rooted := by
        intro hs m hm
        obtain ⟨t, ht, hid⟩ := hs m hm
        exact ⟨t, hrows ▸ List.mem_append_left _ ht, hid⟩ }

/-- The conversation is handled. -/
theorem Confined.modify_conversation {f : Conversation → Conversation}
    (hid : ∀ k, (f k).id = k.id)
    (hf : ∀ k, s.find? Conversation c = some k → k.Handled (f k)) :
    Confined c s (s.modify Conversation c f) :=
  { Confined.refl c s with
    others := by
      refine filter_map_of_fixed (fun k _ => ?_) fun k _ hk => ?_
      · split
        · rw [hid]
        · rfl
      · exact if_neg fun h => by simp_all [Row.id]
    own := by
      rw [find?_modify_self s c f hid]
      cases hk : s.find? Conversation c with
      | none => exact .none
      | some k => exact .some (hf k hk) }

/-- A run in the conversation is opened, -/
theorem Confined.insert_run (s : Store) (run : Run) (hrun : run.conversationId = c) :
    Confined c s (s.insert (Row.withId run (s.nextId Run))) := by
  have hrows : (s.insert (Row.withId run (s.nextId Run))).runs
      = s.runs ++ [Row.withId run (s.nextId Run)] := rows_insert_nextId s run
  exact
    { Confined.refl c s with
      runs := by
        have hnew : ((Row.withId run (s.nextId Run)).conversationId != c) = false :=
          bne_eq_false_iff_eq.mpr hrun
        rw [hrows, List.filter_append, List.filter_cons_of_neg (by simp [hnew]), List.filter_nil,
          List.append_nil] }

/-- All runs of an id are in the conversation. -/
def RunsOf (c : Int) (s : Store) (id : Int) : Prop :=
  ∀ r ∈ s.runs, r.id = id → r.conversationId = c

theorem runsOf_insert (s : Store) (run : Run) (hrun : run.conversationId = c) :
    (s.insert (Row.withId run (s.nextId Run))).RunsOf c (s.nextId Run) := by
  intro r hr hid
  have hrows : (s.insert (Row.withId run (s.nextId Run))).runs
      = s.runs ++ [Row.withId run (s.nextId Run)] := rows_insert_nextId s run
  rw [hrows] at hr
  rcases List.mem_append.mp hr with hr | hr
  · have hlt : r.id < s.nextId Run := id_lt_nextId hr
    omega
  · rw [List.mem_singleton.mp hr]
    exact hrun

/-- or it goes on. -/
theorem Confined.modify_run {id : Int} {f : Run → Run} (hid : s.RunsOf c id)
    (hf : ∀ r, (f r).opening = r.opening) : Confined c s (s.modify Run id f) :=
  { Confined.refl c s with
    runs := by
      refine filter_map_of_fixed (fun r _ => ?_) fun r hr hother => ?_
      · split
        · have : (f r).conversationId = r.conversationId := congrArg Opening.conversationId (hf r)
          rw [this]
        · rfl
      · refine if_neg fun h => ?_
        have : r.conversationId = c := hid r hr (beq_iff_eq.mp h)
        simp [this] at hother }

/-- No run of that id is added elsewhere. -/
theorem Confined.runsOf (h : Confined c s t) {id : Int} (hid : s.RunsOf c id) : t.RunsOf c id := by
  intro r hr hrun
  by_contra hc
  have hmem : r ∈ s.runs.filter fun r => r.conversationId != c := by
    rw [← h.runs]
    exact List.mem_filter.mpr ⟨hr, by simpa using hc⟩
  exact hc (hid r (List.mem_filter.mp hmem).1 hrun)

end Store

/-! ## Worlds -/

namespace World

/-- Where no script deletes a row, nothing changes outside a conversation. -/
def Confines (c : Int) (w v : World) : Prop :=
  (∀ t, w.rehearsal.Spares t) → (∀ t, v.rehearsal.Spares t) ∧ w.store.Confined c v.store

/-- The same of what a click does. -/
def Brushes (c : Int) (w v : World) : Prop :=
  (∀ t, w.rehearsal.Spares t) → (∀ t, v.rehearsal.Spares t) ∧ w.store.Brushed c v.store

/-- The same of a run that is known to be in the conversation. -/
def ConfinesRun (c id : Int) (w v : World) : Prop :=
  (∀ t, w.rehearsal.Spares t) → w.store.RunsOf c id →
    (∀ t, v.rehearsal.Spares t) ∧ w.store.Confined c v.store

variable {c : Int} {w : World}

instance : Std.Refl (Confines c) := ⟨fun w h => ⟨h, .refl c w.store⟩⟩

instance : IsTrans World (Confines c) := ⟨fun _ _ _ h k hu =>
  have ⟨hspares, hconfined⟩ := h hu
  have ⟨kspares, kconfined⟩ := k hspares
  ⟨kspares, hconfined.trans kconfined⟩⟩

instance : Std.Refl (Brushes c) := ⟨fun w h => ⟨h, .refl c w.store⟩⟩

instance : IsTrans World (Brushes c) := ⟨fun _ _ _ h k hu =>
  have ⟨hspares, hbrushed⟩ := h hu
  have ⟨kspares, kbrushed⟩ := k hspares
  ⟨kspares, hbrushed.trans kbrushed⟩⟩

instance (id : Int) : Std.Refl (ConfinesRun c id) := ⟨fun w h _ => ⟨h, .refl c w.store⟩⟩

instance (id : Int) : IsTrans World (ConfinesRun c id) := ⟨fun _ _ _ h k hu hid =>
  have ⟨hspares, hconfined⟩ := h hu hid
  have ⟨kspares, kconfined⟩ := k hspares (hconfined.runsOf hid)
  ⟨kspares, hconfined.trans kconfined⟩⟩

theorem Brushes.confines {v : World} (h : Brushes c w v) : Confines c w v := fun hw =>
  ⟨(h hw).1, (h hw).2.toConfined⟩

/-- A change of the store alone. -/
theorem Confines.of_store {s : Store} (h : w.store.Confined c s) :
    Confines c w { w with store := s } := fun hw => ⟨hw, h⟩

end World

namespace Engine

open Work World

variable {settings : Settings} {c : Int} {w : World}

/-! ## The pieces of steps -/

theorem brushed_transact {k : Conversation} (hk : k.id = c) (o : Outgoing) :
    Work.Keeps (Brushes c) (transact fun now => History.addOutgoing now k o) :=
  Work.Keeps.transact fun w id s h hw => by
    obtain rfl := History.addOutgoing_eq_ok h
    exact ⟨hw, .insert_message w.store hk w.clock o⟩

theorem brushed_addNote {k : Conversation} (hk : k.id = c) (note : Outgoing) :
    Work.Keeps (Brushes c) (addNote k note) :=
  Work.Keeps.returning (brushed_transact hk note)

/-- **Tags are changed of the client of the conversation, and noted there.** -/
theorem brushed_relabel {k : Conversation} {n : Int} (hk : w.store.find? Conversation c = some k)
    (hn : k.clientId = some n) (kind : EventKind) (values : List Value) :
    Brushes c w ((relabel k n kind values).runOn w).2 := by
  have hclient : w.store.clientIn? c = some n := by rw [Store.clientIn?, hk]; exact hn
  refine trans_bind ?_ fun changed v _ => ?_
  · rw [query, run_transact]
    rcases h : (Tagging.change (kind = .tagRemoved) n values).run w.store with fault | ⟨changed, s⟩
    · exact Std.Refl.refl w
    · obtain ⟨htags, rfl⟩ := Transaction.changed_of_change h
      refine fun hw => ⟨hw, ?_⟩
      dsimp only
      split
      · exact .detached hclient _
      · exact .attached hclient htags
  · split
    · exact Std.Refl.refl v
    · exact Work.Keeps.returning (brushed_addNote (Store.id_of_find? hk) _) v

theorem brushed_deliver (settings : Settings) (c : Int) (d : Delivery) :
    Work.Keeps (Brushes c) (deliver settings d) := by
  intro w hw
  obtain ⟨answer, v, hdeliver, hspares, hstore, -⟩ := answered_deliver settings d hw
  rw [hdeliver]
  exact ⟨hspares, hstore ▸ .refl c w.store⟩

/-- **What is sent is kept in the conversation.** -/
theorem brushed_send {thread : Thread} (hk : thread.conversation.id = c) (chat : Int)
    (content : Content) (keyboard : List Callback.Key) (outgoing : Outgoing) :
    Work.Keeps (Brushes c) (send settings thread chat content keyboard outgoing) := by
  refine Work.Keeps.bind (keeps_channelOf thread) fun channel => ?_
  refine Work.Keeps.bind (brushed_deliver settings c _) fun sent => ?_
  cases sent with
  | none => exact Work.Keeps.pure _
  | some sent => exact Work.Keeps.returning (brushed_transact hk _)

theorem clickwork_brushes (settings : Settings) (c : Int) : Clickwork settings c (Brushes c) where
  relabels _ hk hn values := brushed_relabel hk hn _ values
  sends keyboard loaded _ _ :=
    brushed_send (Store.id_of_find? (find?_of_loadThread loaded).2) _ _ keyboard _ _

theorem stepwork_confines (settings : Settings) (c : Int) : Stepwork settings c (Confines c) where
  relabels hkind hk hn values :=
    ((clickwork_brushes settings c).relabels hkind hk hn values).confines
  sends keyboard loaded hchat hcopies :=
    ((clickwork_brushes settings c).sends keyboard loaded hchat hcopies).confines
  makes {w s tag added} _ h := by
    rw [Transaction.run_add] at h
    split at h
    · cases h
    · cases h
      exact .of_store (.insert_tag w.store tag)
  edits w operator status := .of_store <| Store.Confined.modify_conversation (fun _ => rfl)
    fun _ _ => ⟨rfl, rfl, rfl, rfl, rfl, .inl rfl⟩
  notes _ _ hk w := (brushed_addNote hk _ w).confines
  waits _ := Work.Keeps.modify fun w hw => ⟨hw, .refl c w.store⟩

/-! ## Runs -/

/-- A slot that is filled or emptied. -/
theorem confined_withMetadata {s : Store} {k : Conversation} {fields : Record}
    (hk : s.find? Conversation c = some k) (hfields : k.metadata.SlotApart (.object fields)) :
    s.Confined c (s.withMetadata c fields) := by
  refine Store.Confined.modify_conversation (fun _ => rfl) fun k' hk' => ?_
  obtain rfl := Option.some.inj (hk.symm.trans hk')
  exact ⟨rfl, rfl, rfl, rfl, rfl, hfields⟩

theorem confined_awaitCondition {ctx : Context} (hc : ctx.conversationId = c) (stepId : String)
    (condition : Condition) : Work.Keeps (Confines c) (awaitCondition ctx stepId condition) := by
  subst hc
  refine keeps_awaitCondition fun w facts s _ hs hw => ⟨hw, ?_⟩
  rcases Slot.fill_eq_ok hs with ⟨-, rfl⟩ | ⟨k, fields, hk, hf, rfl⟩
  · exact .refl _ w.store
  · exact confined_withMetadata hk (.of_fillSlot hf)

theorem confined_execute {onTags : TagHandler}
    (handled : ∀ kind channel tags, Work.Keeps (Confines c) (onTags kind c channel tags))
    (flow : Flow) (data : Value) (instead : Option (List Step)) :
    Work.Keeps (Confines c) (execute settings onTags flow c data instead) := by
  refine keeps_execute_of_own (stepwork_confines settings c) (ConfinesRun c)
    (fun h hw _ => h hw) (fun ctx hc stepId => confined_awaitCondition hc stepId) ?_ ?_ ?_ handled
    flow data instead
  · exact fun w id f hf hw hid => ⟨hw, .modify_run hid hf⟩
  · exact fun w _ _ hw _ => ⟨hw, .refl c w.store⟩
  · intro w automationId clientId data id s hopen v h hw
    obtain ⟨rfl, -, rfl⟩ := RunLog.openRun_eq_ok hopen
    let run := RunLog.opened w.clock automationId c clientId data 0
    obtain ⟨hspares, hconfined⟩ := h hw (Store.runsOf_insert w.store run rfl)
    exact ⟨hspares, (Store.Confined.insert_run w.store run rfl).trans hconfined⟩

theorem runwork_confines (settings : Settings) (c : Int) : Runwork settings c (Confines c) where
  executes := confined_execute
  remembers w _ hw := ⟨hw, .refl c w.store⟩

theorem confines_take {taken : Option Suspension} {s : Store}
    (h : (Slot.take c).run w.store = .ok (taken, s)) : Confines c w { w with store := s } := by
  rcases Slot.erased_of_take h with ⟨-, rfl⟩ | ⟨k, held, fields, hk, hslot, -, rfl⟩
  · exact .of_store (.refl c w.store)
  · exact .of_store (confined_withMetadata hk (.of_withoutSlot hslot))

end Engine

namespace Click

open World

/-- **A click changes even less.** -/
theorem brushed_handle (settings : Settings) (c : Int) (data : String) :
    Work.Keeps (Brushes c) (handle settings c data) :=
  keeps_handle (Engine.clickwork_brushes settings c) data

end Click

/-! ## The result -/

/-- Nothing outside a conversation changes, nor what clients carry other than its own. -/
structure Store.Apart (c : Int) (s t : Store) : Prop extends Store.Confined c s t where
  tagsOf : ∀ n, some n ≠ s.clientIn? c → t.tagsOf n = s.tagsOf n

namespace Engine

/-- Everything stays inside its conversation, faults or not: -/
structure StaysInside (settings : Settings) (w : World) : Prop where
  /-- what comes to the engine, with all the runs that it sets off; -/
  events : ∀ o : Occurrence,
    w.store.Apart o.conversationId ((o.handle settings).runOn w).2.store
  /-- a run that is carried out for itself; -/
  runs : ∀ (flow : Flow) (c : Int) (data : Value) (instead : Option (List Step)),
    w.store.Apart c ((execute settings (chained settings) flow c data instead).runOn w).2.store
  /-- and a click, which opens no run and leaves the slot, the status and the operator. -/
  clicks : ∀ (c : Int) (data : String),
    w.store.Apart c ((Click.handle settings c data).runOn w).2.store
      ∧ w.store.Brushed c ((Click.handle settings c data).runOn w).2.store

/-- **Everything stays inside its conversation**, if nobody deletes rows meanwhile and clients carry
only tags that exist. -/
theorem stays_inside (settings : Settings) {w : World} (hspares : ∀ t, w.rehearsal.Spares t)
    (hrooted : w.store.Rooted) : StaysInside settings w := by
  have apart {c : Int} {t : Store} (h : w.store.Confined c t) : w.store.Apart c t :=
    ⟨h, fun _ => h.tagsOf hrooted⟩
  refine ⟨fun o => ?_, fun flow c data instead => ?_, fun c data => ?_⟩
  · exact apart ((runwork_confines settings _).handle confines_take rfl w hspares).2
  · have work := runwork_confines settings c
    exact apart (work.executes work.chained flow data instead w hspares).2
  · have hbrushed := (Click.brushed_handle settings c data w hspares).2
    exact ⟨apart hbrushed.toConfined, hbrushed⟩

/-! ### A hotel with two guests -/

/-- A hotel with two guests, each in a conversation. Whoever arrives gets a tag that nobody has yet
and the porter, and then waits to be a guest again; a click asks for towels. -/
def hotel : World :=
  let member (kind : String) (config : Record) : Value :=
    .object [("type", .str kind), ("config", .object config)]
  let conversation (id : Int) : Conversation :=
    { id, channelId := 1, clientId := some id, operatorId := none, status := "open",
      metadata := .object [(chatField, .int 77)], unreadCount := 0, lastMessageAt := none }
  { store :=
      { channels := [⟨1, "Desk", "telegram", .null, .null, true⟩]
        operators := [⟨3, "Porter"⟩]
        tags := [⟨5, "towels", none⟩]
        clients :=
          [⟨1, none, some "Ada", none, none, .null⟩, ⟨2, none, some "Ben", none, none, .null⟩]
        memberships := [⟨2, 5⟩]
        conversations := [conversation 1, conversation 2]
        automations := [{ id := 1, name := "arrival", description := none, channelId := none,
                          trigger := "new_conversation", triggerConfig := .null, isActive := true }]
        steps :=
          [{ id := 1, automationId := 1, stepId := "desk", kind := groupKind,
             config := .object [("steps", .list [
               member "add_tag" [("tag_name", .str "guest")],
               member "assign_operator" [("operator_id", .int 3)],
               member Click.buttonsKind [("text", .str "Welcome!"),
                 ("buttons", .list [.object [("text", .str "Towels"), ("action", .str "add_tag"),
                   ("action_config", .object [("tag_id", .int 5)])]])],
               member "condition" [("condition_type", .str "is_returning_client")],
               member "close_conversation" []])],
             position := .null, order := 0, nextStepId := none, trueStepId := none,
             falseStepId := none }] } }

/-- Ada arrives. -/
def arrived : World :=
  (((Occurrence.dispatched
    { kind := .newConversation, conversationId := 1, channelId := 1 }).handle {}).runOn hotel).2

/-- She asks for towels. -/
def towelled : World := ((Click.handle {} 1 "desk-s2:0").runOn arrived).2

/-- At the hotel Ada is tagged, handed over and left waiting, and Ben is left alone. -/
theorem stays_inside_hotel :
    hotel.store.Apart 1 arrived.store ∧ arrived.store.Brushed 1 towelled.store
      ∧ (arrived.store.conversations.map fun k =>
          (k.operatorId, k.metadata.fields.has Suspension.slotField))
        = [(some 3, true), (none, false)]
      ∧ towelled.store.memberships = [⟨2, 5⟩, ⟨1, 6⟩, ⟨1, 5⟩]
      ∧ (towelled.store.messages.map Message.conversationId) = [1, 1, 1, 1] := by
  have hspares : ∀ t, hotel.rehearsal.Spares t := fun t id => by simp [hotel]
  have hinside := (stays_inside {} hspares (by decide)).events
    (.dispatched { kind := .newConversation, conversationId := 1, channelId := 1 })
  have hempty : arrived.rehearsal.script = [] := by decide +kernel
  have hlater : ∀ t, arrived.rehearsal.Spares t := fun t id => by simp [hempty]
  have hclicks := (stays_inside {} hlater (hinside.rooted (by decide))).clicks 1 "desk-s2:0"
  refine ⟨hinside, hclicks.2, ?_, ?_, ?_⟩
  · decide +kernel
  · decide +kernel
  · decide +kernel

end Engine

end Deskflow
