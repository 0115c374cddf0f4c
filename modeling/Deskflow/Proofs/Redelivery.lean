import Deskflow.Proofs.InboundVisit

/-!
# Redelivery

What becomes of a message that comes in again. It is not stored a second time, and no message is
touched. But the visit comes before the question whether the message is there, so it leaves its
marks each time: the client takes on the name that the message comes under, and the conversation
gets a new time, is opened again if it was resolved, and gets a chat if it had none.

Both the visit and the question are in `record_incoming`.

* `Greeted.clients_eq_iff`, `Seen.conversations_eq_iff`: where a visit leaves no mark.
* `redelivered_exactly`: the result.
* `not_always_unmarked`: a message that comes in again opens a resolved conversation.
-/

namespace Deskflow.Inbound

open Transaction

/-! ## What a visit marks -/

/-- What a message that comes under a name makes of the clients: the one behind its user id is
called by the name, or is made if there is none. -/
def Greeted (m : Inbound) (name : String) (userId id : Int) (s s' : Store) : Prop :=
  (∃ k ∈ s.clients, k.id = id ∧ k.externalId = some (externalId userId)
    ∧ s'.clients = s.clients.map fun x => if x.id = id then x.called name else x)
  ∨ s.clientOf? userId = none ∧ id = s.nextId Client
    ∧ s'.clients = s.clients ++ [m.newClient userId name id]

/-- What a visit makes of the conversations: the one on the channel with the client is marked, or is
made if there is none. -/
def Seen (now : Moment) (m : Inbound) (channelId clientId id : Int) (s s' : Store) : Prop :=
  (∃ c ∈ s.conversations, c.id = id ∧ c.channelId = channelId ∧ c.clientId = some clientId
    ∧ ∃ metadata, m.metadataWithChat c.metadata = .ok metadata
      ∧ s'.conversations = s.conversations.map fun x =>
          if x.id = id then visited now metadata x else x)
  ∨ s.threadOf? channelId clientId = none ∧ id = s.nextId Conversation
    ∧ ∃ chatId, m.chatId.toInt = .ok chatId
      ∧ s'.conversations = s.conversations ++ [newConversation now channelId clientId chatId id]

/-- Rows are left as they are by a change of the one row with an id just if that row is. -/
theorem map_eq_self_iff {α : Type} {rows : List α} {key : α → Int} {f : α → α} {x : α}
    (hkeys : (rows.map key).Nodup) (hx : x ∈ rows) :
    rows.map (fun y => if key y = key x then f y else y) = rows ↔ f x = x := by
  conv_lhs => rhs; rw [← List.map_id rows]
  rw [List.map_inj_left]
  constructor
  · intro h
    simpa using h x hx
  · intro h y hy
    split
    · obtain rfl := List.inj_on_of_nodup_map hkeys hy hx ‹_›
      exact h
    · rfl

theorem Greeted.clients_eq_iff {m : Inbound} {name : String} {userId id : Int} {s s' : Store}
    (h : m.Greeted name userId id s s') (hkeys : (s.clients.map Client.id).Nodup) :
    s'.clients = s.clients ↔ ∃ k ∈ s.clients, k.id = id ∧ k.called name = k := by
  rcases h with ⟨k, hk, rfl, -, hmap⟩ | ⟨-, rfl, happend⟩
  · rw [hmap, map_eq_self_iff hkeys hk]
    constructor
    · exact fun h => ⟨k, hk, rfl, h⟩
    · rintro ⟨k', hk', hid, h⟩
      obtain rfl := List.inj_on_of_nodup_map hkeys hk' hk hid
      exact h
  · rw [happend]
    constructor
    · intro h
      simp at h
    · rintro ⟨k, hk, hid, -⟩
      exact absurd hid (Int.ne_of_lt (Store.id_lt_nextId (ρ := Client) hk))

theorem visited_eq_self_iff {now : Moment} {metadata : Value} {c : Conversation} :
    visited now metadata c = c ↔
      metadata = c.metadata ∧ c.lastMessageAt = some now ∧ c.status ≠ "resolved" := by
  obtain ⟨id, channelId, clientId, operatorId, status, held, unread, last⟩ := c
  by_cases hs : status = "resolved"
  · simp [visited, hs]
  · simp [visited, hs, eq_comm]

theorem Seen.conversations_eq_iff {now : Moment} {m : Inbound} {channelId clientId id : Int}
    {s s' : Store} (h : m.Seen now channelId clientId id s s')
    (hkeys : (s.conversations.map Conversation.id).Nodup) :
    s'.conversations = s.conversations ↔ ∃ c ∈ s.conversations, c.id = id
      ∧ m.metadataWithChat c.metadata = .ok c.metadata ∧ c.lastMessageAt = some now
      ∧ c.status ≠ "resolved" := by
  rcases h with ⟨c, hc, rfl, -, -, metadata, hmetadata, hmap⟩ | ⟨-, rfl, chatId, -, happend⟩
  · rw [hmap, map_eq_self_iff hkeys hc, visited_eq_self_iff]
    constructor
    · rintro ⟨rfl, hrest⟩
      exact ⟨c, hc, rfl, hmetadata, hrest⟩
    · rintro ⟨c', hc', hid, hsame, hrest⟩
      obtain rfl := List.inj_on_of_nodup_map hkeys hc' hc hid
      exact ⟨Except.ok.inj (hmetadata.symm.trans hsame), hrest⟩
  · rw [happend]
    constructor
    · intro h
      simp at h
    · rintro ⟨c, hc, hid, -⟩
      exact absurd hid (Int.ne_of_lt (Store.id_lt_nextId (ρ := Conversation) hc))

theorem greeted_of_client {m : Inbound} {name : String} {s t : Store} {k : Client} {isNew : Bool}
    (hkeys : (s.clients.map Client.id).Nodup) (h : (m.client name).run s = .ok ((k, isNew), t)) :
    ∃ userId, m.userId.toInt = .ok userId ∧ m.Greeted name userId k.id s t
      ∧ t = { s with clients := t.clients } := by
  obtain ⟨userId, huser, ⟨hk, -, rfl⟩ | ⟨hk, -, rfl, rfl⟩⟩ := client_eq_ok hkeys h
  · refine ⟨userId, huser, .inl ⟨k, List.mem_of_find?_eq_some hk, rfl, ?_, ?_⟩, rfl⟩
    · simpa using List.find?_some hk
    · exact List.map_congr_left fun x _ => by simp [Row.id]
  · exact ⟨userId, huser, .inr ⟨hk, rfl, Store.rows_insert_nextId s (m.newClient userId name 0)⟩,
      rfl⟩

theorem seen_of_conversation {now : Moment} {m : Inbound} {channelId clientId : Int}
    {s t : Store} {c : Conversation} {isNew : Bool} {metadata : Value}
    (h : (m.conversation now channelId clientId).run s = .ok ((c, isNew), t))
    (hmetadata : m.metadataWithChat c.metadata = .ok metadata) :
    let s' := t.modify Conversation c.id (visited now metadata)
    m.Seen now channelId clientId c.id s s'
      ∧ s' = { s with conversations := s'.conversations } := by
  rcases conversation_eq_ok h with ⟨hc, -, rfl⟩ | ⟨hc, -, chatId, hchat, rfl, rfl⟩
  · have hfound := List.find?_some hc
    simp only [Bool.and_eq_true, decide_eq_true_eq] at hfound
    refine ⟨.inl ⟨c, List.mem_of_find?_eq_some hc, rfl, hfound.1, hfound.2, metadata, hmetadata,
      ?_⟩, rfl⟩
    exact List.map_congr_left fun x _ => by simp [Row.id]
  · refine ⟨.inr ⟨hc, rfl, chatId, hchat, ?_⟩, rfl⟩
    have hrows := modify_insert_conversations s (visited now metadata)
      (c := newConversation now channelId clientId chatId (s.nextId Conversation)) rfl
    rwa [visited_newConversation hmetadata] at hrows

/-- A visit greets the client, marks the conversation, and does nothing else. -/
theorem greeted_and_seen_of_visit {now : Moment} {m : Inbound} {s t : Store} {v : Visit}
    (hkeys : (s.clients.map Client.id).Nodup) (h : (m.visit now).run s = .ok (v, t)) :
    ∃ name userId, m.givenName = .ok name ∧ m.userId.toInt = .ok userId
      ∧ m.Greeted name userId v.client.id s t
      ∧ m.Seen now v.channel.id v.client.id v.conversation.id s t
      ∧ t = { s with clients := t.clients, conversations := t.conversations } := by
  obtain ⟨name, channelId, isNew, s₁, s₂, metadata, hname, -, -, hclient, -, hconversation,
    hmetadata, rfl⟩ := visit_eq_ok.mp h
  obtain ⟨userId, huser, hgreeted, hrest⟩ := greeted_of_client hkeys hclient
  obtain ⟨clients, rfl⟩ : ∃ clients, s₁ = { s with clients } := ⟨_, hrest⟩
  obtain ⟨hseen, hrest'⟩ := seen_of_conversation hconversation hmetadata
  have hkept : (s₂.modify Conversation v.conversation.id (visited now metadata)).clients
      = clients := congrArg Store.clients hrest'
  refine ⟨name, userId, hname, huser, ?_, hseen, ?_⟩
  · rw [Greeted, hkept]
    exact hgreeted
  · rw [hkept]
    exact hrest'

/-! ## A message that comes in again -/

/-- What a message that was there already, as a receipt tells, has done to a store. -/
structure Marks (now : Moment) (m : Inbound) (name : String) (userId : Int) (s : Store)
    (r : Receipt) (s' : Store) : Prop where
  /-- The message is there, under its id with the messaging service. -/
  there : ∃ p message, m.providerMessageId.toInt = .ok p ∧ message ∈ s.messages
    ∧ message.id = r.messageId ∧ History.isIncoming r.conversationId p message = true
  /-- The client has been greeted, -/
  client : m.Greeted name userId r.clientId s s'
  /-- the conversation has been seen, -/
  conversation : m.Seen now r.channelId r.clientId r.conversationId s s'
  /-- and nothing else has been done: above all, no message was added or changed. -/
  others : s' = { s with clients := s'.clients, conversations := s'.conversations }
  /-- Nothing at all has been done just if the client has the name already and the conversation has
  a chat, is not resolved, and was seen at the same moment. -/
  unmarked : s' = s ↔ (∃ k ∈ s.clients, k.id = r.clientId ∧ k.called name = k)
    ∧ ∃ c ∈ s.conversations, c.id = r.conversationId
      ∧ m.metadataWithChat c.metadata = .ok c.metadata ∧ c.lastMessageAt = some now
      ∧ c.status ≠ "resolved"

/-- **A message that comes in again leaves exactly the marks of a visit.** -/
theorem redelivered_exactly {now : Moment} {m : Inbound} {s s' : Store} {r : Receipt}
    (hclients : (s.clients.map Client.id).Nodup)
    (hconversations : (s.conversations.map Conversation.id).Nodup)
    (h : (m.record now).run s = .ok (r, s')) (hr : r.duplicate = true) :
    ∃ name userId, m.givenName = .ok name ∧ m.userId.toInt = .ok userId
      ∧ Marks now m name userId s r s' := by
  obtain ⟨v, t, found, hvisit, hfound, h⟩ := record_eq_ok.mp h
  cases found with
  | none =>
    obtain ⟨id, -, hreceipt⟩ := h
    obtain ⟨disabled, -, rfl⟩ := Visit.receipt_eq_ok.mp hreceipt
    cases hr
  | some message =>
    obtain ⟨hreceipt, rfl⟩ := h
    obtain ⟨disabled, -, rfl⟩ := Visit.receipt_eq_ok.mp hreceipt
    obtain ⟨name, userId, hname, huser, hgreeted, hseen, hothers⟩ :=
      greeted_and_seen_of_visit hclients hvisit
    obtain ⟨p, hp, hfind⟩ := duplicate?_eq_some hfound
    have hmessages : s'.messages = s.messages := by rw [hothers]
    refine ⟨name, userId, hname, huser, ?_⟩
    exact
      { there := ⟨p, message, hp, hmessages ▸ List.mem_of_find?_eq_some hfind, rfl,
          List.find?_some hfind⟩
        client := hgreeted
        conversation := hseen
        others := hothers
        unmarked := by
          rw [← hgreeted.clients_eq_iff hclients, ← hseen.conversations_eq_iff hconversations]
          constructor
          · rintro rfl
            exact ⟨rfl, rfl⟩
          · rintro ⟨hk, hc⟩
            rw [hothers, hk, hc] }

/-! ### A resolved conversation -/

/-- A message from Anna. -/
def question : Inbound :=
  { channelId := .int 1, userId := .int 7, chatId := .int 7, name := .str "Anna",
    content := "Are you open?", providerMessageId := .int 5 }

/-- A desk where Anna's message was stored and her conversation resolved since. -/
def answered : Store :=
  { channels := [⟨1, "Support bot", "telegram", .null, .object [], true⟩]
    clients := [⟨1, some "tg_7", some "Anna", none, none, .null⟩]
    conversations :=
      [{ id := 1, channelId := 1, clientId := some 1, operatorId := none, status := "resolved",
         metadata := .object [(chatField, .int 7)], unreadCount := 1, lastMessageAt := some ⟨0⟩ }]
    messages :=
      [{ id := 1, conversationId := 1, channelId := 1, clientId := some 1, operatorId := none,
         direction := "incoming", kind := "text", content := some "Are you open?",
         status := "received", attachments := .null, providerMessageId := some 5,
         metadata := .object [(chatField, .int 7)], createdAt := some ⟨0⟩ }] }

/-- The same once the message has come in again. -/
def reopened (now : Moment) : Store :=
  answered.modify Conversation 1 fun c => { c with status := "open", lastMessageAt := some now }

/-- What is told of the message when it comes in again. -/
def again : Receipt :=
  { conversationId := 1, messageId := 1, clientId := 1, channelId := 1, content := "Are you open?",
    isNewConversation := false, clientHasOtherChannels := false, automationsDisabled := false,
    duplicate := true }

/-- Anna's message, which comes in again, has its marks. -/
theorem redelivered_exactly_question :
    ∃ name userId, question.givenName = .ok name ∧ question.userId.toInt = .ok userId
      ∧ Marks ⟨1⟩ question name userId answered again (reopened ⟨1⟩) :=
  redelivered_exactly (by decide) (by decide) (by decide +kernel) rfl

/-- What comes in again does not leave clients, conversations and messages as they are. -/
theorem not_always_unmarked :
    ¬(∀ (now : Moment) (m : Inbound) (s s' : Store) (r : Receipt),
      (m.record now).run s = .ok (r, s') → r.duplicate = true →
      s'.clients = s.clients ∧ s'.conversations = s.conversations
        ∧ s'.messages = s.messages) := by
  intro h
  have hrun : (question.record ⟨1⟩).run answered = .ok (again, reopened ⟨1⟩) := by decide +kernel
  exact absurd (h _ _ _ _ _ hrun rfl).2.1 (by decide)

end Deskflow.Inbound
