import Deskflow.Desk.Inbound
import Deskflow.Proofs.Preservation
import Mathlib.Data.List.Nodup

/-!
# A visit

A message that comes in is stored in two parts. The visit greets the client, finds the conversation
and marks it; only then it is seen whether the message is there already, and if it is not, it is
deposited in the conversation.

* `record_eq`: storing a message is a visit and then, for a message that is not there, a deposit.
* `visit_eq_ok`, `record_eq_ok`: where they go through, and what they come to.
* `run_client_of_some`, `run_client_of_none`: the client, known or new.
* `run_conversation_of_some`, `run_conversation_of_none`: the conversation, known or new.
-/

namespace Deskflow

open Transaction

/-- The client behind a user id, if there is one. -/
def Store.clientOf? (s : Store) (userId : Int) : Option Client :=
  s.clients.find? fun k => k.externalId = some (Inbound.externalId userId)

/-- The conversation on a channel with a client, if there is one. -/
def Store.threadOf? (s : Store) (channelId clientId : Int) : Option Conversation :=
  s.conversations.find? fun c => c.channelId = channelId && c.clientId = some clientId

/-- A client once it has come under a name. The empty name is none. -/
def Client.called (name : String) (k : Client) : Client :=
  if name = "" then k else { k with name := some name }

/-- Who came, where, and into which conversation. -/
structure Visit where
  channel : Channel
  client : Client
  conversation : Conversation
  isNew : Bool
  others : Bool

/-- What is told of a message that came in with a visit. -/
def Visit.receipt (v : Visit) (m : Inbound) (messageId : Int) (isNew duplicate : Bool) :
    Except Fault Receipt := do
  return {
    conversationId := v.conversation.id
    messageId
    clientId := v.client.id
    channelId := v.channel.id
    content := m.content
    isNewConversation := isNew
    clientHasOtherChannels := v.others
    automationsDisabled := ← v.channel.automationsDisabled
    duplicate }

theorem Visit.receipt_eq_ok {v : Visit} {m : Inbound} {id : Int} {isNew duplicate : Bool}
    {r : Receipt} :
    v.receipt m id isNew duplicate = .ok r ↔
      ∃ disabled, v.channel.automationsDisabled = .ok disabled
        ∧ r = ⟨v.conversation.id, id, v.client.id, v.channel.id, m.content, isNew, v.others,
            disabled, duplicate⟩ := by
  unfold receipt
  cases v.channel.automationsDisabled with
  | error fault => simp [bind, Except.bind]
  | ok disabled => simp [bind, Except.bind, pure, Except.pure, eq_comm]

namespace Inbound

/-- Whether a client has conversations on other channels; a new one has none. -/
def elsewhere (isNewClient : Bool) (channelId clientId : Int) : Transaction Bool :=
  if isNewClient then pure false else hasOtherChannels channelId clientId

/-- What is done for a message that comes in before it is seen whether it is there already. -/
def visit (now : Moment) (m : Inbound) : Transaction Visit := do
  let name ← m.givenName
  let channelId ← m.channelId.toInt
  let some channel ← load Channel channelId | throw (.channelNotFound m.channelId.text)
  let k ← m.client name
  let others ← elsewhere k.2 channel.id k.1.id
  let c ← m.conversation now channel.id k.1.id
  let metadata ← m.metadataWithChat c.1.metadata
  edit Conversation c.1.id (visited now metadata)
  return ⟨channel, k.1, c.1, c.2, others⟩

/-- Adds a message to the conversation of a visit, and counts it; tells its id. -/
def deposit (now : Moment) (m : Inbound) (v : Visit) : Transaction Int := do
  let providerMessageId ← m.providerId?
  let chatId ← m.chatId.toInt
  let message ← add
    (m.row now v.conversation.id v.channel.id v.client.id chatId providerMessageId)
  fit (v.conversation.unreadCount + 1)
  edit Conversation v.conversation.id fun c => { c with unreadCount := c.unreadCount + 1 }
  return message.id

/-- Storing a message is a visit, and a deposit if the message is not there. -/
theorem record_eq (now : Moment) (m : Inbound) : m.record now = (do
    let v ← m.visit now
    match ← m.duplicate? v.conversation.id with
    | some message => v.receipt m message.id false true
    | none => v.receipt m (← m.deposit now v) v.isNew false) := by
  unfold record visit deposit Visit.receipt
  simp only [bind_assoc, pure_bind]
  congr 1
  funext name
  congr 1
  funext channelId
  congr 1
  funext channel
  cases channel with
  | none => rfl
  | some channel =>
    simp only [bind_assoc, liftM_bind, liftM_pure]
    congr 1
    funext k
    -- the rest of the visit stands in both branches of the question whether the client is new
    unfold elsewhere
    cases k.2 with
    | false => rfl
    | true => rfl

/-! ## What only reads -/

theorem reads_elsewhere (isNewClient : Bool) (channelId clientId : Int) :
    Reads (elsewhere isNewClient channelId clientId) := by
  unfold elsewhere hasOtherChannels
  split
  · exact Reads.pure _
  · exact Keeps.bind (reads_rows _) fun _ => Reads.pure _

theorem reads_incoming? (c p : Int) : Reads (History.incoming? c p) :=
  Keeps.bind (reads_rows _) fun _ => Keeps.bind (reads_fit c) fun _ =>
    Keeps.bind (reads_fit p) fun _ => Reads.pure _

theorem reads_duplicate? (m : Inbound) (c : Int) : Reads (m.duplicate? c) := by
  unfold duplicate?
  split
  · exact Reads.pure _
  · exact Keeps.bind (Reads.lift _) fun p => reads_incoming? c p

/-- A message that is there already is the first that came in under the same id. -/
theorem duplicate?_eq_some {m : Inbound} {c : Int} {s : Store} {message : Message}
    (h : (m.duplicate? c).run s = .ok (some message, s)) :
    ∃ p, m.providerMessageId.toInt = .ok p
      ∧ s.messages.find? (History.isIncoming c p) = some message := by
  unfold duplicate? History.incoming? at h
  split at h
  · cases h
  · obtain ⟨p, s₁, h₁, h⟩ := run_bind_eq_ok.mp h
    obtain ⟨hp, rfl⟩ := lift_eq_ok h₁
    obtain ⟨messages, s₂, h₂, h⟩ := run_bind_eq_ok.mp h
    obtain ⟨-, rfl, rfl⟩ := run_rows_eq_ok.mp h₂
    obtain ⟨_, s₃, h₃, h⟩ := run_bind_eq_ok.mp h
    obtain rfl := fit_eq_ok h₃
    obtain ⟨_, s₄, h₄, h⟩ := run_bind_eq_ok.mp h
    obtain rfl := fit_eq_ok h₄
    exact ⟨p, hp, congrArg Prod.fst (Except.ok.inj h)⟩

/-! ## Going through -/

/-- A visit goes through where each of its parts does. -/
theorem visit_eq_ok {now : Moment} {m : Inbound} {s t : Store} {v : Visit} :
    (m.visit now).run s = .ok (v, t) ↔ ∃ name channelId isNewClient s₁ s₂ metadata,
      m.givenName = .ok name ∧ m.channelId.toInt = .ok channelId
        ∧ (load Channel channelId).run s = .ok (some v.channel, s)
        ∧ (m.client name).run s = .ok ((v.client, isNewClient), s₁)
        ∧ (elsewhere isNewClient v.channel.id v.client.id).run s₁ = .ok (v.others, s₁)
        ∧ (m.conversation now v.channel.id v.client.id).run s₁
          = .ok ((v.conversation, v.isNew), s₂)
        ∧ m.metadataWithChat v.conversation.metadata = .ok metadata
        ∧ t = s₂.modify Conversation v.conversation.id (visited now metadata) := by
  constructor
  · intro h
    unfold visit at h
    obtain ⟨name, s₀, h₀, h⟩ := run_bind_eq_ok.mp h
    obtain ⟨hname, rfl⟩ := lift_eq_ok h₀
    obtain ⟨channelId, s₀, h₀, h⟩ := run_bind_eq_ok.mp h
    obtain ⟨hchannel, rfl⟩ := lift_eq_ok h₀
    obtain ⟨channel, s₀, hload, h⟩ := run_bind_eq_ok.mp h
    obtain rfl := reads_load _ _ _ _ _ hload
    cases channel with
    | none => cases h
    | some channel =>
      obtain ⟨k, s₁, hclient, h⟩ := run_bind_eq_ok.mp h
      obtain ⟨others, s₂, hothers, h⟩ := run_bind_eq_ok.mp h
      obtain rfl := reads_elsewhere _ _ _ _ _ _ hothers
      obtain ⟨c, s₂, hconversation, h⟩ := run_bind_eq_ok.mp h
      obtain ⟨metadata, s₃, h₀, h⟩ := run_bind_eq_ok.mp h
      obtain ⟨hmetadata, rfl⟩ := lift_eq_ok h₀
      cases h
      exact ⟨name, channelId, k.2, s₁, s₂, metadata, hname, hchannel, hload, hclient, hothers,
        hconversation, hmetadata, rfl⟩
  · rintro ⟨name, channelId, isNewClient, s₁, s₂, metadata, hname, hchannel, hload, hclient,
      hothers, hconversation, hmetadata, rfl⟩
    unfold visit
    refine run_bind_eq_ok.mpr ⟨name, s, run_lift_ok hname s, ?_⟩
    refine run_bind_eq_ok.mpr ⟨channelId, s, run_lift_ok hchannel s, ?_⟩
    refine run_bind_eq_ok.mpr ⟨_, s, hload, ?_⟩
    refine run_bind_eq_ok.mpr ⟨_, s₁, hclient, ?_⟩
    refine run_bind_eq_ok.mpr ⟨_, s₁, hothers, ?_⟩
    refine run_bind_eq_ok.mpr ⟨_, s₂, hconversation, ?_⟩
    exact run_bind_eq_ok.mpr ⟨metadata, s₂, run_lift_ok hmetadata s₂, rfl⟩

/-- A message is stored where the visit goes through, and, if it is not there, the deposit. -/
theorem record_eq_ok {now : Moment} {m : Inbound} {s s' : Store} {r : Receipt} :
    (m.record now).run s = .ok (r, s') ↔ ∃ v t found, (m.visit now).run s = .ok (v, t)
      ∧ (m.duplicate? v.conversation.id).run t = .ok (found, t)
      ∧ match found with
        | some message => v.receipt m message.id false true = .ok r ∧ s' = t
        | none => ∃ id, (m.deposit now v).run t = .ok (id, s')
          ∧ v.receipt m id v.isNew false = .ok r := by
  rw [record_eq]
  constructor
  · intro h
    obtain ⟨v, t, hvisit, h⟩ := run_bind_eq_ok.mp h
    obtain ⟨found, t', hfound, h⟩ := run_bind_eq_ok.mp h
    obtain rfl := reads_duplicate? m _ _ _ _ hfound
    refine ⟨v, t, found, hvisit, hfound, ?_⟩
    cases found with
    | some message =>
      obtain ⟨hreceipt, rfl⟩ := lift_eq_ok h
      exact ⟨hreceipt, rfl⟩
    | none =>
      obtain ⟨id, t', hdeposit, h⟩ := run_bind_eq_ok.mp h
      obtain ⟨hreceipt, rfl⟩ := lift_eq_ok h
      exact ⟨id, hdeposit, hreceipt⟩
  · rintro ⟨v, t, found, hvisit, hfound, h⟩
    refine run_bind_eq_ok.mpr ⟨v, t, hvisit, run_bind_eq_ok.mpr ⟨found, t, hfound, ?_⟩⟩
    cases found with
    | some message =>
      obtain ⟨hreceipt, rfl⟩ := h
      exact run_lift_ok hreceipt _
    | none =>
      obtain ⟨id, hdeposit, hreceipt⟩ := h
      exact run_bind_eq_ok.mpr ⟨id, s', hdeposit, run_lift_ok hreceipt s'⟩

/-! ## The client -/

/-- The client that is made on first contact. -/
def newClient (m : Inbound) (userId : Int) (name : String) (id : Int) : Client :=
  { id
    externalId := some (externalId userId)
    name := if name = "" then none else some name
    phone := none
    email := none
    metadata := .object
      [("telegram_id", .int userId), ("telegram_username", m.username),
        ("telegram_language", m.language)] }

theorem modify_clients_eq_self {s : Store} {id : Int} {f : Client → Client}
    (h : ∀ k ∈ s.clients, k.id = id → f k = k) : s.modify Client id f = s := by
  have hrows : s.clients.map (fun k => if k.id == id then f k else k) = s.clients := by
    refine (List.map_congr_left fun k hk => ?_).trans (List.map_id _)
    split
    · exact h k hk (by simpa using ‹(k.id == id) = true›)
    · rfl
  exact congrArg (fun clients => { s with clients }) hrows

section

variable {m : Inbound} {name : String} {s t : Store} {userId : Int} {k : Client}

/-- To write a name only where it is another one comes to the same as to write it. -/
theorem modify_called (hkeys : (s.clients.map Client.id).Nodup) (hk : k ∈ s.clients) :
    (if name ≠ "" && k.name ≠ some name then
      s.modify Client k.id (fun c => { c with name := some name }) else s)
      = s.modify Client k.id (Client.called name) := by
  by_cases hname : name = ""
  · subst hname
    exact (modify_clients_eq_self fun _ _ _ => rfl).symm
  · have hcalled : Client.called name = fun c => { c with name := some name } := by
      funext c
      simp [Client.called, hname]
    rw [hcalled]
    by_cases hsame : k.name = some name
    · have hone : ∀ c ∈ s.clients, c.id = k.id → { c with name := some name } = c := by
        intro c hc hid
        obtain rfl := List.inj_on_of_nodup_map hkeys hc hk hid
        rw [← hsame]
      simp [hsame, modify_clients_eq_self hone]
    · simp [hname, hsame]

theorem run_client_of_some (hkeys : (s.clients.map Client.id).Nodup)
    (huser : m.userId.toInt = .ok userId) (htable : s.absent.contains .clients = false)
    (hk : s.clientOf? userId = some k) :
    (m.client name).run s = .ok ((k, false), s.modify Client k.id (Client.called name)) := by
  unfold client
  refine run_bind_eq_ok.mpr ⟨userId, s, run_lift_ok huser s, ?_⟩
  refine run_bind_eq_ok.mpr ⟨s.clients, s, run_rows_eq_ok.mpr ⟨htable, rfl, rfl⟩, ?_⟩
  rw [show s.clients.find? _ = some k from hk,
    ← modify_called hkeys (List.mem_of_find?_eq_some hk)]
  dsimp only
  split <;> rfl

theorem run_client_of_none (huser : m.userId.toInt = .ok userId)
    (htable : s.absent.contains .clients = false) (hk : s.clientOf? userId = none) :
    (m.client name).run s = .ok ((m.newClient userId name (s.nextId Client), true),
      s.insert (m.newClient userId name (s.nextId Client))) := by
  unfold client
  refine run_bind_eq_ok.mpr ⟨userId, s, run_lift_ok huser s, ?_⟩
  refine run_bind_eq_ok.mpr ⟨s.clients, s, run_rows_eq_ok.mpr ⟨htable, rfl, rfl⟩, ?_⟩
  rw [show s.clients.find? _ = none from hk]
  exact run_bind_eq_ok.mpr ⟨_, _, run_add_of_table _ htable, rfl⟩

theorem client_eq_ok {isNew : Bool} (hkeys : (s.clients.map Client.id).Nodup)
    (h : (m.client name).run s = .ok ((k, isNew), t)) :
    ∃ userId, m.userId.toInt = .ok userId
      ∧ (s.clientOf? userId = some k ∧ isNew = false
          ∧ t = s.modify Client k.id (Client.called name)
        ∨ s.clientOf? userId = none ∧ isNew = true
          ∧ k = m.newClient userId name (s.nextId Client) ∧ t = s.insert k) := by
  obtain ⟨userId, s₀, h₀, hrest⟩ := run_bind_eq_ok.mp h
  obtain ⟨huser, rfl⟩ := lift_eq_ok h₀
  obtain ⟨rs, s₁, h₁, -⟩ := run_bind_eq_ok.mp hrest
  obtain ⟨htable, -, -⟩ := run_rows_eq_ok.mp h₁
  refine ⟨userId, huser, ?_⟩
  cases hk : s.clientOf? userId with
  | some k' =>
    rw [run_client_of_some hkeys huser htable hk] at h
    cases h
    exact .inl ⟨rfl, rfl, rfl⟩
  | none =>
    rw [run_client_of_none huser htable hk] at h
    cases h
    exact .inr ⟨rfl, rfl, rfl, rfl⟩

end

/-! ## The conversation -/

/-- The conversation that is made on first contact. -/
def newConversation (now : Moment) (channelId clientId chatId id : Int) : Conversation :=
  { id
    channelId
    clientId := some clientId
    operatorId := none
    status := "new"
    metadata := .object [(chatField, .int chatId)]
    unreadCount := 0
    lastMessageAt := some now }

section

variable {now : Moment} {m : Inbound} {channelId clientId chatId : Int} {s t : Store}
  {c : Conversation}

theorem run_conversation_of_some (htable : s.absent.contains .conversations = false)
    (hc : s.threadOf? channelId clientId = some c) :
    (m.conversation now channelId clientId).run s = .ok ((c, false), s) := by
  unfold conversation
  refine run_bind_eq_ok.mpr ⟨s.conversations, s, run_rows_eq_ok.mpr ⟨htable, rfl, rfl⟩, ?_⟩
  rw [show s.conversations.find? _ = some c from hc]
  rfl

theorem run_conversation_of_none (htable : s.absent.contains .conversations = false)
    (hchat : m.chatId.toInt = .ok chatId) (hc : s.threadOf? channelId clientId = none) :
    (m.conversation now channelId clientId).run s =
      .ok ((newConversation now channelId clientId chatId (s.nextId Conversation), true),
        s.insert (newConversation now channelId clientId chatId (s.nextId Conversation))) := by
  unfold conversation
  refine run_bind_eq_ok.mpr ⟨s.conversations, s, run_rows_eq_ok.mpr ⟨htable, rfl, rfl⟩, ?_⟩
  rw [show s.conversations.find? _ = none from hc]
  refine run_bind_eq_ok.mpr ⟨chatId, s, run_lift_ok hchat s, ?_⟩
  exact run_bind_eq_ok.mpr ⟨_, _, run_add_of_table _ htable, rfl⟩

theorem conversation_eq_ok {isNew : Bool}
    (h : (m.conversation now channelId clientId).run s = .ok ((c, isNew), t)) :
    s.threadOf? channelId clientId = some c ∧ isNew = false ∧ t = s
      ∨ s.threadOf? channelId clientId = none ∧ isNew = true
        ∧ ∃ chatId, m.chatId.toInt = .ok chatId
          ∧ c = newConversation now channelId clientId chatId (s.nextId Conversation)
          ∧ t = s.insert c := by
  obtain ⟨rs, s₀, h₀, hrest⟩ := run_bind_eq_ok.mp h
  obtain ⟨htable, rfl, rfl⟩ := run_rows_eq_ok.mp h₀
  cases hc : s₀.threadOf? channelId clientId with
  | some c' =>
    rw [run_conversation_of_some htable hc] at h
    cases h
    exact .inl ⟨rfl, rfl, rfl⟩
  | none =>
    rw [show (Row.rows s₀ : List Conversation).find? _ = none from hc] at hrest
    obtain ⟨chatId, s₁, h₁, -⟩ := run_bind_eq_ok.mp hrest
    obtain ⟨hchat, -⟩ := lift_eq_ok h₁
    rw [run_conversation_of_none htable hchat hc] at h
    cases h
    exact .inr ⟨rfl, rfl, chatId, hchat, rfl, rfl⟩

end

/-- A new conversation bears the marks of a visit already. -/
theorem visited_newConversation {now : Moment} {m : Inbound}
    {channelId clientId chatId id : Int} {metadata : Value}
    (h : m.metadataWithChat (newConversation now channelId clientId chatId id).metadata
      = .ok metadata) :
    visited now metadata (newConversation now channelId clientId chatId id)
      = newConversation now channelId clientId chatId id := by
  cases h
  rfl

/-- What is done to a new conversation is done to no other. -/
theorem modify_insert_conversations (s : Store) {c : Conversation}
    (f : Conversation → Conversation) (hid : c.id = s.nextId Conversation) :
    ((s.insert c).modify Conversation c.id f).conversations = s.conversations ++ [f c] := by
  have hrows : (s.insert c).conversations = s.conversations ++ [c] := by
    have := Store.rows_insert_nextId s c
    rwa [← hid] at this
  show (s.insert c).conversations.map _ = _
  rw [hrows, List.map_append, List.map_cons, List.map_nil]
  congr 1
  · refine (List.map_congr_left fun x hx => ?_).trans (List.map_id _)
    have := Store.id_lt_nextId (ρ := Conversation) hx
    exact if_neg (by simp only [beq_iff_eq, hid]; exact Int.ne_of_lt this)
  · simp [Row.id]

end Inbound

end Deskflow
