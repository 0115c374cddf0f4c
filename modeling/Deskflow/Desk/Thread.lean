import Deskflow.Desk.Transaction

/-!
# Threads

A conversation together with its client and its channel, and what is done to a conversation as a
whole.

Models `get_conversation`, `find_conversation`, `set_status`, `assign_operator` and
`count_client_conversations`, and for channels `get_channel`, `list_active_channels` and
`get_channel_by_bot_token`.

* `run_load?_of_find?`: where its tables are there and ids fit, a conversation can be loaded.
* `run_setStatus`: the status of one conversation changes, and the one it had is told.
-/

namespace Deskflow

/-- A conversation with its client and its channel, as they were when it was loaded. -/
structure Thread where
  conversation : Conversation
  client : Option Client
  channel : Option Channel
deriving DecidableEq, Repr

namespace Thread

open Transaction

/-- The client of an id, if there is one. Its tags have to be at hand too. -/
def loadClient (id : Option Int) : Transaction (Option Client) := do
  let some id := id | return none
  let some client ← load Client id | return none
  need .clientTags
  need .tags
  return some client

/-- The thread of a conversation (`get_conversation`). -/
def load? (conversationId : Int) : Transaction (Option Thread) := do
  let some conversation ← load Conversation conversationId | return none
  let client ← loadClient conversation.clientId
  let channel ← load Channel conversation.channelId
  return some { conversation, client, channel }

/-- The tables that a thread is loaded from. -/
def tables : List Table := [.conversations, .clients, .clientTags, .tags, .channels]

/-- Gives a conversation a status, and tells the one it had (`set_status`). -/
def setStatus (conversationId : Int) (status : String) : Transaction (Option String) := do
  let some conversation ← load Conversation conversationId | return none
  edit Conversation conversationId fun c => { c with status }
  return some conversation.status

/-- Assigns a conversation to an operator and opens it (`assign_operator`); tells the operator's
name. A conversation keeps the operator it had if there is no such operator, who is then named by
what was asked for. -/
def assignOperator (conversation operator : Value) : Transaction String := do
  let conversationId ← conversation.toInt
  let some _ ← load Conversation conversationId | throw (.conversationNotFound conversation.text)
  let operatorId ← operator.toInt
  let found ← load Operator operatorId
  edit Conversation conversationId fun c =>
    { c with
      operatorId := if found.isSome then some operatorId else c.operatorId
      status := "open" }
  return match found with
    | some o => o.name
    | none => "ID: " ++ operator.text

/-- The number of conversations of a client (`count_client_conversations`). -/
def countOfClient (clientId : Int) : Transaction Int := do
  let rows ← rows Conversation
  fit clientId
  return (rows.filter fun c => c.clientId = some clientId).length

/-- The conversation on a channel with the client behind a user id of the messaging service
(`find_conversation`). -/
def find? (channelId userId : Int) : Transaction (Option Conversation) := do
  let conversations ← rows Conversation
  let clients ← rows Client
  fit channelId
  let behind := clients.filter fun c => c.externalId = some ("tg_" ++ integerText userId)
  return conversations.find? fun c =>
    c.channelId = channelId && behind.any fun k => c.clientId = some k.id

/-- The channel of an id (`get_channel`). -/
def channel? (channelId : Int) : Transaction (Option Channel) := load Channel channelId

/-- The active channels of a kind, by ascending id (`list_active_channels`). -/
def activeChannels (kind : String) : Transaction (List Channel) := do
  return (← rows Channel).filter fun c => c.isActive && c.kind == kind

/-- The kind of the channels that are served by bots. -/
def botKind : String := "telegram"

/-- The first of the channels whose bot has a token. -/
def firstWithToken? (token : String) : List Channel → Except Fault (Option Channel)
  | [] => .ok none
  | c :: rest => do if (← c.botToken) = token then return some c else firstWithToken? token rest

/-- The active channel whose bot has a token (`get_channel_by_bot_token`); an empty token belongs to
none. -/
def channelOfToken? (token : String) : Transaction (Option Channel) := do
  if token = "" then return none
  firstWithToken? token (← activeChannels botKind)

/-! ## Lemmas -/

theorem run_loadClient_of_tables {id : Option Int} {s : Store}
    (h : ∀ t ∈ tables, s.absent.contains t = false)
    (hid : ∀ n, id = some n → fits n = true) :
    ∃ client, (loadClient id).run s = .ok (client, s) := by
  cases id with
  | none => exact ⟨none, rfl⟩
  | some id =>
    have hload : (load Client id).run s = .ok (s.find? Client id, s) :=
      run_load_of_fits (h .clients (by decide)) (hid id rfl)
    cases hc : s.find? Client id with
    | none => exact ⟨none, run_bind_eq_ok.mpr ⟨none, s, hc ▸ hload, rfl⟩⟩
    | some client =>
      have hneed : ∀ t ∈ tables, (need t).run s = .ok ((), s) := fun t ht => by
        rw [run_need, h t ht]
        rfl
      exact ⟨some client, run_bind_eq_ok.mpr ⟨some client, s, hc ▸ hload,
        run_bind_eq_ok.mpr ⟨(), s, hneed .clientTags (by decide),
          run_bind_eq_ok.mpr ⟨(), s, hneed .tags (by decide), rfl⟩⟩⟩⟩

/-- Where every table is there and ids fit, a conversation can be loaded. -/
theorem run_load?_of_find? {c : Int} {k : Conversation} {s : Store}
    (h : ∀ t ∈ tables, s.absent.contains t = false)
    (hk : s.find? Conversation c = some k) (hc : fits c = true) (hchannel : fits k.channelId = true)
    (hclient : ∀ n, k.clientId = some n → fits n = true) :
    ∃ thread, (load? c).run s = .ok (some thread, s) ∧ thread.conversation = k := by
  have hload : (load Conversation c).run s = .ok (some k, s) :=
    hk ▸ run_load_of_fits (h .conversations (by decide)) hc
  obtain ⟨client, hrun⟩ := run_loadClient_of_tables h hclient
  have hfound : (load Channel k.channelId).run s = .ok (s.find? Channel k.channelId, s) :=
    run_load_of_fits (h .channels (by decide)) hchannel
  exact ⟨⟨k, client, s.find? Channel k.channelId⟩, run_bind_eq_ok.mpr ⟨some k, s, hload,
    run_bind_eq_ok.mpr ⟨client, s, hrun, run_bind_eq_ok.mpr ⟨_, s, hfound, rfl⟩⟩⟩, rfl⟩

theorem run_setStatus (conversationId : Int) (status : String) (s : Store)
    (hTable : s.absent.contains .conversations = false) (hFit : fits conversationId = true) :
    (setStatus conversationId status).run s =
      match s.find? Conversation conversationId with
      | none => .ok (none, s)
      | some c =>
        .ok (some c.status, s.modify Conversation conversationId fun c => { c with status }) := by
  unfold setStatus
  rw [StateT.run_bind, run_load_of_fits hTable hFit]
  cases h : s.find? Conversation conversationId <;> rfl

end Thread

end Deskflow
