import Deskflow.Desk.Thread
import Deskflow.Proofs.Logbook
import Deskflow.Proofs.InboundVisit
import Mathlib.Data.List.Find

/-!
# Filing

The tables of the desk hold a logbook: a contact is a client, a log a conversation, and the entries
of a log are the messages of the conversation, in order. Each part of storing a message keeps that
up, so a message that comes in does to the tables what it does to the logbook, and what is read from
the tables is in the logbook.

* `Represents`, `Holds`: tables that hold a logbook.
* `Holds.run_find?`, `Holds.run_latestText`: what is read from them.
* `Holds.client`, `Holds.conversation`, `Holds.write`: the parts of storing a message.
* `Holds.record`: the whole.
-/

namespace Deskflow

open Transaction

/-! ## What the tables hold -/

/-- A client, as far as the contacts tell. -/
def Client.outline (k : Client) : Int × Option String := (k.id, k.externalId)

/-- A contact, as the clients tell. -/
def Contact.outline (k : Contact) : Int × Option String :=
  (k.id, some (Inbound.externalId k.userId))

/-- A conversation, as far as the logs tell. -/
def Conversation.outline (c : Conversation) : Int × Int × Option Int × Int :=
  (c.id, c.channelId, c.clientId, c.unreadCount)

/-- A log, as the conversations tell. -/
def Logbook.outline (b : Logbook) (l : Log) : Int × Int × Option Int × Int :=
  (l.id, l.channelId, (b.contact? l.userId).map Contact.id, l.entries.length)

/-- Whether a message was edited since it came in. -/
def Message.isEdited (m : Message) : Bool :=
  match m.metadata with
  | .object fields => Record.getD fields "edited" = .bool true
  | _ => false

/-- A message, as far as its log tells. -/
def Message.entry (m : Message) : Entry :=
  ⟨m.id, m.providerMessageId, m.content.getD "", m.isEdited⟩

/-- Tables hold a logbook. -/
structure Represents (s : Store) (b : Logbook) : Prop where
  /-- The clients are the contacts, -/
  clients : s.clients.map Client.outline = b.contacts.map Contact.outline
  /-- the conversations are the logs, with as many messages unread as there are, -/
  conversations : s.conversations.map Conversation.outline = b.logs.map b.outline
  /-- the messages of a conversation are the entries of its log, -/
  entries : ∀ l ∈ b.logs,
    (s.messages.filter fun m => m.conversationId == l.id).map Message.entry = l.entries
  /-- each message came in, and stands in a log, -/
  messages : ∀ m ∈ s.messages, m.direction = "incoming" ∧ ∃ l ∈ b.logs, m.conversationId = l.id
    ∧ m.channelId = l.channelId ∧ m.clientId = (b.contact? l.userId).map Contact.id
  /-- and the messages are numbered in the order in which they came in. -/
  messageIds : s.messages.map Message.id = counted b.total

/-- Tables that hold a logbook, and have been kept so until a moment. -/
structure Holds (s₀ s : Store) (now : Moment) (b : Logbook) : Prop extends Represents s b where
  keyed : b.Keyed
  others : s = { s₀ with
    clients := s.clients, conversations := s.conversations, messages := s.messages }
  dated : ∀ m ∈ s.messages, ∃ t, m.createdAt = some t ∧ t.micros ≤ now.micros
  ordered : s.messages.Pairwise fun x y => History.precedes x y = true
  noted : ∀ m ∈ s.messages, ∃ fields, m.metadata = .object fields
  reached : ∀ c ∈ s.conversations, ∃ fields,
    c.metadata = .object fields ∧ Record.has fields chatField = true

/-- A message that comes in names, on a channel that is there, what an arrival says. -/
structure Inbound.Denotes (s₀ : Store) (m : Inbound) (a : Arrival) : Prop where
  channel : ∃ channel, s₀.find? Channel a.channelId = some channel
    ∧ channel.automationsDisabled = .ok a.automationsDisabled
  channelId : m.channelId.toInt = .ok a.channelId
  channelFits : fits a.channelId = true
  userId : m.userId.toInt = .ok a.userId
  chatId : ∃ n, m.chatId.toInt = .ok n
  name : ∃ name, m.givenName = .ok name
  providerId : m.providerId? = .ok a.providerId
  providerFits : ∀ p, a.providerId = some p → fits p = true
  content : m.content = a.content

/-- The tables that messages are stored in are there. -/
def Store.Ready (s : Store) : Prop :=
  ∀ t ∈ [Table.channels, .clients, .conversations, .messages], s.absent.contains t = false

theorem Store.foldl_max_le {k : Int} : ∀ {ids : List Int} {m : Int}, m ≤ k →
    (∀ id ∈ ids, id ≤ k) → ids.foldl max m ≤ k := by
  intro ids
  induction ids with
  | nil => exact fun hm _ => hm
  | cons id ids ih =>
    intro m hm hids
    rw [List.foldl_cons]
    exact ih (Int.max_le.mpr ⟨hm, hids id (by simp)⟩) fun x hx => hids x (by simp [hx])

/-- Where the rows are numbered, a new one gets the next number. -/
theorem Store.nextId_of_counted {ρ : Type} [Row ρ] {s : Store} {n : Nat}
    (h : (Row.rows s : List ρ).map Row.id = counted n) : s.nextId ρ = n + 1 := by
  cases n with
  | zero =>
    unfold nextId
    rw [h]
    rfl
  | succ n =>
    -- the last number is given, and no number is past it
    obtain ⟨r, hr, hid⟩ := List.mem_map.mp (h ▸ mem_counted.mpr ⟨by omega, Int.le_refl _⟩)
    have hlower := id_lt_nextId (ρ := ρ) hr
    have hall : ∀ id ∈ (Row.rows s : List ρ).map Row.id, id ≤ (n + 1 : Nat) :=
      fun id hmem => (mem_counted.mp (h ▸ hmem)).2
    have hupper : s.nextId ρ ≤ (n + 1 : Nat) + 1 := by
      unfold nextId
      split
      · omega
      · rename_i heq
        rw [heq] at hall
        refine Int.add_le_add_right (foldl_max_le (hall _ (by simp)) fun x hx => ?_) 1
        exact hall x (by simp [hx])
    omega

theorem Inbound.externalId_inj {u v : Int} : externalId u = externalId v ↔ u = v := by
  constructor
  · intro h
    have h := congrArg String.toList h
    simp only [externalId, String.toList_append, List.append_cancel_left_eq] at h
    exact integerText_injective (String.toList_inj.mp h)
  · rintro rfl
    rfl

/-! ## Looking up -/

namespace Represents

variable {s : Store} {b : Logbook}

theorem clientOf? (h : Represents s b) (userId : Int) :
    (s.clientOf? userId).map Client.outline = (b.contact? userId).map Contact.outline := by
  let p (x : Int × Option String) : Bool := x.2 = some (Inbound.externalId userId)
  calc (s.clientOf? userId).map Client.outline
      = (s.clients.map Client.outline).find? p := by rw [List.find?_map]; rfl
    _ = (b.contacts.map Contact.outline).find? p := by rw [h.clients]
    _ = (b.contacts.find? (p ∘ Contact.outline)).map Contact.outline := List.find?_map
    _ = (b.contact? userId).map Contact.outline := by
      refine congrArg (Option.map Contact.outline) (List.find?_congr fun k _ => ?_)
      show decide (some (Inbound.externalId k.userId) = some (Inbound.externalId userId)) = _
      rw [decide_eq_decide.mpr (by rw [Option.some.injEq, Inbound.externalId_inj])]

theorem clientIds (h : Represents s b) : s.clients.map Client.id = b.contacts.map Contact.id := by
  have := congrArg (List.map Prod.fst) h.clients
  simpa [Function.comp_def, Client.outline, Contact.outline] using this

theorem conversationIds (h : Represents s b) :
    s.conversations.map Conversation.id = b.logs.map Log.id := by
  have := congrArg (List.map Prod.fst) h.conversations
  simpa [Function.comp_def, Conversation.outline, Logbook.outline] using this

end Represents

/-- In a keyed logbook the user of a log is told by the contact. -/
theorem Logbook.Keyed.contact_eq_iff {b : Logbook} (hb : b.Keyed) {userId : Int} {k : Contact}
    (hk : b.contact? userId = some k) (l : Log) :
    (b.contact? l.userId).map Contact.id = some k.id ↔ l.userId = userId := by
  constructor
  · intro h
    obtain ⟨k', hk', hid⟩ := Option.map_eq_some_iff.mp h
    obtain rfl := hb.contact_eq (mem_of_contact? hk').1 (mem_of_contact? hk).1 hid
    rw [← (mem_of_contact? hk').2, (mem_of_contact? hk).2]
  · rintro rfl
    rw [hk]
    rfl

namespace Represents

variable {s : Store} {b : Logbook}

theorem threadOf? (h : Represents s b) (hb : b.Keyed) {userId : Int} {k : Contact}
    (hk : b.contact? userId = some k) (channelId : Int) :
    (s.threadOf? channelId k.id).map Conversation.outline
      = (b.log? channelId userId).map b.outline := by
  let p (x : Int × Int × Option Int × Int) : Bool := x.2.1 = channelId && x.2.2.1 = some k.id
  calc (s.threadOf? channelId k.id).map Conversation.outline
      = (s.conversations.map Conversation.outline).find? p := by rw [List.find?_map]; rfl
    _ = (b.logs.map b.outline).find? p := by rw [h.conversations]
    _ = (b.logs.find? (p ∘ b.outline)).map b.outline := List.find?_map
    _ = (b.log? channelId userId).map b.outline := by
      refine congrArg (Option.map b.outline) (List.find?_congr fun l _ => ?_)
      show (_ && decide ((b.contact? l.userId).map Contact.id = some k.id)) = _
      rw [decide_eq_decide.mpr (hb.contact_eq_iff hk l)]
      rfl

theorem any_elsewhere (h : Represents s b) (hb : b.Keyed) {userId : Int} {k : Contact}
    (hk : b.contact? userId = some k) (channelId : Int) :
    (s.conversations.any fun c => c.clientId = some k.id && c.channelId ≠ channelId)
      = b.elsewhere channelId userId := by
  let p (x : Int × Int × Option Int × Int) : Bool := x.2.2.1 = some k.id && x.2.1 ≠ channelId
  calc (s.conversations.any fun c => c.clientId = some k.id && c.channelId ≠ channelId)
      = (s.conversations.map Conversation.outline).any p := by rw [List.any_map]; rfl
    _ = (b.logs.map b.outline).any p := by rw [h.conversations]
    _ = b.logs.any (p ∘ b.outline) := List.any_map
    _ = b.elsewhere channelId userId := by
      rw [Logbook.elsewhere, Bool.eq_iff_iff, List.any_eq_true, List.any_eq_true]
      refine exists_congr fun l => and_congr_right fun _ => ?_
      show (decide ((b.contact? l.userId).map Contact.id = some k.id) && _) = true ↔ _
      rw [decide_eq_decide.mpr (hb.contact_eq_iff hk l)]
      rfl

end Represents

/-! ## Reading -/

namespace Holds

variable {s₀ s : Store} {now : Moment} {b : Logbook}

theorem ready (h : Holds s₀ s now b) (hs : s₀.Ready) : s.Ready := by
  rw [h.others]
  exact hs

theorem later (h : Holds s₀ s now b) {next : Moment} (hnext : now.micros ≤ next.micros) :
    Holds s₀ s next b :=
  { h with
    dated := fun m hm =>
      (h.dated m hm).imp fun _ ⟨ht, hle⟩ => ⟨ht, Int.le_trans hle hnext⟩ }

/-- What was found to have come in under an id is the entry of the log with that id. -/
theorem find_incoming (h : Holds s₀ s now b) {l : Log} (hl : l ∈ b.logs) (p : Int) :
    (s.messages.find? (History.isIncoming l.id p)).map Message.entry = l.stored? (some p) := by
  let q (e : Entry) : Bool := e.providerId = some p
  calc (s.messages.find? (History.isIncoming l.id p)).map Message.entry
      = ((s.messages.filter fun m => m.conversationId == l.id).find? (q ∘ Message.entry)).map
          Message.entry := by
        rw [List.find?_filter]
        refine congrArg (Option.map Message.entry) (List.find?_congr fun m hm => ?_)
        rw [Bool.eq_iff_iff]
        simp only [History.isIncoming, (h.messages m hm).1, beq_self_eq_true, Bool.and_true,
          Bool.and_eq_true, beq_iff_eq, decide_eq_true_eq]
        exact and_congr_right fun _ => decide_eq_true_iff.symm
    _ = ((s.messages.filter fun m => m.conversationId == l.id).map Message.entry).find? q := by
        rw [List.find?_map]
    _ = l.stored? (some p) := by
        rw [h.entries l hl]
        rfl

/-- The messages of a conversation stand in the order of their log. -/
theorem messagesOf (h : Holds s₀ s now b) (c : Int) :
    History.messagesOf s.messages c = s.messages.filter fun m => m.conversationId == c :=
  sortBy_of_pairwise (h.ordered.filter _)

theorem fits_log (h : Holds s₀ s now b) {n : Nat} (hn : b.Within n) (hlimit : n < wordLimit)
    {l : Log} (hl : l ∈ b.logs) : fits l.id = true := by
  obtain ⟨h₁, h₂⟩ := h.keyed.log_id_bounds hl
  have hlogs := hn.logs
  rw [fits_iff]
  unfold wordLimit at hlimit ⊢
  omega

/-- The one client behind the user of a log is the contact. -/
theorem any_behind_iff (h : Holds s₀ s now b) {l : Log} (hl : l ∈ b.logs) (userId : Int) :
    ((s.clients.filter fun k => k.externalId = some ("tg_" ++ integerText userId)).any fun k =>
      (b.contact? l.userId).map Contact.id = some k.id) = true ↔ l.userId = userId := by
  obtain ⟨k, hk⟩ := Option.isSome_iff_exists.mp (h.keyed.known l hl)
  simp only [List.any_eq_true, List.mem_filter, decide_eq_true_eq, hk, Option.map_some,
    Option.some.injEq]
  have hmem : ∀ x, x ∈ s.clients.map Client.outline ↔ x ∈ b.contacts.map Contact.outline :=
    fun x => by rw [h.clients]
  constructor
  · rintro ⟨c, ⟨hc, hexternal⟩, hid⟩
    obtain ⟨k', hk', heq⟩ := List.mem_map.mp ((hmem _).mp (List.mem_map_of_mem hc))
    obtain ⟨hid', hexternal'⟩ := Prod.mk.inj heq
    obtain rfl := h.keyed.contact_eq (Logbook.mem_of_contact? hk).1 hk' (hid.trans hid'.symm)
    rw [← (Logbook.mem_of_contact? hk).2]
    exact Inbound.externalId_inj.mp (Option.some.inj (hexternal'.trans hexternal))
  · rintro rfl
    obtain ⟨hk', huser⟩ := Logbook.mem_of_contact? hk
    obtain ⟨c, hc, heq⟩ := List.mem_map.mp ((hmem _).mpr (List.mem_map_of_mem hk'))
    obtain ⟨hid, hexternal⟩ := Prod.mk.inj heq
    exact ⟨c, ⟨hc, by rw [hexternal, huser]; rfl⟩, hid.symm⟩

/-- The conversation of a user on a channel is that of the log, if there is one. -/
theorem run_find? (h : Holds s₀ s now b) (hs : s₀.Ready) {channelId : Int}
    (hc : fits channelId = true) (userId : Int) :
    ∃ c, (Thread.find? channelId userId).run s = .ok (c, s)
      ∧ c.map Conversation.outline = (b.log? channelId userId).map b.outline := by
  have hs := h.ready hs
  let p (x : Int × Int × Option Int × Int) : Bool := x.2.1 = channelId
    && (s.clients.filter fun k => k.externalId = some ("tg_" ++ integerText userId)).any fun k =>
      x.2.2.1 = some k.id
  refine ⟨s.conversations.find? (p ∘ Conversation.outline), ?_, ?_⟩
  · unfold Thread.find?
    refine run_bind_eq_ok.mpr ⟨s.conversations, s,
      run_rows_eq_ok.mpr ⟨hs .conversations (by simp), rfl, rfl⟩, ?_⟩
    refine run_bind_eq_ok.mpr ⟨s.clients, s,
      run_rows_eq_ok.mpr ⟨hs .clients (by simp), rfl, rfl⟩, ?_⟩
    exact run_bind_eq_ok.mpr ⟨(), s, by rw [run_fit, hc]; rfl, rfl⟩
  · rw [← List.find?_map, h.conversations, List.find?_map]
    refine congrArg (Option.map b.outline) (List.find?_congr fun l hl => ?_)
    show (_ && List.any _ _) = (_ && decide (l.userId = userId))
    congr 1
    exact Bool.eq_iff_iff.mpr ((h.any_behind_iff hl userId).trans decide_eq_true_iff.symm)

/-- The text that came in last is the content of the last entry. -/
theorem run_latestText (h : Holds s₀ s now b) (hs : s₀.Ready) {l : Log} (hl : l ∈ b.logs)
    (hfits : fits l.id = true) :
    (History.latestText l.id).run s = .ok (l.entries.getLast?.map Entry.content, s) := by
  unfold History.latestText
  refine run_bind_eq_ok.mpr ⟨s.messages, s,
    run_rows_eq_ok.mpr ⟨h.ready hs .messages (by simp), rfl, rfl⟩, ?_⟩
  refine run_bind_eq_ok.mpr ⟨(), s, by rw [run_fit, hfits]; rfl, ?_⟩
  have hall : ∀ m ∈ s.messages.filter (fun m => m.conversationId == l.id),
      (m.direction == "incoming") = true :=
    fun m hm => by simpa using (h.messages m (List.mem_of_mem_filter hm)).1
  rw [h.messagesOf, List.filter_eq_self.mpr hall, ← h.entries l hl, List.getLast?_map,
    Option.map_map]
  rfl

end Holds

/-! ## A visit -/

namespace Holds

variable {s₀ s : Store} {now : Moment} {b : Logbook}

theorem client_called (h : Holds s₀ s now b) (id : Int) (name : String) :
    Holds s₀ (s.modify Client id (Client.called name)) now b := by
  have hclients : (s.modify Client id (Client.called name)).clients.map Client.outline
      = s.clients.map Client.outline := by
    show (s.clients.map _).map _ = _
    rw [List.map_map]
    refine List.map_congr_left fun k _ => ?_
    simp only [Function.comp_apply, Client.called]
    split
    · split <;> rfl
    · rfl
  exact
    { h with
      clients := hclients.trans h.clients
      others := congrArg (fun t : Store =>
        { t with clients := (s.modify Client id (Client.called name)).clients }) h.others }

theorem client_new (h : Holds s₀ s now b) {userId : Int} (hk : b.contact? userId = none)
    {k : Client} (hclient : k.outline = (b.contactFor userId).outline) :
    Holds s₀ { s with clients := s.clients ++ [k] } now (b.meet userId) := by
  have hsame : ∀ l ∈ b.logs, (b.meet userId).contact? l.userId = b.contact? l.userId := by
    intro l hl
    obtain ⟨k', hk'⟩ := Option.isSome_iff_exists.mp (h.keyed.known l hl)
    rw [Logbook.contact?_meet_of_some hk', hk']
  refine
    { clients := ?_
      conversations := ?_
      entries := by simpa using h.entries
      messages := fun m hm => ?_
      messageIds := by simpa using h.messageIds
      keyed := h.keyed.meet userId
      others := congrArg (fun t : Store => { t with clients := s.clients ++ [k] }) h.others
      dated := h.dated
      ordered := h.ordered
      noted := h.noted
      reached := h.reached }
  · have hcontacts : (b.meet userId).contacts = b.contacts ++ [b.contactFor userId] := by
      simp [Logbook.meet, hk]
    rw [hcontacts, List.map_append, List.map_append, h.clients, List.map_singleton,
      List.map_singleton, hclient]
  · rw [Logbook.meet_logs]
    refine h.conversations.trans (List.map_congr_left fun l hl => ?_)
    rw [Logbook.outline, Logbook.outline, hsame l hl]
  · obtain ⟨hin, l, hl, hconversation, hchannel, hclient⟩ := h.messages m hm
    exact ⟨hin, l, by simpa using hl, hconversation, hchannel, by rw [hsame l hl, hclient]⟩

/-- The client behind a message is the contact of the user. -/
theorem client (h : Holds s₀ s now b) (hs : s₀.Ready) {m : Inbound} {a : Arrival}
    (hm : m.Denotes s₀ a) (name : String) :
    ∃ k s₁, (m.client name).run s = .ok ((k, (b.contact? a.userId).isNone), s₁)
      ∧ k.id = (b.contactFor a.userId).id ∧ Holds s₀ s₁ now (b.meet a.userId) := by
  have hids : s.clients.map Client.id = counted b.contacts.length :=
    h.clientIds.trans h.keyed.contactIds
  have htable := h.ready hs .clients (by simp)
  have hfound := h.clientOf? a.userId
  cases hk : b.contact? a.userId with
  | some k =>
    rw [hk] at hfound
    obtain ⟨c, hc, houtline⟩ := Option.map_eq_some_iff.mp hfound
    refine ⟨c, _, Inbound.run_client_of_some (hids ▸ nodup_counted _) hm.userId htable hc, ?_, ?_⟩
    · rw [show b.contactFor a.userId = k by simp [Logbook.contactFor, hk]]
      exact congrArg Prod.fst houtline
    · rw [Logbook.meet_of_some hk]
      exact h.client_called c.id name
  | none =>
    rw [hk, Option.map_none, Option.map_eq_none_iff] at hfound
    have hnext : s.nextId Client = b.contacts.length + 1 := Store.nextId_of_counted hids
    have hrows : s.insert (m.newClient a.userId name (s.nextId Client))
        = { s with clients := s.clients ++ [m.newClient a.userId name (s.nextId Client)] } :=
      congrArg (fun clients => { s with clients })
        (Store.rows_insert_nextId s (m.newClient a.userId name 0))
    refine ⟨_, _, Inbound.run_client_of_none hm.userId htable hfound, ?_, ?_⟩
    · simp [Logbook.contactFor, hk, hnext, Inbound.newClient]
    · rw [hrows]
      refine h.client_new hk ?_
      simp [Logbook.contactFor, hk, hnext, Inbound.newClient, Client.outline, Contact.outline]

/-- A client has other channels just if the user has logs there. A new one has none. -/
theorem elsewhere {s₁ : Store} (hkeyed : b.Keyed) {userId : Int}
    (h : Holds s₀ s₁ now (b.meet userId)) (hs : s₀.Ready) (channelId : Int) :
    (Inbound.elsewhere (b.contact? userId).isNone channelId (b.contactFor userId).id).run s₁
      = .ok (b.elsewhere channelId userId, s₁) := by
  unfold Inbound.elsewhere
  cases hk : b.contact? userId with
  | none =>
    have hnone : b.elsewhere channelId userId = false := by
      rw [Logbook.elsewhere, List.any_eq_false]
      intro l hl hmatch
      obtain ⟨rfl, -⟩ : l.userId = userId ∧ _ := by simpa using hmatch
      simpa [hk] using hkeyed.known l hl
    rw [hnone]
    rfl
  | some k =>
    have hmet : b.meet userId = b := Logbook.meet_of_some hk
    rw [hmet] at h
    have hfor : b.contactFor userId = k := by simp [Logbook.contactFor, hk]
    unfold Inbound.hasOtherChannels
    refine run_bind_eq_ok.mpr ⟨s₁.conversations, s₁,
      run_rows_eq_ok.mpr ⟨h.ready hs .conversations (by simp), rfl, rfl⟩, ?_⟩
    rw [hfor, h.any_elsewhere h.keyed hk]
    rfl

theorem conversation_seen (h : Holds s₀ s now b) (id : Int) {f : Conversation → Conversation}
    (houtline : ∀ c, (f c).outline = c.outline)
    (hreached : ∀ c, ∃ fields, (f c).metadata = .object fields
      ∧ Record.has fields chatField = true) :
    Holds s₀ (s.modify Conversation id f) now b := by
  have hrows : (s.modify Conversation id f).conversations
      = s.conversations.map fun c => if c.id == id then f c else c := rfl
  refine
    { h with
      conversations := ?_
      others := congrArg (fun t : Store =>
        { t with conversations := (s.modify Conversation id f).conversations }) h.others
      reached := fun c hc => ?_ }
  · rw [hrows, List.map_map]
    refine (List.map_congr_left fun c _ => ?_).trans h.conversations
    rw [Function.comp_apply]
    split
    · exact houtline c
    · rfl
  · rw [hrows] at hc
    obtain ⟨c', hc', rfl⟩ := List.mem_map.mp hc
    split
    · exact hreached c'
    · exact h.reached c' hc'

theorem conversation_new (h : Holds s₀ s now b) {channelId userId : Int} {k : Contact}
    (hk : b.contact? userId = some k) (hl : b.log? channelId userId = none) {c : Conversation}
    (houtline : c.outline = b.outline (b.logFor channelId userId))
    (hreached : ∃ fields, c.metadata = .object fields ∧ Record.has fields chatField = true) :
    Holds s₀ { s with conversations := s.conversations ++ [c] } now
      (b.start channelId userId) := by
  have hlogs : (b.start channelId userId).logs = b.logs ++ [b.logFor channelId userId] := by
    simp [Logbook.start, hl]
  have hnew : b.logFor channelId userId = ⟨b.logs.length + 1, channelId, userId, []⟩ := by
    simp [Logbook.logFor, hl]
  refine
    { clients := by simpa using h.clients
      conversations := ?_
      entries := fun l hl => ?_
      messages := fun m hm => ?_
      messageIds := by simpa using h.messageIds
      keyed := h.keyed.start (by simp [hk])
      others :=
        congrArg (fun t : Store => { t with conversations := s.conversations ++ [c] }) h.others
      dated := h.dated
      ordered := h.ordered
      noted := h.noted
      reached := fun c' hc => ?_ }
  · rw [hlogs, List.map_append, List.map_append, h.conversations, List.map_singleton,
      List.map_singleton, houtline]
    simp [Logbook.outline]
  · rw [hlogs, List.mem_append, List.mem_singleton] at hl
    rcases hl with hl | rfl
    · exact h.entries l hl
    · -- no message stands in a conversation that is not there yet
      have hnone : s.messages.filter (fun m =>
          m.conversationId == (b.logFor channelId userId).id) = [] := by
        refine List.filter_eq_nil_iff.mpr fun m hm hid => ?_
        obtain ⟨-, l, hl, hconversation, -⟩ := h.messages m hm
        have := (h.keyed.log_id_bounds hl).2
        rw [beq_iff_eq, hconversation, hnew] at hid
        simp only at hid
        omega
      rw [hnone, hnew]
      rfl
  · obtain ⟨hin, l, hl, hconversation, hchannel, hclient⟩ := h.messages m hm
    exact ⟨hin, l, by simp [hlogs, hl], hconversation, hchannel, by simpa using hclient⟩
  · rcases List.mem_append.mp hc with hc | hc
    · exact h.reached c' hc
    · obtain rfl := List.mem_singleton.mp hc
      exact hreached

/-- The conversation of a message is the log of the user on the channel. -/
theorem conversation (h : Holds s₀ s now b) (hs : s₀.Ready) {m : Inbound} {a : Arrival}
    (hm : m.Denotes s₀ a) {k : Contact} (hk : b.contact? a.userId = some k) (next : Moment) :
    ∃ c s₂, (m.conversation next a.channelId k.id).run s
        = .ok ((c, (b.log? a.channelId a.userId).isNone), s₂)
      ∧ c.id = (b.logFor a.channelId a.userId).id
      ∧ c.unreadCount = (b.logFor a.channelId a.userId).entries.length
      ∧ (∃ fields, c.metadata = .object fields ∧ Record.has fields chatField = true)
      ∧ Holds s₀ s₂ now (b.start a.channelId a.userId) := by
  have hids : s.conversations.map Conversation.id = counted b.logs.length :=
    h.conversationIds.trans h.keyed.logIds
  have htable := h.ready hs .conversations (by simp)
  have hfound := h.threadOf? h.keyed hk a.channelId
  cases hl : b.log? a.channelId a.userId with
  | some l =>
    rw [hl] at hfound
    obtain ⟨c, hc, houtline⟩ := Option.map_eq_some_iff.mp hfound
    have hfor : b.logFor a.channelId a.userId = l := by simp [Logbook.logFor, hl]
    refine ⟨c, s, Inbound.run_conversation_of_some htable hc, ?_, ?_,
      h.reached c (List.mem_of_find?_eq_some hc), ?_⟩
    · rw [hfor]
      exact congrArg Prod.fst houtline
    · rw [hfor]
      exact congrArg (fun x => x.2.2.2) houtline
    · rwa [Logbook.start_of_some hl]
  | none =>
    rw [hl, Option.map_none, Option.map_eq_none_iff] at hfound
    obtain ⟨chatId, hchat⟩ := hm.chatId
    have hnext : s.nextId Conversation = b.logs.length + 1 := Store.nextId_of_counted hids
    have hfor : b.logFor a.channelId a.userId
        = ⟨b.logs.length + 1, a.channelId, a.userId, []⟩ := by simp [Logbook.logFor, hl]
    let c := Inbound.newConversation next a.channelId k.id chatId (s.nextId Conversation)
    have hrows : s.insert c = { s with conversations := s.conversations ++ [c] } :=
      congrArg (fun conversations => { s with conversations }) (Store.rows_insert_nextId s
        (Inbound.newConversation next a.channelId k.id chatId 0))
    have hreached : ∃ fields, c.metadata = .object fields
        ∧ Record.has fields chatField = true := ⟨_, rfl, rfl⟩
    refine ⟨c, s.insert c, Inbound.run_conversation_of_none htable hchat hfound, ?_, ?_, hreached,
      ?_⟩
    · rw [hfor]
      exact hnext
    · rw [hfor]
      rfl
    · rw [hrows]
      refine h.conversation_new hk hl ?_ hreached
      rw [hfor]
      simp only [Conversation.outline, Logbook.outline, c, Inbound.newConversation, hnext, hk]
      rfl

end Holds

/-! ## A message comes in -/

namespace Holds

variable {s₀ s : Store} {now : Moment} {b : Logbook}

/-- A message that is counted in the conversation of a log is counted in the log. -/
theorem outlines_write (h : Holds s₀ s now b) (id : Int) (e : Entry) :
    (s.conversations.map fun c =>
        if c.id == id then { c with unreadCount := c.unreadCount + 1 } else c).map
          Conversation.outline
      = (b.write id e).logs.map (b.write id e).outline := by
  -- both sides count one more in the place with the id
  let f (x : Int × Int × Option Int × Int) : Int × Int × Option Int × Int :=
    if x.1 == id then (x.1, x.2.1, x.2.2.1, x.2.2.2 + 1) else x
  calc (s.conversations.map fun c =>
          if c.id == id then { c with unreadCount := c.unreadCount + 1 } else c).map
            Conversation.outline
      = (s.conversations.map Conversation.outline).map f := by
        rw [List.map_map, List.map_map]
        refine List.map_congr_left fun c _ => ?_
        by_cases hc : c.id = id
        · simp [f, Conversation.outline, hc]
        · simp [f, Conversation.outline, hc]
    _ = (b.logs.map b.outline).map f := by rw [h.conversations]
    _ = (b.write id e).logs.map (b.write id e).outline := by
        rw [Logbook.write, Logbook.change, List.map_map, List.map_map]
        refine List.map_congr_left fun x _ => ?_
        by_cases hx : x.id = id
        · simp [f, Logbook.outline, hx, Log.write, Logbook.contact?]
        · simp [f, Logbook.outline, hx, Logbook.contact?]

/-- A message that is added in the conversation of a log is an entry more in the log. -/
theorem entries_write (h : Holds s₀ s now b) {l : Log} {m : Message} (hm : m.conversationId = l.id)
    {x : Log} (hx : x ∈ (b.write l.id m.entry).logs) :
    ((s.messages ++ [m]).filter fun y => y.conversationId == x.id).map Message.entry
      = x.entries := by
  obtain ⟨x, hxb, rfl⟩ := Logbook.mem_write.mp hx
  by_cases hxl : x.id = l.id
  · have hlast : [m].filter (fun y => y.conversationId == l.id) = [m] := by simp [hm]
    rw [if_pos hxl, List.filter_append, List.map_append, Log.write, hxl, hlast, ← hxl,
      h.entries x hxb, List.map_singleton]
  · have hlast : [m].filter (fun y => y.conversationId == x.id) = [] := by
      simp [hm, Ne.symm hxl]
    rw [if_neg hxl, List.filter_append, hlast, List.append_nil, h.entries x hxb]

/-- A place in a log is one in the log once an entry was written somewhere. -/
theorem messages_write (h : Holds s₀ s now b) {l : Log} (hl : l ∈ b.logs) {m : Message}
    (e : Entry) (hin : m.direction = "incoming") (hconversation : m.conversationId = l.id)
    (hchannel : m.channelId = l.channelId)
    (hclient : m.clientId = (b.contact? l.userId).map Contact.id) :
    ∀ x ∈ s.messages ++ [m], x.direction = "incoming" ∧ ∃ y ∈ (b.write l.id e).logs,
      x.conversationId = y.id ∧ x.channelId = y.channelId
        ∧ x.clientId = (b.contact? y.userId).map Contact.id := by
  intro x hx
  have hplace : x.direction = "incoming" ∧ ∃ y ∈ b.logs, x.conversationId = y.id
      ∧ x.channelId = y.channelId ∧ x.clientId = (b.contact? y.userId).map Contact.id := by
    rcases List.mem_append.mp hx with hx | hx
    · exact h.messages x hx
    · obtain rfl := List.mem_singleton.mp hx
      exact ⟨hin, l, hl, hconversation, hchannel, hclient⟩
  obtain ⟨hin', y, hy, hid, hchannel', hclient'⟩ := hplace
  refine ⟨hin', _, Logbook.mem_write.mpr ⟨y, hy, rfl⟩, ?_⟩
  split <;> exact ⟨hid, hchannel', hclient'⟩

/-- A message that is added now comes after all others. -/
theorem precedes_of_dated (h : Holds s₀ s now b) {x m : Message} (hx : x ∈ s.messages)
    (hdated : m.createdAt = some now) (hmid : m.id = b.total + 1) :
    History.precedes x m = true := by
  obtain ⟨⟨t⟩, ht, hle⟩ := h.dated x hx
  have hxid := (mem_counted.mp (h.messageIds ▸ List.mem_map_of_mem hx)).2
  obtain ⟨now⟩ := now
  simp only [History.precedes, ht, hdated, Moment.isBefore, Option.some.injEq, Moment.mk.injEq,
    Bool.or_eq_true, Bool.and_eq_true, decide_eq_true_eq, hmid]
  simp only at hle
  omega

/-- To write an entry is to add a message and to count it. -/
theorem write (h : Holds s₀ s now b) {l : Log} (hl : l ∈ b.logs) {m : Message} {e : Entry}
    (hentry : m.entry = e) (hid : e.id = b.total + 1) (hin : m.direction = "incoming")
    (hconversation : m.conversationId = l.id) (hchannel : m.channelId = l.channelId)
    (hclient : m.clientId = (b.contact? l.userId).map Contact.id)
    (hdated : m.createdAt = some now) (hnoted : ∃ fields, m.metadata = .object fields) :
    Holds s₀
      (({ s with messages := s.messages ++ [m] } : Store).modify Conversation l.id fun c =>
        { c with unreadCount := c.unreadCount + 1 }) now (b.write l.id e) := by
  subst hentry
  have hmid : m.id = b.total + 1 := hid
  refine
    { clients := h.clients
      conversations := h.outlines_write l.id m.entry
      entries := fun x hx => h.entries_write hconversation hx
      messages := h.messages_write hl m.entry hin hconversation hchannel hclient
      messageIds := ?_
      keyed := h.keyed.write l.id m.entry
      others := congrArg (fun t : Store =>
        { t with
          messages := s.messages ++ [m]
          conversations := s.conversations.map fun c : Conversation =>
            if c.id == l.id then { c with unreadCount := c.unreadCount + 1 } else c }) h.others
      dated := fun x hx => ?_
      ordered := ?_
      noted := fun x hx => ?_
      reached := fun c hc => ?_ }
  · show (s.messages ++ [m]).map Message.id = counted (b.total + 1)
    rw [List.map_append, h.messageIds, counted_succ, List.map_singleton, hmid]
  · rcases List.mem_append.mp hx with hx | hx
    · exact h.dated x hx
    · obtain rfl := List.mem_singleton.mp hx
      exact ⟨now, hdated, Int.le_refl _⟩
  · refine List.pairwise_append.mpr ⟨h.ordered, List.pairwise_singleton _ _, fun x hx y hy => ?_⟩
    obtain rfl := List.mem_singleton.mp hy
    exact h.precedes_of_dated hx hdated hmid
  · rcases List.mem_append.mp hx with hx | hx
    · exact h.noted x hx
    · obtain rfl := List.mem_singleton.mp hx
      exact hnoted
  · obtain ⟨c', hc', rfl⟩ := List.mem_map.mp hc
    split
    · exact h.reached c' hc'
    · exact h.reached c' hc'

variable {m : Inbound} {a : Arrival}

/-- A message is there just if the log has an entry under its id. -/
theorem duplicate? (h : Holds s₀ s now b) (hs : s₀.Ready) (hm : m.Denotes s₀ a) {l : Log}
    (hl : l ∈ b.logs) (hfits : fits l.id = true) :
    ∃ found, (m.duplicate? l.id).run s = .ok (found, s)
      ∧ found.map Message.entry = l.stored? a.providerId := by
  have hprovider := hm.providerId
  unfold Inbound.providerId? at hprovider
  unfold Inbound.duplicate?
  split at hprovider
  · rename_i hnull
    rw [if_pos hnull, ← Except.ok.inj hprovider]
    exact ⟨none, rfl, rfl⟩
  · rename_i hgiven
    rw [if_neg hgiven]
    obtain ⟨p, hp, hsome⟩ : ∃ p, m.providerMessageId.toInt = .ok p ∧ some p = a.providerId := by
      cases hp : m.providerMessageId.toInt with
      | error fault => simp [hp] at hprovider
      | ok p => exact ⟨p, rfl, by simpa [hp] using hprovider⟩
    refine ⟨s.messages.find? (History.isIncoming l.id p), ?_, hsome ▸ h.find_incoming hl p⟩
    exact run_bind_eq_ok.mpr ⟨p, s, run_lift_ok hp s,
      History.run_incoming? (h.ready hs .messages (by simp)) hfits (hm.providerFits p hsome.symm)⟩

/-- To deposit a message is to write it into the log. -/
theorem deposit (h : Holds s₀ s now b) (hs : s₀.Ready) (hm : m.Denotes s₀ a) {v : Visit} {l : Log}
    (hl : l ∈ b.logs) (hconversation : v.conversation.id = l.id)
    (hunread : v.conversation.unreadCount = l.entries.length)
    (hchannel : v.channel.id = l.channelId)
    (hclient : some v.client.id = (b.contact? l.userId).map Contact.id)
    (hfits : fits (l.entries.length + 1) = true) :
    ∃ s', (m.deposit now v).run s = .ok (b.total + 1, s')
      ∧ Holds s₀ s' now (b.write l.id (b.entryOf a)) := by
  obtain ⟨chatId, hchat⟩ := hm.chatId
  have hnext : s.nextId Message = b.total + 1 := Store.nextId_of_counted h.messageIds
  let blank := m.row now v.conversation.id v.channel.id v.client.id chatId a.providerId
  let row : Message := { blank with id := s.nextId Message }
  have hrows : s.insert row = { s with messages := s.messages ++ [row] } :=
    congrArg (fun messages => { s with messages }) (Store.rows_insert_nextId s blank)
  refine ⟨(s.insert row).modify Conversation v.conversation.id fun c =>
    { c with unreadCount := c.unreadCount + 1 }, ?_, ?_⟩
  · unfold Inbound.deposit
    refine run_bind_eq_ok.mpr ⟨a.providerId, s, run_lift_ok hm.providerId s, ?_⟩
    refine run_bind_eq_ok.mpr ⟨chatId, s, run_lift_ok hchat s, ?_⟩
    refine run_bind_eq_ok.mpr ⟨row, s.insert row,
      run_add_of_table blank (h.ready hs .messages (by simp)), ?_⟩
    refine run_bind_eq_ok.mpr ⟨(), s.insert row, by rw [run_fit, hunread, hfits]; rfl, ?_⟩
    refine run_bind_eq_ok.mpr ⟨(), _, run_edit Conversation v.conversation.id _ _, ?_⟩
    rw [show row.id = b.total + 1 from hnext]
    rfl
  · rw [hrows, hconversation]
    refine h.write hl ?_ rfl rfl hconversation hchannel hclient rfl ⟨_, rfl⟩
    simp [row, blank, Message.entry, Inbound.row, Message.isEdited, Logbook.entryOf, hnext,
      hm.content, Record.getD, Record.get?_cons, chatField]

/-- **A message that comes in does to the tables what it does to the logbook.** -/
theorem record {last : Moment} (h : Holds s₀ s last b) (hs : s₀.Ready) (hm : m.Denotes s₀ a)
    (hnow : last.micros ≤ now.micros) {n : Nat} (hn : b.Within n) (hlimit : n + 1 < wordLimit) :
    ∃ s', (m.record now).run s = .ok ((b.receive a).1, s')
      ∧ Holds s₀ s' now (b.receive a).2 := by
  have h := h.later hnow
  obtain ⟨name, hname⟩ := hm.name
  obtain ⟨channel, hfound, hdisabled⟩ := hm.channel
  have hchannel : channel.id = a.channelId := Store.id_of_find? (ρ := Channel) hfound
  obtain ⟨k, s₁, hclient, hkid, h₁⟩ := h.client hs hm name
  have hk := Logbook.contact?_meet (b := b) a.userId
  obtain ⟨c, s₂, hconversation, hcid, hunread, ⟨fields, hmetadata, hchat⟩, h₂⟩ :=
    h₁.conversation hs hm hk now
  rw [Logbook.log?_meet] at hconversation
  rw [Logbook.logFor_meet] at hcid hunread
  generalize hl : b.logFor a.channelId a.userId = l at hcid hunread
  have hwith : m.metadataWithChat c.metadata = .ok c.metadata := by
    simp [Inbound.metadataWithChat, hmetadata, hchat, bind, Except.bind, pure, Except.pure]
  let v : Visit :=
    ⟨channel, k, c, (b.log? a.channelId a.userId).isNone, b.elsewhere a.channelId a.userId⟩
  have hvisit : (m.visit now).run s
      = .ok (v, s₂.modify Conversation c.id (Inbound.visited now c.metadata)) := by
    refine Inbound.visit_eq_ok.mpr ⟨name, a.channelId, _, s₁, s₂, c.metadata, hname,
      hm.channelId, ?_, hclient, ?_, ?_, hwith, rfl⟩
    · rw [run_load_of_fits (h.ready hs .channels (by simp)) hm.channelFits, h.others]
      exact congrArg (fun r => Except.ok (r, _)) hfound
    · rw [hchannel, hkid]
      exact elsewhere h.keyed h₁ hs a.channelId
    · rw [hchannel, hkid]
      exact hconversation
  have h₃ : Holds s₀ (s₂.modify Conversation c.id (Inbound.visited now c.metadata)) now
      ((b.meet a.userId).start a.channelId a.userId) :=
    h₂.conversation_seen c.id (fun _ => rfl) fun _ => ⟨fields, hmetadata, hchat⟩
  have hmem : l ∈ ((b.meet a.userId).start a.channelId a.userId).logs := by
    have := Logbook.logFor_mem_start (b := b.meet a.userId) a.channelId a.userId
    rwa [Logbook.logFor_meet, hl] at this
  have hfits : fits l.id = true :=
    h₃.fits_log ((hn.met a.userId).started a.channelId a.userId) (by exact_mod_cast hlimit) hmem
  obtain ⟨found, hduplicate, hentry⟩ := h₃.duplicate? hs hm hmem hfits
  have hreceipt : ∀ id isNew duplicate,
      v.receipt m id isNew duplicate = .ok (b.receipt a id isNew duplicate) := by
    intro id isNew duplicate
    refine Visit.receipt_eq_ok.mpr ⟨a.automationsDisabled, hdisabled, ?_⟩
    simp only [Logbook.receipt, v, hl, hcid, hkid, hchannel, hm.content]
  rw [← hcid] at hduplicate
  cases hstored : l.stored? a.providerId with
  | some e =>
    rw [hstored] at hentry
    obtain ⟨message, rfl, rfl⟩ := Option.map_eq_some_iff.mp hentry
    have hbook := Logbook.receive_of_stored (b := b) (a := a) (hl ▸ hstored)
    have hlog := Logbook.log?_of_stored? (b := b) (hl ▸ hstored)
    rw [h.keyed.start_meet_of_log? hlog] at h₃
    rw [hbook]
    exact ⟨_, Inbound.record_eq_ok.mpr ⟨v, _, _, hvisit, hduplicate, hreceipt _ _ _, rfl⟩, h₃⟩
  | none =>
    rw [hstored, Option.map_eq_none_iff] at hentry
    subst hentry
    have hbook := Logbook.receive_of_new (b := b) (a := a) (hl ▸ hstored)
    obtain ⟨hlchannel, hluser⟩ := hl ▸ Logbook.logFor_user (b := b) a.channelId a.userId
    have hroom : l.entries.length ≤ n := hl ▸ hn.logFor a.channelId a.userId
    have hcount : fits (l.entries.length + 1) = true := by
      rw [fits_iff]
      unfold wordLimit at hlimit ⊢
      omega
    obtain ⟨s', hdeposit, h₄⟩ := h₃.deposit (v := v) hs hm hmem hcid hunread
      (hchannel.trans hlchannel.symm) (by simp [v, hluser, hk, hkid]) hcount
    rw [Logbook.start_total, Logbook.meet_total] at hdeposit
    rw [Logbook.entryOf_started] at h₄
    rw [hbook, hl]
    exact ⟨s', Inbound.record_eq_ok.mpr ⟨v, _, none, hvisit, hduplicate, _, hdeposit,
      hreceipt _ _ _⟩, h₄⟩

end Holds

end Deskflow
