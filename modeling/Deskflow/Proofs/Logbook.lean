import Deskflow.Desk.Inbound
import Mathlib.Data.List.Nodup

/-!
# Logbooks

What the desk keeps of the messages that come in, apart from its tables: one log for each channel
and user, in which the messages stand in the order in which they came. Whoever writes for the first
time becomes a contact. A message that stands in its log already, by its id with the messaging
service, is not written down again, and an edit replaces the content of one message.

Contacts, logs and messages are numbered in the order in which they are begun.

* `receive_of_stored`, `receive_of_new`: what becomes of a message that comes in.
* `Keyed.of_receive`: contacts and logs stay numbered, and no channel and user get two logs.
* `Sound.of_receive`, `Sound.of_edit`: no log is empty, and none holds a message twice.
* `Within.of_play`: what happens adds one log and one entry to it at most.
-/

namespace Deskflow

/-- Someone who has written. -/
structure Contact where
  id : Int
  userId : Int
deriving DecidableEq, Repr

/-- A message in a log. -/
structure Entry where
  id : Int
  providerId : Option Int
  content : String
  isEdited : Bool := false
deriving DecidableEq, Repr

/-- The messages of one user on one channel. -/
structure Log where
  id : Int
  channelId : Int
  userId : Int
  entries : List Entry := []
deriving DecidableEq, Repr

/-- All contacts and logs, and the number of messages in them. -/
structure Logbook where
  contacts : List Contact := []
  logs : List Log := []
  total : Nat := 0
deriving DecidableEq, Repr

/-- A message that comes in, with all that it names. -/
structure Arrival where
  channelId : Int
  userId : Int
  providerId : Option Int
  content : String
  automationsDisabled : Bool
deriving DecidableEq, Repr

/-- The numbers from 1 on. -/
def counted (n : Nat) : List Int := (List.range n).map fun i : Nat => (i : Int) + 1

namespace Log

/-- The entry under an id with the messaging service, if there is such an id and such an entry. -/
def stored? (l : Log) (providerId : Option Int) : Option Entry :=
  providerId.bind fun p => l.entries.find? fun e => e.providerId = some p

/-- A log with one more entry. -/
def write (e : Entry) (l : Log) : Log := { l with entries := l.entries ++ [e] }

/-- A log in which an entry has another content. -/
def edit (providerId : Int) (content : String) (l : Log) : Log :=
  { l with
    entries := l.entries.map fun e =>
      if e.providerId = some providerId then { e with content, isEdited := true } else e }

end Log

namespace Logbook

/-- The contact of a user. -/
def contact? (b : Logbook) (userId : Int) : Option Contact :=
  b.contacts.find? fun k => k.userId = userId

/-- The log of a user on a channel. -/
def log? (b : Logbook) (channelId userId : Int) : Option Log :=
  b.logs.find? fun l => l.channelId = channelId && l.userId = userId

/-- Whether a user has a log on another channel. -/
def elsewhere (b : Logbook) (channelId userId : Int) : Bool :=
  b.logs.any fun l => l.userId = userId && l.channelId ≠ channelId

/-- The contact of a user, who may be new. -/
def contactFor (b : Logbook) (userId : Int) : Contact :=
  (b.contact? userId).getD ⟨b.contacts.length + 1, userId⟩

/-- The log of a user on a channel, which may be new. -/
def logFor (b : Logbook) (channelId userId : Int) : Log :=
  (b.log? channelId userId).getD ⟨b.logs.length + 1, channelId, userId, []⟩

/-- A user becomes a contact. -/
def meet (b : Logbook) (userId : Int) : Logbook :=
  if (b.contact? userId).isSome then b
  else { b with contacts := b.contacts ++ [b.contactFor userId] }

/-- A user gets a log on a channel. -/
def start (b : Logbook) (channelId userId : Int) : Logbook :=
  if (b.log? channelId userId).isSome then b
  else { b with logs := b.logs ++ [b.logFor channelId userId] }

/-- Changes the log of an id. -/
def change (b : Logbook) (id : Int) (f : Log → Log) : Logbook :=
  { b with logs := b.logs.map fun l => if l.id = id then f l else l }

/-- Writes an entry into the log of an id. -/
def write (b : Logbook) (id : Int) (e : Entry) : Logbook :=
  { b.change id (Log.write e) with total := b.total + 1 }

/-- What is told of a message that came in. -/
def receipt (b : Logbook) (a : Arrival) (messageId : Int) (isNew duplicate : Bool) : Receipt :=
  { conversationId := (b.logFor a.channelId a.userId).id
    messageId
    clientId := (b.contactFor a.userId).id
    channelId := a.channelId
    content := a.content
    isNewConversation := isNew
    clientHasOtherChannels := b.elsewhere a.channelId a.userId
    automationsDisabled := a.automationsDisabled
    duplicate }

/-- A message that is new in its log, as it is written there. -/
def entryOf (b : Logbook) (a : Arrival) : Entry := ⟨b.total + 1, a.providerId, a.content, false⟩

/-- A message comes in. -/
def receive (a : Arrival) (b : Logbook) : Receipt × Logbook :=
  let l := b.logFor a.channelId a.userId
  match l.stored? a.providerId with
  | some e => (b.receipt a e.id false true, b)
  | none =>
    (b.receipt a (b.total + 1) (b.log? a.channelId a.userId).isNone false,
      ((b.meet a.userId).start a.channelId a.userId).write l.id (b.entryOf a))

/-- A message is edited; tells whether it is there. -/
def edit (id providerId : Int) (content : String) (b : Logbook) : Bool × Logbook :=
  (b.logs.any fun l => l.id = id && (l.stored? (some providerId)).isSome,
    b.change id (Log.edit providerId content))

end Logbook

/-- What can happen to a logbook. -/
inductive Act where
  | came (a : Arrival)
  | edited (id providerId : Int) (content : String)
deriving DecidableEq, Repr

/-- What is told of it. -/
inductive Report where
  | came (r : Receipt)
  | edited (found : Bool)
deriving DecidableEq, Repr

namespace Logbook

/-- What becomes of a logbook, and what is told of it. -/
def play (b : Logbook) : Act → Report × Logbook
  | .came a => (.came (b.receive a).1, (b.receive a).2)
  | .edited id p content => (.edited (b.edit id p content).1, (b.edit id p content).2)

/-- The same for all that happens, one after the other. -/
def playAll (b : Logbook) : List Act → List Report × Logbook
  | [] => ([], b)
  | x :: xs => ((b.play x).1 :: ((b.play x).2.playAll xs).1, ((b.play x).2.playAll xs).2)

end Logbook

/-! ## Numbers -/

theorem counted_succ (n : Nat) : counted (n + 1) = counted n ++ [(n : Int) + 1] := by
  simp [counted, List.range_succ]

theorem mem_counted {n : Nat} {i : Int} : i ∈ counted n ↔ 1 ≤ i ∧ i ≤ n := by
  simp only [counted, List.mem_map, List.mem_range]
  constructor
  · rintro ⟨j, hj, rfl⟩
    omega
  · rintro ⟨h₁, h₂⟩
    exact ⟨(i - 1).toNat, by omega, by omega⟩

theorem nodup_counted (n : Nat) : (counted n).Nodup :=
  List.Nodup.map (fun i j h => by omega) List.nodup_range

namespace Logbook

variable {b : Logbook}

/-! ## Keys -/

/-- Contacts and logs are numbered, and each user has one contact, and one log on a channel. -/
structure Keyed (b : Logbook) : Prop where
  contactIds : b.contacts.map Contact.id = counted b.contacts.length
  users : (b.contacts.map Contact.userId).Nodup
  logIds : b.logs.map Log.id = counted b.logs.length
  keys : (b.logs.map fun l => (l.channelId, l.userId)).Nodup
  /-- Whoever has a log is a contact. -/
  known : ∀ l ∈ b.logs, (b.contact? l.userId).isSome

theorem mem_of_contact? {userId : Int} {k : Contact} (h : b.contact? userId = some k) :
    k ∈ b.contacts ∧ k.userId = userId :=
  ⟨List.mem_of_find?_eq_some h, by simpa using List.find?_some h⟩

theorem mem_of_log? {channelId userId : Int} {l : Log} (h : b.log? channelId userId = some l) :
    l ∈ b.logs ∧ l.channelId = channelId ∧ l.userId = userId :=
  ⟨List.mem_of_find?_eq_some h, by simpa using List.find?_some h⟩

theorem logFor_user (channelId userId : Int) :
    (b.logFor channelId userId).channelId = channelId
      ∧ (b.logFor channelId userId).userId = userId := by
  unfold logFor
  cases h : b.log? channelId userId with
  | none => exact ⟨rfl, rfl⟩
  | some l => exact (mem_of_log? h).2

namespace Keyed

theorem contact_eq (h : b.Keyed) {k k' : Contact} (hk : k ∈ b.contacts) (hk' : k' ∈ b.contacts)
    (hid : k.id = k'.id) : k = k' :=
  List.inj_on_of_nodup_map (h.contactIds ▸ nodup_counted _) hk hk' hid

theorem log_eq (h : b.Keyed) {l l' : Log} (hl : l ∈ b.logs) (hl' : l' ∈ b.logs)
    (hid : l.id = l'.id) : l = l' :=
  List.inj_on_of_nodup_map (h.logIds ▸ nodup_counted _) hl hl' hid

theorem log_id_bounds (h : b.Keyed) {l : Log} (hl : l ∈ b.logs) :
    1 ≤ l.id ∧ l.id ≤ b.logs.length :=
  mem_counted.mp (h.logIds ▸ List.mem_map_of_mem hl)

end Keyed

/-! ## Meeting a user, and starting a log -/

theorem meet_of_some {userId : Int} {k : Contact} (h : b.contact? userId = some k) :
    b.meet userId = b := by
  simp [meet, h]

theorem meet_of_none {userId : Int} (h : b.contact? userId = none) :
    b.meet userId = { b with contacts := b.contacts ++ [⟨b.contacts.length + 1, userId⟩] } := by
  simp [meet, contactFor, h]

theorem start_of_some {channelId userId : Int} {l : Log} (h : b.log? channelId userId = some l) :
    b.start channelId userId = b := by
  simp [start, h]

theorem start_of_none {channelId userId : Int} (h : b.log? channelId userId = none) :
    b.start channelId userId
      = { b with logs := b.logs ++ [⟨b.logs.length + 1, channelId, userId, []⟩] } := by
  simp [start, logFor, h]

@[simp] theorem meet_logs (userId : Int) : (b.meet userId).logs = b.logs := by
  unfold meet
  split <;> rfl

@[simp] theorem meet_total (userId : Int) : (b.meet userId).total = b.total := by
  unfold meet
  split <;> rfl

@[simp] theorem log?_meet (u channelId userId : Int) :
    (b.meet u).log? channelId userId = b.log? channelId userId := by
  simp [log?]

@[simp] theorem logFor_meet (u channelId userId : Int) :
    (b.meet u).logFor channelId userId = b.logFor channelId userId := by
  simp [logFor]

@[simp] theorem start_contacts (channelId userId : Int) :
    (b.start channelId userId).contacts = b.contacts := by
  unfold start
  split <;> rfl

@[simp] theorem start_total (channelId userId : Int) :
    (b.start channelId userId).total = b.total := by
  unfold start
  split <;> rfl

@[simp] theorem entryOf_started (u channelId userId : Int) (a : Arrival) :
    ((b.meet u).start channelId userId).entryOf a = b.entryOf a := by
  simp [entryOf]

@[simp] theorem contact?_start (channelId userId u : Int) :
    (b.start channelId userId).contact? u = b.contact? u := by
  simp [contact?]

@[simp] theorem change_contacts (id : Int) (f : Log → Log) :
    (b.change id f).contacts = b.contacts := rfl

@[simp] theorem contact?_change (id u : Int) (f : Log → Log) :
    (b.change id f).contact? u = b.contact? u := rfl

theorem contact?_meet (userId : Int) :
    (b.meet userId).contact? userId = some (b.contactFor userId) := by
  cases h : b.contact? userId with
  | some k => simp [meet_of_some h, contactFor, h]
  | none =>
    have hold : b.contacts.find? (fun k => k.userId = userId) = none := h
    simp [meet_of_none h, contact?, contactFor, List.find?_append, hold]

/-- Who is a contact stays so. -/
theorem contact?_meet_of_some {u userId : Int} {k : Contact} (h : b.contact? u = some k) :
    (b.meet userId).contact? u = some k := by
  cases hu : b.contact? userId with
  | some k' => rw [meet_of_some hu, h]
  | none =>
    have hold : b.contacts.find? (fun k => k.userId = u) = some k := h
    simp [meet_of_none hu, contact?, List.find?_append, hold]

/-- A log that has been started is there. -/
theorem logFor_mem_start (channelId userId : Int) :
    b.logFor channelId userId ∈ (b.start channelId userId).logs := by
  cases h : b.log? channelId userId with
  | some l => simpa [start_of_some h, logFor, h] using (mem_of_log? h).1
  | none => simp [start_of_none h, logFor, h]

theorem mem_start {channelId userId : Int} {l : Log} (hl : l ∈ (b.start channelId userId).logs) :
    l ∈ b.logs ∨ l = b.logFor channelId userId := by
  cases h : b.log? channelId userId with
  | some l' => exact .inl (by rwa [start_of_some h] at hl)
  | none => simpa [start_of_none h, logFor, h] using hl

namespace Keyed

theorem meet (h : b.Keyed) (userId : Int) : (b.meet userId).Keyed := by
  cases hk : b.contact? userId with
  | some k => rwa [meet_of_some hk]
  | none =>
    have hnew : userId ∉ b.contacts.map Contact.userId := by
      intro hmem
      obtain ⟨k, hk', rfl⟩ := List.mem_map.mp hmem
      simpa using List.find?_eq_none.mp hk k hk'
    refine
      { contactIds := ?_
        users := ?_
        logIds := by simpa using h.logIds
        keys := by simpa using h.keys
        known := fun l hl => ?_ }
    · rw [meet_of_none hk]
      simp [h.contactIds, counted_succ]
    · rw [meet_of_none hk, List.map_append]
      exact h.users.append (by simp) (by simpa using hnew)
    · obtain ⟨k, hl⟩ := Option.isSome_iff_exists.mp (h.known l (by simpa using hl))
      simp [contact?_meet_of_some hl]

theorem start (h : b.Keyed) {channelId userId : Int} (hk : (b.contact? userId).isSome) :
    (b.start channelId userId).Keyed := by
  cases hl : b.log? channelId userId with
  | some l => rwa [start_of_some hl]
  | none =>
    have hnew : (channelId, userId) ∉ b.logs.map fun l => (l.channelId, l.userId) := by
      intro hmem
      obtain ⟨l, hl', heq⟩ := List.mem_map.mp hmem
      obtain ⟨rfl, rfl⟩ := Prod.mk.inj heq
      simpa using List.find?_eq_none.mp hl l hl'
    refine
      { contactIds := by simpa using h.contactIds
        users := by simpa using h.users
        logIds := ?_
        keys := ?_
        known := fun l hmem => ?_ }
    · rw [start_of_none hl]
      simp [h.logIds, counted_succ]
    · rw [start_of_none hl, List.map_append]
      exact h.keys.append (by simp) (by simpa using hnew)
    · rw [contact?_start]
      rcases mem_start hmem with hmem | rfl
      · exact h.known l hmem
      · rwa [(logFor_user channelId userId).2]

/-- A change of the entries of a log leaves all keys as they are. -/
theorem change (h : b.Keyed) (id : Int) {f : Log → Log}
    (hf : ∀ l, (f l).id = l.id ∧ (f l).channelId = l.channelId ∧ (f l).userId = l.userId) :
    (b.change id f).Keyed := by
  have hkept : ∀ {α : Type} (g : Log → α), (∀ l, g (f l) = g l) →
      (b.change id f).logs.map g = b.logs.map g := by
    intro α g hg
    rw [Logbook.change, List.map_map]
    refine List.map_congr_left fun l _ => ?_
    rw [Function.comp_apply]
    split
    · exact hg l
    · rfl
  refine
    { contactIds := h.contactIds
      users := h.users
      logIds := ?_
      keys := ?_
      known := fun l hl => ?_ }
  · rw [hkept Log.id fun l => (hf l).1, h.logIds]
    simp [Logbook.change]
  · rw [hkept (fun l => (l.channelId, l.userId)) fun l => by rw [(hf l).2.1, (hf l).2.2]]
    exact h.keys
  · obtain ⟨l', hl', rfl⟩ := List.mem_map.mp hl
    rw [contact?_change]
    split
    · rw [(hf l').2.2]
      exact h.known l' hl'
    · exact h.known l' hl'

theorem write (h : b.Keyed) (id : Int) (e : Entry) : (b.write id e).Keyed := by
  obtain ⟨h₁, h₂, h₃, h₄, h₅⟩ := h.change id (f := Log.write e) fun _ => ⟨rfl, rfl, rfl⟩
  exact ⟨h₁, h₂, h₃, h₄, h₅⟩

end Keyed

/-! ## A message comes in -/

theorem receive_of_stored {a : Arrival} {e : Entry}
    (h : (b.logFor a.channelId a.userId).stored? a.providerId = some e) :
    b.receive a = (b.receipt a e.id false true, b) := by
  simp [receive, h]

theorem receive_of_new {a : Arrival}
    (h : (b.logFor a.channelId a.userId).stored? a.providerId = none) :
    b.receive a = (b.receipt a (b.total + 1) (b.log? a.channelId a.userId).isNone false,
      ((b.meet a.userId).start a.channelId a.userId).write (b.logFor a.channelId a.userId).id
        (b.entryOf a)) := by
  simp [receive, h]

/-- Where an entry is found there is a log. -/
theorem log?_of_stored? {channelId userId : Int} {providerId : Option Int} {e : Entry}
    (h : (b.logFor channelId userId).stored? providerId = some e) :
    b.log? channelId userId = some (b.logFor channelId userId) := by
  cases hl : b.log? channelId userId with
  | some l => simp [logFor, hl]
  | none => simp [logFor, hl, Log.stored?] at h

/-- A user who has a log is met already, and the log is started. -/
theorem Keyed.start_meet_of_log? (h : b.Keyed) {channelId userId : Int} {l : Log}
    (hl : b.log? channelId userId = some l) : (b.meet userId).start channelId userId = b := by
  obtain ⟨hmem, -, rfl⟩ := mem_of_log? hl
  obtain ⟨k, hk⟩ := Option.isSome_iff_exists.mp (h.known l hmem)
  rw [meet_of_some hk, start_of_some hl]

theorem Keyed.started (h : b.Keyed) (channelId userId : Int) :
    ((b.meet userId).start channelId userId).Keyed :=
  (h.meet userId).start (by simp [contact?_meet])

theorem Keyed.of_receive (h : b.Keyed) (a : Arrival) : (b.receive a).2.Keyed := by
  cases he : (b.logFor a.channelId a.userId).stored? a.providerId with
  | some e => rwa [receive_of_stored he]
  | none =>
    rw [receive_of_new he]
    exact (h.started a.channelId a.userId).write _ _

theorem Keyed.of_edit (h : b.Keyed) (id p : Int) (content : String) :
    (b.edit id p content).2.Keyed :=
  h.change id fun _ => ⟨rfl, rfl, rfl⟩

/-! ## Soundness -/

/-- No log is empty, and none holds two messages under one id with the messaging service. -/
structure Sound (b : Logbook) : Prop extends b.Keyed where
  begun : ∀ l ∈ b.logs, l.entries ≠ []
  once : ∀ l ∈ b.logs, (l.entries.filterMap Entry.providerId).Nodup

theorem Sound.blank : Sound {} :=
  ⟨⟨rfl, by simp, rfl, by simp, by simp⟩, by simp, by simp⟩

theorem mem_write {id : Int} {e : Entry} {l : Log} :
    l ∈ (b.write id e).logs ↔ ∃ l' ∈ b.logs, l = if l'.id = id then l'.write e else l' := by
  simp [write, change, eq_comm]

theorem mem_edit {id p : Int} {content : String} {l : Log} :
    l ∈ (b.edit id p content).2.logs
      ↔ ∃ l' ∈ b.logs, l = if l'.id = id then l'.edit p content else l' := by
  simp [edit, change, eq_comm]

theorem Log.stored?_eq_none_iff {l : Log} {providerId : Option Int} :
    l.stored? providerId = none ↔
      ∀ p, providerId = some p → p ∉ l.entries.filterMap Entry.providerId := by
  cases providerId with
  | none => simp [Log.stored?]
  | some p => simp [Log.stored?, List.find?_eq_none]

theorem Log.once_write {l : Log} {e : Entry} (h : (l.entries.filterMap Entry.providerId).Nodup)
    (hnew : l.stored? e.providerId = none) :
    ((l.write e).entries.filterMap Entry.providerId).Nodup := by
  rw [Log.write, List.filterMap_append]
  refine h.append ?_ fun p hp hp' => ?_
  · cases he : e.providerId <;> simp [he]
  · have : e.providerId = some p := by simpa using hp'
    exact Log.stored?_eq_none_iff.mp hnew p this hp

theorem Sound.of_receive (h : b.Sound) (a : Arrival) : (b.receive a).2.Sound := by
  cases he : (b.logFor a.channelId a.userId).stored? a.providerId with
  | some e => rwa [receive_of_stored he]
  | none =>
    refine { toKeyed := h.toKeyed.of_receive a, begun := fun l hl => ?_, once := fun l hl => ?_ }
    all_goals
      rw [receive_of_new he] at hl
      obtain ⟨l', hl', rfl⟩ := mem_write.mp hl
    · split
      · simp [Log.write]
      · -- the one log that may be empty is the one that is written to
        rcases mem_start hl' with hold | rfl
        · exact h.begun l' (by simpa using hold)
        · simp_all
    · split
      · have hlog : l' = b.logFor a.channelId a.userId :=
          (h.toKeyed.started a.channelId a.userId).log_eq hl'
            (by simpa using logFor_mem_start (b := b.meet a.userId) a.channelId a.userId) ‹_›
        subst hlog
        refine Log.once_write ?_ he
        rcases mem_start hl' with hold | hnew
        · exact h.once _ (by simpa using hold)
        · cases hl : b.log? a.channelId a.userId with
          | some l => simpa [logFor, hl] using h.once l (mem_of_log? hl).1
          | none => simp [logFor, hl]
      · rcases mem_start hl' with hold | rfl
        · exact h.once l' (by simpa using hold)
        · simp_all

theorem Log.providerIds_edit (l : Log) (p : Int) (content : String) :
    (l.edit p content).entries.filterMap Entry.providerId
      = l.entries.filterMap Entry.providerId := by
  rw [Log.edit, List.filterMap_map]
  refine List.filterMap_congr fun e _ => ?_
  rw [Function.comp_apply]
  split <;> rfl

theorem Sound.of_edit (h : b.Sound) (id p : Int) (content : String) :
    (b.edit id p content).2.Sound := by
  refine
    { toKeyed := h.toKeyed.of_edit id p content, begun := fun l hl => ?_, once := fun l hl => ?_ }
  all_goals obtain ⟨l', hl', rfl⟩ := mem_edit.mp hl
  · split
    · simpa [Log.edit] using h.begun l' hl'
    · exact h.begun l' hl'
  · split
    · rw [Log.providerIds_edit]
      exact h.once l' hl'
    · exact h.once l' hl'

theorem Sound.of_play (h : b.Sound) : (x : Act) → (b.play x).2.Sound
  | .came a => h.of_receive a
  | .edited id p content => h.of_edit id p content

/-! ## Size -/

/-- There are at most so many logs, and none has more entries. -/
structure Within (n : Nat) (b : Logbook) : Prop where
  logs : b.logs.length ≤ n
  entries : ∀ l ∈ b.logs, l.entries.length ≤ n

theorem Within.blank : Within 0 {} := ⟨by simp, by simp⟩

theorem Within.logFor {n : Nat} (h : b.Within n) (channelId userId : Int) :
    (b.logFor channelId userId).entries.length ≤ n := by
  unfold Logbook.logFor
  cases hl : b.log? channelId userId with
  | none => simp
  | some l => exact h.entries l (mem_of_log? hl).1

theorem Within.met {n : Nat} (h : b.Within n) (userId : Int) : (b.meet userId).Within n :=
  ⟨by simpa using h.logs, by simpa using h.entries⟩

theorem Within.started {n : Nat} (h : b.Within n) (channelId userId : Int) :
    (b.start channelId userId).Within (n + 1) := by
  have hlogs := h.logs
  cases hl : b.log? channelId userId with
  | some l =>
    rw [start_of_some hl]
    exact ⟨by omega, fun l hmem => Nat.le_succ_of_le (h.entries l hmem)⟩
  | none =>
    refine ⟨by simpa [start_of_none hl] using hlogs, fun l hmem => ?_⟩
    rcases mem_start hmem with hmem | rfl
    · exact Nat.le_succ_of_le (h.entries l hmem)
    · exact Nat.le_succ_of_le (h.logFor channelId userId)

theorem Within.of_receive {n : Nat} (h : b.Within n) (a : Arrival) :
    (b.receive a).2.Within (n + 1) := by
  cases he : (b.logFor a.channelId a.userId).stored? a.providerId with
  | some e =>
    rw [receive_of_stored he]
    exact ⟨Nat.le_succ_of_le h.logs, fun l hl => Nat.le_succ_of_le (h.entries l hl)⟩
  | none =>
    rw [receive_of_new he]
    have hmet := h.met a.userId
    refine ⟨by simpa [write, change] using (hmet.started a.channelId a.userId).logs,
      fun l hl => ?_⟩
    obtain ⟨l', hl', rfl⟩ := mem_write.mp hl
    -- a log that was there before has room for one more entry, and a new one has none yet
    have hroom : l'.entries.length ≤ n := by
      rcases mem_start hl' with hmem | rfl
      · exact hmet.entries l' hmem
      · exact hmet.logFor a.channelId a.userId
    split
    · simpa [Log.write] using hroom
    · omega

theorem Within.of_play {n : Nat} (h : b.Within n) (x : Act) : (b.play x).2.Within (n + 1) := by
  cases x with
  | came a => exact h.of_receive a
  | edited id p content =>
    refine ⟨by simpa [play, edit, change] using Nat.le_succ_of_le h.logs, fun l hl => ?_⟩
    obtain ⟨l', hl', rfl⟩ := mem_edit.mp hl
    have := h.entries l' hl'
    split
    · simp only [Log.edit, List.length_map]
      omega
    · omega

end Logbook

end Deskflow
