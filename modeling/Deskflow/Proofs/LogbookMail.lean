import Deskflow.Proofs.LogbookTables
import Mathlib.Data.List.Pairwise

/-!
# Mail

What the messaging service brings, messages that come in and edits of them, leaves the tables of the
desk with a logbook. From empty tables of clients, conversations and messages on, and as long as the
clock does not go back, what is told of each piece of mail is what the logbook tells, and afterwards
the tables hold what it holds.

Mail is taken in by `record_incoming` and `mark_edited`, and read by `find_conversation` and
`latest_incoming_text`.

* `Holds.markEdited`, `Holds.edited`: what an edit does to the tables is what it does to the
  logbook.
* `Holds.play`, `Holds.playAll`: the same for one piece of mail, and for all that comes.
* `files_logbook`: the result.
-/

namespace Deskflow

open Transaction

/-! ## An edit -/

/-- A message with another content, marked as edited. -/
def Message.edited (content : String) (m : Message) : Message :=
  { m with
    content := some content
    metadata :=
      match m.metadata with
      | .object fields => .object (Record.put fields "edited" (.bool true))
      | v => v }

/-- A message that came in under an id, edited; any other is left as it is. -/
def Message.editedAt (c p : Int) (content : String) (m : Message) : Message :=
  if History.isIncoming c p m then m.edited content else m

/-- An edit touches the content and the mark of a message. -/
theorem Message.editedAt_eq (c p : Int) (content : String) (m : Message) :
    m.editedAt c p content = { m with
      content := (m.editedAt c p content).content
      metadata := (m.editedAt c p content).metadata } := by
  unfold editedAt
  split <;> rfl

theorem Message.entry_edited {m : Message} {content : String}
    (h : ∃ fields, m.metadata = .object fields) :
    (m.edited content).entry = { m.entry with content, isEdited := true } := by
  obtain ⟨fields, h⟩ := h
  simp [edited, entry, isEdited, h, Record.getD]

namespace Holds

variable {s₀ s : Store} {now : Moment} {b : Logbook}

/-- No two messages of a conversation came in under the same id. -/
theorem incoming_unique (h : Holds s₀ s now b) (hb : b.Sound) {c p : Int} {x y : Message}
    (hx : x ∈ s.messages) (hy : y ∈ s.messages) (hxp : History.isIncoming c p x = true)
    (hyp : History.isIncoming c p y = true) : x = y := by
  simp only [History.isIncoming, Bool.and_eq_true, beq_iff_eq] at hxp hyp
  obtain ⟨-, l, hl, hconversation, -⟩ := h.messages x hx
  have honce := hb.once l hl
  rw [← h.entries l hl, List.filterMap_map, List.Nodup, List.pairwise_filterMap] at honce
  let R (x y : Message) : Prop :=
    ∀ p, x.providerMessageId = some p → ∀ q, y.providerMessageId = some q → p ≠ q
  have : Std.Symm R := ⟨fun _ _ h p hp q hq => (h q hq p hp).symm⟩
  have hall : (s.messages.filter fun m => m.conversationId == l.id).Pairwise R := honce
  by_contra hne
  have hx : x ∈ s.messages.filter fun m => m.conversationId == l.id := by
    simp [hx, hconversation]
  have hy : y ∈ s.messages.filter fun m => m.conversationId == l.id := by
    simp [hy, hyp.1.1, ← hconversation, hxp.1.1]
  exact hall.forall hx hy hne p hxp.2 p hyp.2 rfl

/-- An edit leaves the outlines of conversations and logs alone. -/
theorem outlines_edited (h : Holds s₀ s now b) (c p : Int) (content : String) :
    s.conversations.map Conversation.outline
      = (b.edit c p content).2.logs.map (b.edit c p content).2.outline := by
  show _ = (b.logs.map _).map _
  rw [List.map_map, h.conversations]
  refine List.map_congr_left fun x _ => ?_
  by_cases hx : x.id = c
  · simp [hx, Logbook.outline, Log.edit, Logbook.edit]
  · simp [hx, Logbook.outline, Logbook.edit]

/-- A message that is edited is an entry that is edited in the log of its conversation. -/
theorem entries_edited (h : Holds s₀ s now b) (c p : Int) (content : String) {l : Log}
    (hl : l ∈ (b.edit c p content).2.logs) :
    ((s.messages.map (Message.editedAt c p content)).filter fun m =>
      m.conversationId == l.id).map Message.entry = l.entries := by
  obtain ⟨x, hx, rfl⟩ := Logbook.mem_edit.mp hl
  have hid : (if x.id = c then x.edit p content else x).id = x.id := by split <;> rfl
  have hsame : ((fun m => m.conversationId == x.id) ∘ Message.editedAt c p content)
      = fun m => m.conversationId == x.id := by
    funext m
    rw [Function.comp_apply, Message.editedAt_eq]
  rw [hid, List.filter_map, hsame, List.map_map]
  by_cases hxc : x.id = c
  · rw [if_pos hxc, Log.edit, ← h.entries x hx, List.map_map]
    refine List.map_congr_left fun m hm => ?_
    obtain ⟨hm, hconversation⟩ := List.mem_filter.mp hm
    have hincoming : History.isIncoming c p m = true ↔ m.entry.providerId = some p := by
      simp [History.isIncoming, (h.messages m hm).1, ← hxc, hconversation, Message.entry]
    rw [Function.comp_apply, Function.comp_apply, Message.editedAt]
    by_cases hp : m.entry.providerId = some p
    · rw [if_pos (hincoming.mpr hp), if_pos hp]
      exact Message.entry_edited (h.noted m hm)
    · rw [if_neg (mt hincoming.mp hp), if_neg hp]
  · rw [if_neg hxc, ← h.entries x hx]
    refine List.map_congr_left fun m hm => ?_
    have hconversation := (List.mem_filter.mp hm).2
    rw [beq_iff_eq] at hconversation
    simp [Message.editedAt, History.isIncoming, hconversation, hxc]

theorem edited (h : Holds s₀ s now b) (c p : Int) (content : String) :
    Holds s₀ { s with messages := s.messages.map (Message.editedAt c p content) } now
      (b.edit c p content).2 := by
  refine
    { clients := h.clients
      conversations := h.outlines_edited c p content
      entries := fun l hl => h.entries_edited c p content hl
      messages := fun m hm => ?_
      messageIds := ?_
      keyed := h.keyed.of_edit c p content
      others := congrArg (fun t : Store =>
        { t with messages := s.messages.map (Message.editedAt c p content) }) h.others
      dated := fun m hm => ?_
      ordered := ?_
      noted := fun m hm => ?_
      reached := h.reached }
  · obtain ⟨m', hm', rfl⟩ := List.mem_map.mp hm
    obtain ⟨hin, l, hl, hconversation, hchannel, hclient⟩ := h.messages m' hm'
    rw [Message.editedAt_eq]
    refine ⟨hin, _, Logbook.mem_edit.mpr ⟨l, hl, rfl⟩, ?_⟩
    split
    · exact ⟨hconversation, hchannel, hclient⟩
    · exact ⟨hconversation, hchannel, hclient⟩
  · show (s.messages.map _).map _ = counted b.total
    rw [List.map_map, ← h.messageIds]
    refine List.map_congr_left fun m _ => ?_
    rw [Function.comp_apply, Message.editedAt_eq]
  · obtain ⟨m', hm', rfl⟩ := List.mem_map.mp hm
    rw [Message.editedAt_eq]
    exact h.dated m' hm'
  · refine List.pairwise_map.mpr (h.ordered.imp fun {x y} hxy => ?_)
    rw [Message.editedAt_eq, Message.editedAt_eq c p content y]
    exact hxy
  · obtain ⟨m', hm', rfl⟩ := List.mem_map.mp hm
    obtain ⟨fields, hfields⟩ := h.noted m' hm'
    unfold Message.editedAt
    split
    · exact ⟨_, by rw [Message.edited, hfields]⟩
    · exact ⟨fields, hfields⟩

/-- An edit finds an entry just if a message came in under the id. -/
theorem edit_fst (h : Holds s₀ s now b) (c p : Int) (content : String) :
    (b.edit c p content).1 = (s.messages.find? (History.isIncoming c p)).isSome := by
  rw [Bool.eq_iff_iff, Logbook.edit, List.any_eq_true]
  constructor
  · rintro ⟨l, hl, hmatch⟩
    simp only [Bool.and_eq_true, decide_eq_true_eq] at hmatch
    obtain ⟨rfl, hstored⟩ := hmatch
    rwa [← h.find_incoming hl, Option.isSome_map] at hstored
  · intro hsome
    obtain ⟨m, hm⟩ := Option.isSome_iff_exists.mp hsome
    have hin := List.find?_some hm
    simp only [History.isIncoming, Bool.and_eq_true, beq_iff_eq] at hin
    obtain ⟨-, l, hl, hconversation, -⟩ := h.messages m (List.mem_of_find?_eq_some hm)
    obtain rfl : l.id = c := hconversation.symm.trans hin.1.1
    refine ⟨l, hl, ?_⟩
    simp [← h.find_incoming hl, hm]

/-- To edit the one message that came in under an id is to change the row with its key. -/
theorem map_editedAt (h : Holds s₀ s now b) (hb : b.Sound) {c p : Int} {message : Message}
    (hmem : message ∈ s.messages) (hin : History.isIncoming c p message = true)
    (content : String) {fields : Record} (hfields : message.metadata = .object fields) :
    s.messages.map (Message.editedAt c p content)
      = s.messages.map fun m => if m.id == message.id then
          { m with
            content := some content
            metadata := .object (Record.put fields "edited" (.bool true)) } else m := by
  have hids : (s.messages.map Message.id).Nodup := h.messageIds ▸ nodup_counted _
  refine List.map_congr_left fun m hm => ?_
  by_cases hid : m.id = message.id
  · obtain rfl := List.inj_on_of_nodup_map hids hm hmem hid
    rw [if_pos (by simp), Message.editedAt, if_pos hin, Message.edited, hfields]
  · have hout : ¬History.isIncoming c p m = true := fun hm' =>
      hid (congrArg Message.id (h.incoming_unique hb hm hmem hm' hin))
    rw [if_neg (by simpa using hid), Message.editedAt, if_neg hout]

/-- **An edit does to the tables what it does to the logbook.** It changes the one message that
came in under the id, and tells whether there is one. -/
theorem markEdited (h : Holds s₀ s now b) (hb : b.Sound) (hs : s₀.Ready) {c p : Int}
    (hc : fits c = true) (hp : fits p = true) (content : String) :
    (History.markEdited c p content).run s = .ok ((b.edit c p content).1,
      { s with messages := s.messages.map (Message.editedAt c p content) }) := by
  rw [h.edit_fst]
  unfold History.markEdited
  refine run_bind_eq_ok.mpr
    ⟨_, s, History.run_incoming? (h.ready hs .messages (by simp)) hc hp, ?_⟩
  cases hfound : s.messages.find? (History.isIncoming c p) with
  | none =>
    have hnone : s.messages.map (Message.editedAt c p content) = s.messages := by
      refine (List.map_congr_left fun m hm => ?_).trans (List.map_id _)
      exact if_neg (List.find?_eq_none.mp hfound m hm)
    rw [hnone]
    rfl
  | some message =>
    have hmem := List.mem_of_find?_eq_some hfound
    obtain ⟨fields, hfields⟩ := h.noted message hmem
    have hgiven : message.metadata.orElse (.object []) = .object fields := by
      rw [hfields]
      cases fields <;> rfl
    simp only [hgiven, h.map_editedAt hb hmem (List.find?_some hfound) content hfields]
    rfl

end Holds

/-! ## All that happens -/

/-- What the messaging service brings: a message that came in, or the edit of one. -/
inductive Mail where
  | came (m : Inbound)
  | edited (conversationId providerMessageId : Int) (content : String)
deriving DecidableEq, Repr

/-- What the desk does about a piece of mail. -/
def Mail.play (now : Moment) : Mail → Transaction Report
  | .came m => .came <$> m.record now
  | .edited c p content => .edited <$> History.markEdited c p content

/-- The same for all mail, each piece at its moment. -/
def Mail.playAll (xs : List (Moment × Mail)) : Transaction (List Report) :=
  xs.mapM fun x => x.2.play x.1

/-- What a piece of mail means to a logbook. -/
inductive Mail.Means (s₀ : Store) : Mail → Act → Prop
  | came {m : Inbound} {a : Arrival} (h : m.Denotes s₀ a) : Means s₀ (.came m) (.came a)
  | edited {c p : Int} (content : String) (hc : fits c = true) (hp : fits p = true) :
    Means s₀ (.edited c p content) (.edited c p content)

/-- There are no clients, conversations and messages. -/
structure Store.Blank (s : Store) : Prop where
  clients : s.clients = []
  conversations : s.conversations = []
  messages : s.messages = []

theorem run_map_eq_ok {α β : Type} {t : Transaction α} {f : α → β} {s s' : Store} {a : α}
    (h : t.run s = .ok (a, s')) : (f <$> t).run s = .ok (f a, s') := by
  rw [StateT.run_map, h]
  rfl

namespace Holds

variable {s₀ s : Store} {last now : Moment} {b : Logbook}

theorem blank (h : s₀.Blank) (now : Moment) : Holds s₀ s₀ now {} where
  clients := by simp [h.clients]
  conversations := by simp [h.conversations]
  entries := by simp
  messages := by simp [h.messages]
  messageIds := by simp [h.messages, counted]
  keyed := Logbook.Sound.blank.toKeyed
  others := rfl
  dated := by simp [h.messages]
  ordered := by simp [h.messages]
  noted := by simp [h.messages]
  reached := by simp [h.conversations]

theorem play (h : Holds s₀ s last b) (hb : b.Sound) (hs : s₀.Ready) {x : Mail} {y : Act}
    (hmeans : x.Means s₀ y) (hnow : last.micros ≤ now.micros) {n : Nat} (hn : b.Within n)
    (hlimit : n + 1 < wordLimit) :
    ∃ s', (x.play now).run s = .ok ((b.play y).1, s') ∧ Holds s₀ s' now (b.play y).2 := by
  cases hmeans with
  | came hm =>
    obtain ⟨s', hrun, h'⟩ := h.record hs hm hnow hn hlimit
    exact ⟨s', run_map_eq_ok hrun, h'⟩
  | edited content hc hp =>
    exact ⟨_, run_map_eq_ok (h.markEdited hb hs hc hp content),
      (h.later hnow).edited _ _ content⟩

theorem playAll (hs : s₀.Ready) {mail : List (Moment × Mail)} {acts : List Act}
    (hmeans : List.Forall₂ (fun x y => x.2.Means s₀ y) mail acts) :
    ∀ {s last b n}, Holds s₀ s last b → b.Sound → b.Within n →
      mail.Pairwise (fun x y => x.1.micros ≤ y.1.micros) →
      (∀ x ∈ mail, last.micros ≤ x.1.micros) → n + mail.length < wordLimit →
      ∃ s' now, (Mail.playAll mail).run s = .ok ((b.playAll acts).1, s')
        ∧ Holds s₀ s' now (b.playAll acts).2 ∧ (b.playAll acts).2.Sound
        ∧ (b.playAll acts).2.Within (n + mail.length) := by
  induction hmeans with
  | nil =>
    intro s last b n h hb hn _ _ _
    exact ⟨s, last, rfl, h, hb, hn⟩
  | @cons x y mail acts hx _ ih =>
    intro s last b n h hb hn hclock hlast hlimit
    rw [List.length_cons] at hlimit
    obtain ⟨hfirst, hclock⟩ := List.pairwise_cons.mp hclock
    obtain ⟨s₁, hrun, h₁⟩ := h.play hb hs hx (hlast x (by simp)) hn (by omega)
    obtain ⟨s', now, hruns, h', hb', hn'⟩ := ih h₁ (hb.of_play y) (hn.of_play y) hclock hfirst
      (by push_cast; omega)
    refine ⟨s', now, ?_, h', hb', ?_⟩
    · rw [Mail.playAll, List.mapM_cons]
      refine run_bind_eq_ok.mpr ⟨_, s₁, hrun, ?_⟩
      exact run_bind_eq_ok.mpr ⟨_, s', hruns, rfl⟩
    · rw [List.length_cons, Nat.add_comm mail.length, ← Nat.add_assoc]
      exact hn'

end Holds

/-- Tables that hold a logbook and nothing else that is new, and from which it can be read. -/
structure Filed (s₀ s : Store) (b : Logbook) : Prop extends Represents s b where
  sound : b.Sound
  others : s = { s₀ with
    clients := s.clients, conversations := s.conversations, messages := s.messages }
  /-- The conversation that is found for a user on a channel is that of the log. -/
  found : ∀ channelId userId, fits channelId = true →
    ∃ c, (Thread.find? channelId userId).run s = .ok (c, s)
      ∧ c.map Conversation.outline = (b.log? channelId userId).map b.outline
  /-- The text that came in last is the content of the last entry. -/
  latest : ∀ l ∈ b.logs,
    (History.latestText l.id).run s = .ok (l.entries.getLast?.map Entry.content, s)
  /-- An edit changes the content and the mark of the one message that came in under an id, -/
  edits : ∀ c p content, fits c = true → fits p = true →
    (History.markEdited c p content).run s = .ok ((b.edit c p content).1,
      { s with messages := s.messages.map (Message.editedAt c p content) })
  /-- and there is one at most. -/
  once : ∀ c p, ∀ x ∈ s.messages, ∀ y ∈ s.messages, History.isIncoming c p x = true →
    History.isIncoming c p y = true → x = y

/-- **The tables of the desk keep a logbook.** -/
theorem files_logbook {s₀ : Store} {mail : List (Moment × Mail)} {acts : List Act}
    (hs : s₀.Ready) (hblank : s₀.Blank)
    (hclock : mail.Pairwise fun x y => x.1.micros ≤ y.1.micros)
    (hmeans : List.Forall₂ (fun x y => x.2.Means s₀ y) mail acts)
    (hlimit : mail.length < wordLimit) :
    ∃ s, (Mail.playAll mail).run s₀ = .ok ((Logbook.playAll {} acts).1, s)
      ∧ Filed s₀ s (Logbook.playAll {} acts).2 := by
  obtain ⟨first, hfirst⟩ : ∃ t : Moment, ∀ x ∈ mail, t.micros ≤ x.1.micros := by
    cases mail with
    | nil => exact ⟨default, by simp⟩
    | cons x mail =>
      refine ⟨x.1, fun y hy => ?_⟩
      rcases List.mem_cons.mp hy with rfl | hy
      · exact Int.le_refl _
      · exact (List.pairwise_cons.mp hclock).1 y hy
  obtain ⟨s, now, hrun, h, hb, hn⟩ := Holds.playAll hs hmeans (Holds.blank hblank first)
    Logbook.Sound.blank Logbook.Within.blank hclock hfirst (by simpa using hlimit)
  refine ⟨s, hrun, ?_⟩
  exact
    { toRepresents := h.toRepresents
      sound := hb
      others := h.others
      found := fun channelId userId hc => h.run_find? hs hc userId
      latest := fun l hl => h.run_latestText hs hl (h.fits_log hn (by simpa using hlimit) hl)
      edits := fun c p content hc hp => h.markEdited hb hs hc hp content
      once := fun c p x hx y hy => h.incoming_unique hb hx hy }

/-! ### Anna on two channels -/

namespace Mail

/-- A desk with two channels, to which nobody has written. -/
def quiet : Store :=
  { channels := [⟨1, "Support bot", "telegram", .null, .object [], true⟩,
      ⟨2, "Sales bot", "telegram", .null, .object [], true⟩] }

/-- A message from Anna. -/
def fromAnna (channelId : Int) (providerId : Option Int) (content : String) : Inbound :=
  { channelId := .int channelId
    userId := .int 7
    chatId := .int 7
    name := .str "Anna"
    content
    providerMessageId := (providerId.map Value.int).getD .null }

theorem denotes_fromAnna {channelId : Int} (hchannel : channelId ∈ [1, 2]) {providerId : Option Int}
    (hprovider : ∀ p, providerId = some p → fits p = true) (content : String) :
    (fromAnna channelId providerId content).Denotes quiet
      ⟨channelId, 7, providerId, content, false⟩ where
  channel := by
    rcases List.mem_pair.mp hchannel with rfl | rfl
    · exact ⟨_, rfl, rfl⟩
    · exact ⟨_, rfl, rfl⟩
  channelId := rfl
  channelFits := by
    rcases List.mem_pair.mp hchannel with rfl | rfl
    · show fits 1 = true
      decide
    · show fits 2 = true
      decide
  userId := rfl
  chatId := ⟨7, rfl⟩
  name := ⟨_, rfl⟩
  providerId := by cases providerId <;> rfl
  providerFits := hprovider
  content := rfl

/-- Anna writes on the first channel, which comes in twice, and on the second one, and edits her
first message, all but the first at one moment. -/
def annas : List (Moment × Mail) :=
  [(⟨0⟩, .came (fromAnna 1 (some 5) "Are you open?")),
    (⟨1⟩, .came (fromAnna 1 (some 5) "Are you open?")),
    (⟨1⟩, .came (fromAnna 2 none "What is the price?")),
    (⟨1⟩, .edited 1 5 "Are you open today?")]

/-- What that means to the logbook. -/
def annasActs : List Act :=
  [.came ⟨1, 7, some 5, "Are you open?", false⟩, .came ⟨1, 7, some 5, "Are you open?", false⟩,
    .came ⟨2, 7, none, "What is the price?", false⟩, .edited 1 5 "Are you open today?"]

theorem annas_means : List.Forall₂ (fun x y => x.2.Means quiet y) annas annasActs :=
  .cons (.came (denotes_fromAnna (by decide) (by decide) _))
    (.cons (.came (denotes_fromAnna (by decide) (by decide) _))
      (.cons (.came (denotes_fromAnna (by decide) (by simp) _))
        (.cons (.edited _ (by decide) (by decide)) .nil)))

/-- The logbook after that. -/
def annasBook : Logbook :=
  { contacts := [⟨1, 7⟩]
    logs := [⟨1, 1, 7, [⟨1, some 5, "Are you open today?", true⟩]⟩,
      ⟨2, 2, 7, [⟨2, none, "What is the price?", false⟩]⟩]
    total := 2 }

/-- What is told of the messages. -/
def annasReports : List Report :=
  [.came ⟨1, 1, 1, 1, "Are you open?", true, false, false, false⟩,
    .came ⟨1, 1, 1, 1, "Are you open?", false, false, false, true⟩,
    .came ⟨2, 2, 1, 2, "What is the price?", true, true, false, false⟩,
    .edited true]

/-- The desk keeps Anna's logs. -/
theorem files_logbook_annas :
    ∃ s, (playAll annas).run quiet = .ok (annasReports, s) ∧ Filed quiet s annasBook := by
  have hbook : Logbook.playAll {} annasActs = (annasReports, annasBook) := by decide
  have hready : quiet.Ready := by
    unfold Store.Ready
    decide
  have h := files_logbook hready ⟨rfl, rfl, rfl⟩ (by decide) annas_means (by decide)
  rwa [hbook] at h

end Mail

end Deskflow
