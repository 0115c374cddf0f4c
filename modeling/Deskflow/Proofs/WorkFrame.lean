import Deskflow.Engine.Execution
import Deskflow.Proofs.Preservation

/-!
# The engine's other work

Most of what a step does leaves the run log and the slots of conversations alone: it reads, sends,
adds messages, changes tags, gives a conversation another operator or status, or waits. `Aside`
collects what such work keeps, for stores (`Store.Aside`) and for worlds (`World.Aside`), and this
file shows of each piece of it that it does. What steps make of the pieces is in `Stepwork`.

A scripted delivery can delete a row meanwhile, as someone else at the desk would. What is kept of a
table is therefore kept as long as the script spares it (`Rehearsal.Spares`).

* `reads_loadThread`, `reads_matching`, `reads_loadFlow`: what only reads.
* `beside_change`, `beside_add_tag`: what writes, and leaves messages and channels alone as well.
* `changed_of_change`, `made_of_resolve`, `assigned_of_assignOperator`, `set_of_setStatus`: what
  comes down to tags that are attached or detached, to one that is made, or to one change of a
  conversation.
* `aside_deliver`, `aside_wait`: what concerns the world as a whole.
-/

namespace Deskflow

/-- What of a conversation is left when its operator, status and counters are put aside. -/
def Conversation.core (c : Conversation) : Int × Int × Option Int × Value :=
  (c.id, c.channelId, c.clientId, c.metadata)

/-- What of a run is settled when it is opened: which it is, and what set it off. -/
structure Opening where
  id : Int
  automationId : Int
  conversationId : Int
  triggerData : Value

/-- What was settled when a run was opened. -/
def Run.opening (r : Run) : Opening := ⟨r.id, r.automationId, r.conversationId, r.triggerData⟩

/-- What was settled of the runs in a store. -/
def Store.openings (s : Store) : List Opening := s.runs.map Run.opening

/-! ## Stores -/

/-- The methods by which messages are sent. -/
def Service.sendMethods : List String := ["sendMessage", "sendPhoto", "sendVideo", "sendDocument"]

theorem Service.method_of_request? {s : Service} {publicPrefix token : String} {d : Delivery}
    {r : Request} (h : s.request? publicPrefix token d = some r) : r.method ∈ sendMethods := by
  unfold request? at h
  cases hcontent : d.content with
  | text text =>
    rw [hcontent] at h
    obtain rfl := Option.some.inj h
    exact List.mem_cons_self
  | media kind ref caption =>
    rw [hcontent] at h
    obtain ⟨media, -, hr⟩ := Option.bind_eq_some_iff.mp h
    have hkind : ∀ k, (mediaMethod k).1 ∈ sendMethods := fun k => by cases k <;> decide
    exact Option.some.inj hr ▸ hkind kind

namespace Store

theorem stepsOf_congr {s t : Store} (h : s.steps = t.steps) (a : Int) :
    s.stepsOf a = t.stepsOf a := by
  rw [stepsOf, stepsOf, h]

/-- What a run goes through leaves alone what was settled when it was opened. -/
theorem openings_modify (s : Store) (id : Int) {f : Run → Run}
    (hf : ∀ r, (f r).opening = r.opening) : (s.modify Run id f).openings = s.openings := by
  show (s.runs.map _).map Run.opening = s.runs.map Run.opening
  rw [List.map_map]
  refine List.map_congr_left fun r _ => ?_
  simp only [Function.comp]
  split
  · exact hf r
  · rfl

/-- What work that leaves run log and slots alone keeps of a store. -/
structure Aside (s t : Store) : Prop where
  runs : t.runs = s.runs
  automations : t.automations = s.automations
  steps : t.steps = s.steps
  absent : t.absent = s.absent
  threads : ∀ c, (t.find? Conversation c).map Conversation.core =
    (s.find? Conversation c).map Conversation.core

instance : Std.Refl Aside := ⟨fun _ => ⟨rfl, rfl, rfl, rfl, fun _ => rfl⟩⟩

instance : IsTrans Store Aside := ⟨fun _ _ _ h k =>
  ⟨k.runs.trans h.runs, k.automations.trans h.automations, k.steps.trans h.steps,
    k.absent.trans h.absent, fun c => (k.threads c).trans (h.threads c)⟩⟩

/-- A change of a conversation that leaves its core alone. -/
theorem Aside.modify_conversation (s : Store) (id : Int) {f : Conversation → Conversation}
    (hf : ∀ c, (f c).core = c.core) : Aside s (s.modify Conversation id f) where
  runs := rfl
  automations := rfl
  steps := rfl
  absent := rfl
  threads c := by
    have hid : ∀ r : Conversation, Row.id (f r) = Row.id r := fun r => congrArg Prod.fst (hf r)
    rw [find?_modify s id c f hid, Option.map_map]
    congr 1
    funext r
    simp only [Function.comp]
    split
    · exact hf r
    · rfl

/-- What work keeps of a store that leaves messages and channels alone as well. -/
structure Beside (s t : Store) : Prop extends Aside s t where
  messages : t.messages = s.messages
  channels : t.channels = s.channels

instance : Std.Refl Beside := ⟨fun s => ⟨Std.Refl.refl s, rfl, rfl⟩⟩

instance : IsTrans Store Beside := ⟨fun s t u h k =>
  ⟨IsTrans.trans s t u h.toAside k.toAside, k.messages.trans h.messages,
    k.channels.trans h.channels⟩⟩

end Store

namespace Transaction

variable {α : Type}

theorem aside_add_message (m : Message) : Keeps Store.Aside (add m) := by
  intro s a s' h
  rw [run_add] at h
  split at h
  · cases h
  · cases h
    exact ⟨rfl, rfl, rfl, rfl, fun _ => rfl⟩

theorem beside_add_tag (t : Tag) : Keeps Store.Beside (add t) := by
  intro s a s' h
  rw [run_add] at h
  split at h
  · cases h
  · cases h
    exact ⟨⟨rfl, rfl, rfl, rfl, fun _ => rfl⟩, rfl, rfl⟩

theorem reads_forM_fit : ∀ ids : List Int, Reads (ids.forM fit)
  | [] => Reads.pure _
  | n :: ids => Keeps.bind (reads_fit n) fun _ => reads_forM_fit ids

/-! ### Reading -/

theorem reads_loadClient (id : Option Int) : Reads (Thread.loadClient id) := by
  cases id with
  | none => exact Reads.pure _
  | some id =>
    refine Keeps.bind (reads_load Client id) fun client => ?_
    cases client with
    | none => exact Reads.pure _
    | some client =>
      exact Keeps.bind (reads_need _) fun _ => Keeps.bind (reads_need _) fun _ => Reads.pure _

theorem reads_loadThread (id : Int) : Reads (Thread.load? id) := by
  refine Keeps.bind (reads_load Conversation id) fun conversation => ?_
  cases conversation with
  | none => exact Reads.pure _
  | some conversation =>
    exact Keeps.bind (reads_loadClient _) fun _ => Keeps.bind (reads_load Channel _) fun _ =>
      Reads.pure _

/-- A thread holds what the store has of a conversation and of its channel. -/
theorem found_of_loadThread {c : Int} {s s' : Store} {found : Option Thread}
    (h : (Thread.load? c).run s = .ok (found, s')) :
    s.find? Conversation c = found.map Thread.conversation
      ∧ ∀ thread, found = some thread →
        thread.channel = s.find? Channel thread.conversation.channelId := by
  unfold Thread.load? at h
  obtain ⟨conversation, s₁, hconversation, h⟩ := run_bind_eq_ok.mp h
  obtain ⟨rfl, rfl, -⟩ := run_load_eq_ok hconversation
  cases hk : s₁.find? Conversation c with
  | none =>
    rw [hk] at h
    cases h
    exact ⟨rfl, fun _ h => by cases h⟩
  | some k =>
    rw [hk] at h
    obtain ⟨client, s₂, hclient, h⟩ := run_bind_eq_ok.mp h
    obtain rfl := reads_loadClient k.clientId s₁ client s₂ hclient
    obtain ⟨channel, s₃, hchannel, h⟩ := run_bind_eq_ok.mp h
    obtain ⟨rfl, -, -⟩ := run_load_eq_ok hchannel
    cases h
    exact ⟨rfl, fun _ h => by cases h; rfl⟩

theorem reads_latestText (id : Int) : Reads (History.latestText id) :=
  Keeps.bind (reads_rows Message) fun _ => Keeps.bind (reads_fit id) fun _ => Reads.pure _

theorem reads_countOfClient (id : Int) : Reads (Thread.countOfClient id) :=
  Keeps.bind (reads_rows Conversation) fun _ => Keeps.bind (reads_fit id) fun _ => Reads.pure _

theorem reads_existing (ids : List Int) : Reads (Tagging.existing ids) :=
  Keeps.bind (reads_rows Tag) fun _ => Keeps.bind (reads_forM_fit ids) fun _ => Reads.pure _

theorem reads_tagsNamed (values : List Value) : Reads (Tagging.tagsNamed values) := by
  refine Keeps.bind (Reads.lift _) fun ids => ?_
  split
  · exact Reads.pure _
  · exact reads_existing ids

theorem reads_taggedClient (id : Int) : Reads (Tagging.client? id) := by
  refine Keeps.bind (reads_load Client id) fun client => ?_
  cases client with
  | none => exact Reads.pure _
  | some client =>
    exact Keeps.bind (reads_need _) fun _ => Keeps.bind (reads_need _) fun _ => Reads.pure _

theorem found_of_existing {ids : List Int} {s s' : Store} {tags : List Tag}
    (h : (Tagging.existing ids).run s = .ok (tags, s')) : s' = s ∧ ∀ t ∈ tags, t ∈ s.tags := by
  unfold Tagging.existing at h
  obtain ⟨all, s₁, hall, h⟩ := run_bind_eq_ok.mp h
  obtain ⟨-, rfl, rfl⟩ := run_rows_eq_ok.mp hall
  obtain ⟨_, s₂, hfits, h⟩ := run_bind_eq_ok.mp h
  obtain rfl := reads_forM_fit ids _ _ s₂ hfits
  cases h
  exact ⟨rfl, fun t ht => (List.mem_filter.mp ht).1⟩

theorem found_of_taggedClient {id : Int} {s s' : Store} {found : Option Client}
    (h : (Tagging.client? id).run s = .ok (found, s')) :
    s' = s ∧ ∀ client, found = some client → client.id = id := by
  refine ⟨(reads_taggedClient id s found s' h).symm, ?_⟩
  unfold Tagging.client? at h
  obtain ⟨loaded, s₁, hloaded, h⟩ := run_bind_eq_ok.mp h
  obtain ⟨hfound, rfl, -⟩ := run_load_eq_ok hloaded
  cases loaded with
  | none =>
    cases h
    intro client hclient
    cases hclient
  | some client =>
    obtain ⟨_, s₂, hmemberships, h⟩ := run_bind_eq_ok.mp h
    obtain ⟨_, s₃, htags, h⟩ := run_bind_eq_ok.mp h
    cases h
    intro _ hclient
    cases hclient
    exact Store.id_of_find? hfound.symm

theorem reads_idsOfClient (id : Int) : Reads (Tagging.idsOfClient id) := by
  refine Keeps.bind (reads_taggedClient id) fun client => ?_
  cases client with
  | none => exact Reads.pure _
  | some client => exact Keeps.bind Reads.get fun _ => Reads.pure _

theorem reads_byId? (v : Value) : Reads (Tagging.byId? v) := by
  unfold Tagging.byId?
  split
  · exact Reads.pure _
  · refine Keeps.bind (Reads.lift _) fun ids => ?_
    cases ids with
    | nil => exact Reads.pure _
    | cons id _ => exact reads_load Tag id

theorem reads_candidates (trigger : TriggerKind) (channelId : Int) :
    Reads (Flow.candidates trigger channelId) := by
  refine Keeps.bind (reads_need _) fun _ => Keeps.bind (reads_fit _) fun _ => ?_
  refine Keeps.bind Reads.get fun s => ?_
  dsimp only
  split
  · exact Keeps.bind (reads_need _) fun _ => Reads.pure _
  · exact Keeps.bind (Reads.pure _) fun _ => Reads.pure _

theorem reads_matchingAll (event : Event) : ∀ triggers, Reads (Flow.matchingAll event triggers)
  | [] => Reads.pure _
  | trigger :: rest =>
    Keeps.bind (reads_candidates trigger _) fun _ => Keeps.bind (Reads.lift _) fun _ =>
      Keeps.bind (reads_matchingAll event rest) fun _ => Reads.pure _

theorem reads_matching (event : Event) : Reads (Flow.matching event) := reads_matchingAll event _

theorem reads_loadFlow (id : Int) : Reads (Flow.load? id) := by
  refine Keeps.bind (reads_load Automation id) fun found => ?_
  cases found with
  | none => exact Reads.pure _
  | some a => exact Keeps.bind (reads_need _) fun _ => Keeps.bind Reads.get fun _ => Reads.pure _

/-! ### Writing -/

theorem beside_change (remove : Bool) (clientId : Int) (values : List Value) :
    Keeps Store.Beside (Tagging.change remove clientId values) := by
  refine Keeps.bind (.of_reads (Reads.lift _)) fun ids => ?_
  refine Keeps.bind (.of_reads (reads_taggedClient clientId)) fun client => ?_
  cases client with
  | none => exact .of_reads (Reads.pure _)
  | some client =>
    simp only
    split
    · exact .of_reads (Reads.pure _)
    · refine Keeps.bind (.of_reads (reads_existing ids)) fun tags => ?_
      refine Keeps.bind (fun s a s' h => ?_) fun _ => .of_reads (Reads.pure _)
      cases h
      cases remove <;> exact ⟨⟨rfl, rfl, rfl, rfl, fun _ => rfl⟩, rfl, rfl⟩

theorem aside_addOutgoing (now : Moment) (c : Conversation) (o : Outgoing) :
    Keeps Store.Aside (History.addOutgoing now c o) :=
  Keeps.bind (.of_reads (reads_need _)) fun _ => Keeps.bind (.of_reads (reads_fit? _)) fun _ =>
    Keeps.bind (aside_add_message _) fun _ => .of_reads (Reads.pure _)

/-- A change of tags attaches or detaches those that it tells, which exist. -/
theorem changed_of_change {remove : Bool} {clientId : Int} {values : List Value} {s s' : Store}
    {changed : List Tag} (h : (Tagging.change remove clientId values).run s = .ok (changed, s')) :
    (∀ t ∈ changed, t ∈ s.tags) ∧
      s' = (if remove then Tagging.detached else Tagging.attached) s clientId
        (changed.map Tag.id) := by
  have unchanged : s = (if remove then Tagging.detached else Tagging.attached) s clientId [] := by
    cases remove with
    | false => simp [Tagging.attached]
    | true =>
      have hall : s.memberships.filter (fun _ => true) = s.memberships := by simp
      simp only [Tagging.detached, List.contains_nil, Bool.and_false, Bool.not_false, if_true, hall]
  unfold Tagging.change at h
  obtain ⟨ids, s₁, hids, h⟩ := run_bind_eq_ok.mp h
  obtain ⟨-, rfl⟩ := lift_eq_ok hids
  obtain ⟨client, s₂, hclient, h⟩ := run_bind_eq_ok.mp h
  obtain ⟨rfl, hid⟩ := found_of_taggedClient hclient
  cases client with
  | none =>
    cases h
    exact ⟨by simp, unchanged⟩
  | some client =>
    dsimp only at h
    split at h
    · cases h
      exact ⟨by simp, unchanged⟩
    · obtain ⟨tags, s₃, htags, h⟩ := run_bind_eq_ok.mp h
      cases h
      obtain ⟨rfl, hexist⟩ := found_of_existing htags
      exact ⟨hexist, by rw [hid client rfl]⟩

/-- Finding a tag by its name makes one at most, of a name that no tag has. -/
theorem made_of_resolve {id : Value} {name : Option String} {create : Bool} {s s' : Store}
    {found : Option Tag} (h : (Tagging.resolve id name create).run s = .ok (found, s')) :
    s' = s ∨ ∃ tag added : Tag,
      (∀ t ∈ s.tags, t.name ≠ tag.name) ∧ (add tag).run s = .ok (added, s') := by
  unfold Tagging.resolve at h
  obtain ⟨byId, s₁, hid, h⟩ := run_bind_eq_ok.mp h
  obtain rfl := reads_byId? id s byId s₁ hid
  cases byId with
  | some tag =>
    cases h
    exact .inl rfl
  | none =>
    dsimp only at h
    split at h
    · cases h
      exact .inl rfl
    · unfold Tagging.byName? at h
      obtain ⟨tags, s₂, htags, h⟩ := run_bind_eq_ok.mp h
      obtain ⟨-, rfl, rfl⟩ := run_rows_eq_ok.mp htags
      split at h
      · cases h
        exact .inl rfl
      · rename_i hnone
        split at h
        · obtain ⟨added, s₃, hadd, h⟩ := run_bind_eq_ok.mp h
          cases h
          refine .inr ⟨_, added, fun t ht => ?_, hadd⟩
          simpa using List.find?_eq_none.mp hnone t ht
        · cases h
          exact .inl rfl

/-- An operator is assigned by one change of the conversation. -/
theorem assigned_of_assignOperator {c operatorId : Int} {s s' : Store} {name : String}
    (h : (Thread.assignOperator (.int c) (.int operatorId)).run s = .ok (name, s')) :
    ∃ operator : Option Int → Option Int, s' = s.modify Conversation c fun k =>
      { k with operatorId := operator k.operatorId, status := "open" } := by
  unfold Thread.assignOperator at h
  obtain ⟨id, s₁, hid, h⟩ := run_bind_eq_ok.mp h
  obtain ⟨hid, rfl⟩ := lift_eq_ok hid
  cases hid
  obtain ⟨found, s₂, hfound, h⟩ := run_bind_eq_ok.mp h
  obtain rfl := reads_load Conversation c _ found s₂ hfound
  cases found with
  | none => cases h
  | some k =>
    obtain ⟨op, s₃, hop, h⟩ := run_bind_eq_ok.mp h
    obtain ⟨hop, rfl⟩ := lift_eq_ok hop
    cases hop
    obtain ⟨operator, s₄, hoperator, h⟩ := run_bind_eq_ok.mp h
    obtain rfl := reads_load Operator operatorId _ operator s₄ hoperator
    cases h
    exact ⟨fun old => if operator.isSome then some operatorId else old, rfl⟩

/-- A status is set by one change of the conversation, if it is there. -/
theorem set_of_setStatus {c : Int} {status : String} {s s' : Store} {old : Option String}
    (h : (Thread.setStatus c status).run s = .ok (old, s')) :
    s' = s ∨ s' = s.modify Conversation c fun k => { k with status } := by
  unfold Thread.setStatus at h
  obtain ⟨found, s₁, hfound, h⟩ := run_bind_eq_ok.mp h
  obtain rfl := reads_load Conversation c _ found s₁ hfound
  cases found with
  | none =>
    cases h
    exact .inl rfl
  | some k =>
    cases h
    exact .inr rfl

end Transaction

/-! ## Worlds -/

namespace Rehearsal

/-- The script deletes no row of a table. -/
def Spares (r : Rehearsal) (t : Table) : Prop := ∀ id, Outcome.sentAfterDeleting t id ∉ r.script

end Rehearsal

namespace World

/-- What work that leaves run log and slots alone keeps of a world. -/
structure Aside (w v : World) : Prop where
  runs : w.rehearsal.Spares .automationRuns → v.store.runs = w.store.runs
  /-- No run is added, whatever the script deletes. -/
  remain : v.store.runs.Sublist w.store.runs
  automations : w.rehearsal.Spares .automations → v.store.automations = w.store.automations
  steps : w.rehearsal.Spares .automations → w.rehearsal.Spares .automationSteps →
    v.store.steps = w.store.steps
  absent : v.store.absent = w.store.absent
  threads : w.rehearsal.Spares .conversations → ∀ c,
    (v.store.find? Conversation c).map Conversation.core =
      (w.store.find? Conversation c).map Conversation.core
  /-- A conversation that is there was there before, with the same core. -/
  found : ∀ c k, v.store.find? Conversation c = some k →
    ∃ k₀, w.store.find? Conversation c = some k₀ ∧ k.core = k₀.core
  spares : ∀ t, w.rehearsal.Spares t → v.rehearsal.Spares t
  pauses : v.pauses = w.pauses
  conclusions : v.conclusions = w.conclusions
  memory : v.memory = w.memory
  later : w.reading.units ≤ v.reading.units

instance : Std.Refl Aside :=
  ⟨fun _ => ⟨fun _ => rfl, .refl _, fun _ => rfl, fun _ _ => rfl, rfl, fun _ _ => rfl,
    fun _ k h => ⟨k, h, rfl⟩, fun _ h => h, rfl, rfl, rfl, Int.le_refl _⟩⟩

instance : IsTrans World Aside := ⟨fun _ _ _ h k =>
  { runs := fun hs => (k.runs (h.spares _ hs)).trans (h.runs hs)
    remain := k.remain.trans h.remain
    automations := fun hs => (k.automations (h.spares _ hs)).trans (h.automations hs)
    steps := fun ha hs => (k.steps (h.spares _ ha) (h.spares _ hs)).trans (h.steps ha hs)
    absent := k.absent.trans h.absent
    threads := fun hs c => (k.threads (h.spares _ hs) c).trans (h.threads hs c)
    found := fun c r hr => by
      obtain ⟨r₁, hr₁, e₁⟩ := k.found c r hr
      obtain ⟨r₀, hr₀, e₀⟩ := h.found c r₁ hr₁
      exact ⟨r₀, hr₀, e₁.trans e₀⟩
    spares := fun t hs => k.spares t (h.spares t hs)
    pauses := k.pauses.trans h.pauses
    conclusions := k.conclusions.trans h.conclusions
    memory := k.memory.trans h.memory
    later := Int.le_trans h.later k.later }⟩

variable {w v : World}

/-- What changes neither store nor script, nor the records of pauses and conclusions or what is
remembered, is aside. -/
theorem Aside.of_eq (hs : v.store = w.store) (hr : v.rehearsal = w.rehearsal)
    (hp : v.pauses = w.pauses) (hx : v.conclusions = w.conclusions) (hm : v.memory = w.memory)
    (hc : w.reading.units ≤ v.reading.units) : Aside w v where
  runs _ := by rw [hs]
  remain := hs ▸ .refl _
  automations _ := by rw [hs]
  steps _ _ := by rw [hs]
  absent := by rw [hs]
  threads _ _ := by rw [hs]
  found c k hk := ⟨k, hs ▸ hk, rfl⟩
  spares t h := hr ▸ h
  pauses := hp
  conclusions := hx
  memory := hm
  later := hc

/-- A store that changed aside makes a world that did. -/
theorem Aside.of_store {s : Store} (h : w.store.Aside s) : Aside w { w with store := s } where
  runs _ := h.runs
  remain := h.runs ▸ .refl _
  automations _ := h.automations
  steps _ _ := h.steps
  absent := h.absent
  threads _ := h.threads
  found c k hk := by
    have hc := h.threads c
    rw [show s.find? Conversation c = some k from hk] at hc
    obtain ⟨k₀, hk₀, e⟩ := Option.map_eq_some_iff.mp hc.symm
    exact ⟨k₀, hk₀, e.symm⟩
  spares _ hs := hs
  pauses := rfl
  conclusions := rfl
  memory := rfl
  later := Int.le_refl _

theorem Aside.of_beside {s : Store} (h : w.store.Beside s) : Aside w { w with store := s } :=
  .of_store h.toAside

/-- The deletion of a row that is scripted. -/
theorem Aside.of_delete {r : Rehearsal} {t : Table} {id : Int}
    (hmem : Outcome.sentAfterDeleting t id ∈ w.rehearsal.script)
    (hr : ∀ o ∈ r.script, o ∈ w.rehearsal.script) :
    Aside w { w with store := w.store.deleteRow id t, rehearsal := r } where
  runs hs := by
    cases t with
    | automationRuns => exact absurd hmem (hs id)
    | _ => rfl
  remain := by
    cases t with
    | automationRuns => exact List.filter_sublist
    | _ => exact .refl _
  automations hs := by
    cases t with
    | automations => exact absurd hmem (hs id)
    | _ => rfl
  steps ha hs := by
    cases t with
    | automations => exact absurd hmem (ha id)
    | automationSteps => exact absurd hmem (hs id)
    | _ => rfl
  absent := by cases t <;> rfl
  threads hs c := by
    cases t with
    | conversations => exact absurd hmem (hs id)
    | _ => rfl
  found c k hk := by
    cases t with
    | conversations =>
      refine ⟨k, ?_, rfl⟩
      by_cases hc : c = id
      · rw [hc] at hk
        exact absurd (hk.symm.trans (Store.find?_delete_self w.store id)) (by simp)
      · rw [← Store.find?_delete_ne w.store hc]
        exact hk
    | _ => exact ⟨k, hk, rfl⟩
  spares u hs n hn := hs n (hr _ hn)
  pauses := rfl
  conclusions := rfl
  memory := rfl
  later := Int.le_refl _

end World

namespace Work

open World

variable {α : Type}

theorem aside_transact {t : Moment → Transaction α}
    (h : ∀ now, Transaction.Keeps Store.Aside (t now)) : Keeps Aside (transact t) :=
  Keeps.transact fun w a s hr => Aside.of_store (h w.clock w.store a s hr)

/-! ### Deliveries -/

section

variable {R : World → World → Prop} [Std.Refl R] [IsTrans World R]
  (serves : ∀ (w : World) (sent : List Request) (nextId : Int),
    (∀ r ∈ sent, r.method ∈ Service.sendMethods) →
      R w { w with
        requests := w.requests ++ sent
        service := { w.service with nextId := nextId } })

include serves

theorem keeps_sendRequest {r : Request} (hr : r.method ∈ Service.sendMethods) :
    Keeps R (sendRequest r) := by
  have asks : ∀ w : World, R w { w with requests := w.requests ++ [r] } := fun w =>
    serves w [r] w.service.nextId fun _ h => List.mem_singleton.mp h ▸ hr
  have counts : ∀ (w : World) (nextId : Int),
      R w { w with service := { w.service with nextId := nextId } } := fun w nextId => by
    simpa only [List.append_nil] using serves w [] nextId (List.forall_mem_nil _)
  have requests : Keeps R (request r) := by
    refine Keeps.bind (Keeps.modify asks) fun _ => ?_
    refine Keeps.bind Keeps.get fun w => ?_
    split
    · exact Keeps.throw _
    · exact Keeps.pure _
  exact Keeps.bind requests fun _ => Keeps.bind Keeps.get fun _ =>
    Keeps.bind (Keeps.modify fun w => counts w _) fun _ => Keeps.pure _

theorem keeps_deliverLive (settings : Settings) (d : Delivery) :
    Keeps R (deliverLive settings d) := by
  refine Keeps.bind (Keeps.lift _) fun token => ?_
  cases token with
  | none => exact Keeps.pure _
  | some token =>
    refine Keeps.bind Keeps.get fun w => ?_
    split
    · rename_i hr
      have hmethod := Service.method_of_request? hr
      refine Keeps.bind (Keeps.attempt (keeps_sendRequest serves hmethod)) fun answer => ?_
      split
      · exact Keeps.pure _
      · exact Keeps.pure _
      · exact Keeps.throw _
    · exact Keeps.pure _

/-- What the answer to a delivery keeps, before it is put on record. -/
theorem keeps_answer (rehearses : Keeps R rehearse) (settings : Settings) (d : Delivery)
    (w : World) : R w ((if w.live then deliverLive settings d else rehearse).runOn w).2 := by
  split
  · exact keeps_deliverLive serves settings d w
  · exact rehearses w

end

theorem aside_rehearse : Keeps Aside rehearse := by
  intro w
  simp only [rehearse, runOn_ofFunction, Rehearsal.answer]
  cases hs : w.rehearsal.script with
  | nil => exact ⟨fun _ => rfl, .refl _, fun _ => rfl, fun _ _ => rfl, rfl, fun _ _ => rfl,
      fun _ k hk => ⟨k, hk, rfl⟩, fun t _ => by simp [Rehearsal.Spares, Rehearsal.play, hs],
      rfl, rfl, rfl, Int.le_refl _⟩
  | cons o rest =>
    have spared : ∀ n, ∀ t, w.rehearsal.Spares t → Rehearsal.Spares ⟨rest, n⟩ t :=
      fun _ t h id hid => h id (by rw [hs]; exact List.mem_cons_of_mem _ hid)
    cases o with
    | sentAfterDeleting t id =>
      exact Aside.of_delete (by rw [hs]; exact List.mem_cons_self)
        fun o ho => by rw [hs]; exact List.mem_cons_of_mem _ ho
    | _ =>
      exact ⟨fun _ => rfl, .refl _, fun _ => rfl, fun _ _ => rfl, rfl, fun _ _ => rfl,
        fun _ k hk => ⟨k, hk, rfl⟩, spared _, rfl, rfl, rfl, Int.le_refl _⟩

theorem aside_deliver (settings : Settings) (d : Delivery) : Keeps Aside (deliver settings d) := by
  intro w
  refine IsTrans.trans _ _ _ (keeps_answer ?_ aside_rehearse settings d w)
    (Aside.of_eq rfl rfl rfl rfl rfl (Int.le_refl _))
  exact fun _ _ _ _ => Aside.of_eq rfl rfl rfl rfl rfl (Int.le_refl _)

theorem aside_wait {seconds : Int} (h : 0 ≤ seconds) : Keeps Aside (wait seconds) :=
  Keeps.modify fun w => Aside.of_eq rfl rfl rfl rfl rfl <| by
    have : 0 ≤ seconds * Moment.second := Int.mul_nonneg h (by decide)
    refine w.stopwatch.mono _ _ ?_
    show w.clock.micros ≤ w.clock.micros + seconds * Moment.second
    omega

end Work

end Deskflow
