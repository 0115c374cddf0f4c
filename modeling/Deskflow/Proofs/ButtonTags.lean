import Deskflow.Proofs.TagTargets

/-!
# Buttons and steps that change tags

A button and a step change tags by the same settings, a list of ids and a single one. A step takes
both together. A button takes the single one only where the list is empty, so that they come apart
where a list is given and the single id would do something more.

A list is refused as a whole if an infinite number is in it or an id that no column can hold. What
is refused changes nothing; so a single id that is refused costs a step its list as well, but not a
button.

Buttons do this in `execute_action`, and steps by `_add_tag` and `_remove_tag`.

* `mem_carriedAfter`, `carriedAfter_eq_iff`: what comes of a list of values, and where two lists
  come to the same.
* `carried_relabel`: that is what becomes of the tags that are named.
* `Click.carried_act`, `carried_carryOut`: what buttons and steps name.
* `agrees_exactly`: the result.
-/

namespace Deskflow

namespace Value

/-- A list of values is accepted: no infinite number is in it, and every id that it names can be
held by a column. -/
structure Accepted (values : List Value) : Prop where
  finite : ∀ v ∈ values, v.toInt ≠ .error .infiniteNumber
  held : ∀ id ∈ ids values, Transaction.fits id = true

theorem accepted_append {values others : List Value} :
    Accepted (values ++ others) ↔ Accepted values ∧ Accepted others := by
  constructor
  · intro h
    exact ⟨⟨fun v hv => h.finite v (List.mem_append_left _ hv),
        fun id hid => h.held id (mem_ids_append.mpr (.inl hid))⟩,
      ⟨fun v hv => h.finite v (List.mem_append_right _ hv),
        fun id hid => h.held id (mem_ids_append.mpr (.inr hid))⟩⟩
  · rintro ⟨h, k⟩
    exact ⟨fun v hv => (List.mem_append.mp hv).elim (h.finite v) (k.finite v),
      fun id hid => (mem_ids_append.mp hid).elim (h.held id) (k.held id)⟩

/-- No infinite number is in a list that is read. -/
theorem finite_of_addDistinctIds {values : List Value} {known out : List Int}
    (h : addDistinctIds values known = .ok out) :
    ∀ v ∈ values, v.toInt ≠ .error .infiniteNumber := by
  induction values generalizing known with
  | nil => simp
  | cons v values ih =>
    obtain ⟨r, hr, h⟩ := Fault.bind_eq_ok.mp h
    refine List.forall_mem_cons.mpr ⟨fun hv => ?_, ?_⟩
    · rw [toInt?, hv] at hr
      cases hr
    · cases r with
      | none => exact ih h
      | some n => exact ih h

/-- A list is accepted where it is read and the ids in it can be held. -/
theorem accepted_iff {values : List Value} :
    Accepted values ↔ ∃ out, distinctIds values = .ok out ∧ out.all Transaction.fits = true := by
  constructor
  · rintro ⟨hfinite, hheld⟩
    obtain ⟨out, hout⟩ := exists_distinctIds hfinite
    exact ⟨out, hout, List.all_eq_true.mpr fun id hid => hheld id ((mem_distinctIds hout).mp hid)⟩
  · rintro ⟨out, hout, hheld⟩
    exact ⟨finite_of_addDistinctIds hout, fun id hid =>
      List.all_eq_true.mp hheld id ((mem_distinctIds hout).mpr hid)⟩

/-- A value that does not count as given is not refused. -/
theorem accepted_of_not_isGiven {v : Value} (h : v.isGiven = false) : Accepted [v] where
  finite := by simpa using (toInt_of_not_isGiven h).1
  held := by simp [ids_of_not_isGiven h]

theorem accepted_nil : Accepted [] where
  finite := by simp
  held := by simp [mem_ids]

end Value

/-! ## What comes of a list of values -/

namespace Store

/-- The ids of tags that a list of values reaches: none if the list is refused. -/
def reach (s : Store) (values : List Value) : Set Int :=
  {id | Value.Accepted values ∧ id ∈ Value.ids values ∧ id ∈ s.tagIds}

/-- What a client carries once tags are attached, or with `remove` detached, by a list of values. -/
def carriedAfter (s : Store) (remove : Bool) (n : Int) (values : List Value) : Set Int :=
  if remove then (s.carried n : Set Int) \ s.reach values
  else (s.carried n : Set Int) ∪ s.reach values

/-- A tag is attached already, or with `remove` detached. -/
def Settled (s : Store) (remove : Bool) (n id : Int) : Prop := id ∈ s.carried n ↔ remove = false

instance (s : Store) (remove : Bool) (n id : Int) : Decidable (s.Settled remove n id) :=
  inferInstanceAs (Decidable (_ ↔ _))

variable {s : Store} {remove : Bool} {n id : Int} {values others : List Value}

/-- A list makes no difference to what is settled, and changes the rest that it reaches. -/
theorem mem_carriedAfter : id ∈ s.carriedAfter remove n values ↔
    if s.Settled remove n id then remove = false else (id ∈ s.reach values ↔ remove = false) := by
  unfold carriedAfter Settled
  cases remove
  · by_cases hid : id ∈ s.carried n <;> simp [hid]
  · by_cases hid : id ∈ s.carried n <;> simp [hid]

/-- **Where two lists come to the same**: they reach the same, but for what is settled. -/
theorem carriedAfter_eq_iff : s.carriedAfter remove n values = s.carriedAfter remove n others ↔
    ∀ id, s.Settled remove n id ∨ (id ∈ s.reach values ↔ id ∈ s.reach others) := by
  rw [Set.ext_iff]
  refine forall_congr' fun id => ?_
  rw [mem_carriedAfter, mem_carriedAfter]
  by_cases hsettled : s.Settled remove n id
  · simp [hsettled]
  · simp only [hsettled, if_false, false_or]
    cases remove
    · simp
    · simp [not_iff_not]

theorem reach_nil : s.reach [] = ∅ := by
  simp [reach, Value.mem_ids]

/-- Where nothing is reached, nothing changes; -/
theorem carriedAfter_of_reach (h : s.reach values = ∅) :
    s.carriedAfter remove n values = s.carried n := by
  rw [carriedAfter, h]
  simp

/-- so a list that is refused changes nothing. -/
theorem carriedAfter_of_not_accepted (h : ¬Value.Accepted values) :
    s.carriedAfter remove n values = s.carried n :=
  carriedAfter_of_reach (Set.eq_empty_iff_forall_notMem.mpr fun _ hid => h hid.1)

/-- What another value changes after a list: nothing if the list is refused, what it reaches itself
and the list does not, or, if it is refused, what the list does. -/
theorem carriedAfter_append_iff {one : Value} :
    s.carriedAfter remove n values = s.carriedAfter remove n (values ++ [one]) ↔
      ¬Value.Accepted values
      ∨ (Value.Accepted [one] ∧ ∀ id ∈ Value.ids [one], id ∈ s.tagIds →
          id ∈ Value.ids values ∨ s.Settled remove n id)
      ∨ (¬Value.Accepted [one] ∧ ∀ id ∈ Value.ids values, id ∈ s.tagIds →
          s.Settled remove n id) := by
  rw [carriedAfter_eq_iff]
  simp only [reach, Set.mem_ofPred_eq, Value.accepted_append, Value.mem_ids_append]
  by_cases hvalues : Value.Accepted values
  · by_cases hone : Value.Accepted [one]
    · simp only [hvalues, hone, true_and, and_true, not_true, false_or, false_and, or_false]
      refine forall_congr' fun id => ?_
      tauto
    · simp only [hvalues, hone, true_and, false_and, and_false, not_true, not_false_iff, false_or,
        iff_false]
      refine forall_congr' fun id => ?_
      tauto
  · simp [hvalues]

end Store

/-- A change of tags by a list that is refused fails. -/
theorem Tagging.AtHand.exists_refusal {s : Store} {client : Client}
    (ready : Tagging.AtHand s client.id) (hclient : s.find? Client client.id = some client)
    (remove : Bool) {values : List Value} (h : ¬Value.Accepted values) :
    ∃ fault, (Tagging.change remove client.id values).run s = .error fault := by
  cases hids : distinctIds values with
  | error fault =>
    exact ⟨fault, Transaction.run_bind_of_error (Transaction.run_lift_error hids s)⟩
  | ok ids =>
    have hheld : ¬ids.all Transaction.fits = true := fun hheld =>
      h (Value.accepted_iff.mpr ⟨ids, hids, hheld⟩)
    exact ⟨_, (ready.run_change hclient hids).trans (if_neg hheld)⟩

/-! ## What buttons and steps name -/

/-- The values that name the tags of a button: those of its list, or if there are none, the single
one. -/
def buttonValues (config : Record) : List Value :=
  if (config.getD "tag_ids").listItems = [] then [config.getD "tag_id"]
  else (config.getD "tag_ids").listItems

namespace Engine

open Work

/-- A step with these settings, read and carried out. -/
def carryOut (settings : Settings) (onTags : TagHandler) (ctx : Context) (owner : String)
    (head : StepHead) (kind : String) (config : Record) : Work Progress := do
  runAction settings onTags ctx owner head (← StepAction.parse kind config)

variable {w : World} {remove : Bool} {config : Record} {client : Client} {thread : Thread}

/-- **What becomes of the tags that are named**, whether the list is refused or not. -/
theorem carried_relabel (remove : Bool) (k : Conversation) (values : List Value)
    (table : w.store.absent.contains .messages = false) (ready : Tagging.AtHand w.store client.id)
    (hclient : w.store.find? Client client.id = some client) :
    (((relabel k client.id (tagEvent remove) values).runOn w).2.store.carried client.id : Set Int)
      = w.store.carriedAfter remove client.id values := by
  by_cases h : Value.Accepted values
  · obtain ⟨ids, hids, hheld⟩ := Value.accepted_iff.mp h
    obtain ⟨v, hrelabel, hlabels⟩ := runOn_relabel remove (k := k) table ready hclient hids hheld
    rw [hrelabel, hlabels.carried]
    ext id
    rw [Finset.mem_coe, Store.mem_carried_retagged, Store.mem_map_tagsAmong, mem_distinctIds hids,
      Store.carriedAfter]
    cases remove <;> simp [Store.reach, h]
  · obtain ⟨fault, hchange⟩ := ready.exists_refusal hclient remove h
    have hrelabel : (relabel k client.id (tagEvent remove) values).runOn w = (.error fault, w) := by
      unfold relabel
      rw [tagEvent_eq_tagRemoved, runOn_bind, query, run_transact, hchange]
    rw [hrelabel, Store.carriedAfter_of_not_accepted h]

/-- The values of a step are accepted where its ids are read and can be held. -/
theorem accepted_namingValues_iff : Value.Accepted (namingValues config) ↔
    ∃ ids, tagIdsIn config = .ok ids ∧ ids.all Transaction.fits = true := by
  have hread : (∃ ids, tagIdsIn config = .ok ids ∧ ids.all Transaction.fits = true) ↔
      Value.Accepted ((config.getD "tag_ids").listItems
        ++ if (config.getD "tag_id").isLeftOut then [] else [config.getD "tag_id"]) :=
    Value.accepted_iff.symm
  rw [hread, namingValues, Value.accepted_append, Value.accepted_append]
  refine and_congr_right fun _ => ?_
  split
  · rename_i hleft
    exact iff_of_true (Value.accepted_of_not_isGiven (Value.not_isGiven_of_isLeftOut hleft))
      Value.accepted_nil
  · exact Iff.rfl

/-- The tags that the ids of a step reach, named by their own ids, are those that its settings
reach. -/
theorem reach_tagsAmong {s : Store} {ids : List Int} (read : tagIdsIn config = .ok ids)
    (held : ids.all Transaction.fits = true) :
    s.reach (((s.tagsAmong ids).map Tag.id).map Value.int) = s.reach (namingValues config) := by
  have named : TagTargets.NamedBy ⟨ids, (config.getD "tag_name").trimmedText?⟩ config := ⟨read, rfl⟩
  have hmem (id : Int) : id ∈ Value.ids (((s.tagsAmong ids).map Tag.id).map Value.int) ↔
      id ∈ Value.ids (namingValues config) ∧ id ∈ s.tagIds := by
    have hids : id ∈ Value.ids (((s.tagsAmong ids).map Tag.id).map Value.int) ↔
        0 < id ∧ id ∈ (s.tagsAmong ids).map Tag.id := by
      rw [Value.mem_ids]
      simp
    rw [hids, Store.mem_map_tagsAmong, ← named.mem_ids, ← and_assoc]
    exact and_congr_left' (and_iff_right_of_imp fun hid => (named.mem_ids.mp hid).1)
  have haccepted : Value.Accepted (namingValues config) :=
    accepted_namingValues_iff.mpr ⟨ids, read, held⟩
  have haccepted' : Value.Accepted (((s.tagsAmong ids).map Tag.id).map Value.int) :=
    ⟨by simp, fun id hid => haccepted.held id ((hmem id).mp hid).1⟩
  ext id
  simp only [Store.reach, Set.mem_ofPred_eq, haccepted, haccepted', hmem, true_and, and_assoc,
    and_self]

/-- **What a step makes of the tags of a client**, if it has no name to fall back to. -/
theorem carried_retag {ctx : Context} {targets : TagTargets} (remove : Bool)
    (tables : w.store.absent = [])
    (loaded : (query (Thread.load? ctx.conversationId)).runOn w = (.ok (some thread), w))
    (hclient : thread.client = some client) (named : targets.NamedBy config)
    (unnamed : (config.getD "tag_name").trimmedText? = none) :
    (((retag ctx (tagEvent remove) targets).runOn w).2.store.carried client.id : Set Int)
      = w.store.carriedAfter remove client.id (namingValues config) := by
  obtain ⟨hid, hfound, ready⟩ := client_of_loadThread loaded hclient
  have there (t : Table) : w.store.absent.contains t = false := by simp [tables]
  have hname : targets.name = none := named.name.trans unnamed
  rw [retag_eq_relabel, runOn_bind_ok (runOn_threadOf loaded)]
  dsimp only
  rw [hid]
  dsimp only
  rw [tagEvent_eq_tagRemoved]
  by_cases held : targets.ids.all Transaction.fits = true
  · have htargeted : w.store.targeted targets = w.store.tagsAmong targets.ids := by
      unfold Store.targeted
      split
      · rename_i hnone
        simp [hnone, hname]
      · rfl
    have hmade : w.store.made? (!remove) targets = none := by simp [Store.made?, hname]
    have hlooked := runOn_targetTags (w := w) (!remove) (there .tags) named held
    rw [hmade, htargeted, Store.coined_none, Option.toList_none, List.append_nil] at hlooked
    rw [runOn_bind_ok hlooked]
    have hreach := reach_tagsAmong (s := w.store) named.read held
    split
    · rename_i hempty
      rw [List.isEmpty_iff.mp hempty] at hreach
      rw [Store.carriedAfter_of_reach (hreach ▸ Store.reach_nil)]
      rfl
    · rw [snd_runOn_returning, carried_relabel remove _ _ (there .messages) ready hfound,
        Store.carriedAfter, Store.carriedAfter, hreach]
  · have hrefused : ¬Value.Accepted (namingValues config) := by
      rintro haccepted
      obtain ⟨ids, hids, hheld⟩ := accepted_namingValues_iff.mp haccepted
      cases hids.symm.trans named.read
      exact held hheld
    have hlooked : (targetTags targets (!remove)).runOn w = (.error .integerRange, w) := by
      unfold targetTags
      rw [runOn_bind, (runOn_tagsOfIds (there .tags) named).trans (if_neg held)]
    rw [runOn_bind, hlooked, Store.carriedAfter_of_not_accepted hrefused]

/-- What a step makes of the tags of a client when it is read from its settings and carried out, if
what becomes of it as an event leaves them alone. -/
theorem carried_carryOut (settings : Settings) {onTags : TagHandler} {ctx : Context}
    (owner : String) (head : StepHead) (remove : Bool) (tables : w.store.absent = [])
    (loaded : (query (Thread.load? ctx.conversationId)).runOn w = (.ok (some thread), w))
    (hclient : thread.client = some client)
    (unnamed : (config.getD "tag_name").trimmedText? = none)
    (idle : ∀ kind c channel ids u,
      ((onTags kind c channel ids).runOn u).2.store.carried client.id
        = u.store.carried client.id) :
    (((carryOut settings onTags ctx owner head (deed remove) config).runOn w).2.store.carried
      client.id : Set Int) = w.store.carriedAfter remove client.id (namingValues config) := by
  unfold carryOut
  rw [runOn_bind, runOn_lift]
  cases parsed : StepAction.parse (deed remove) config with
  | error fault =>
    have hrefused : ¬Value.Accepted (namingValues config) := fun haccepted => by
      obtain ⟨ids, hids, -⟩ := accepted_namingValues_iff.mp haccepted
      have htargets : tagTargetsIn config = .ok ⟨ids, (config.getD "tag_name").trimmedText?⟩ := by
        rw [tagTargetsIn, hids]
        rfl
      cases remove <;>
        simp [StepAction.parse, deed, htargets, bind, Except.bind, pure, Except.pure] at parsed
    rw [Store.carriedAfter_of_not_accepted hrefused]
  | ok action =>
    obtain ⟨targets, named, haction⟩ := runAction_of_parse parsed
    have hretag := carried_retag remove tables loaded hclient named unnamed
    dsimp only
    rw [haction, snd_runOn_returning, changeTags_eq_retag, runOn_bind]
    rcases hr : (retag ctx (tagEvent remove) targets).runOn w with ⟨fault | _ | e, v⟩ <;>
      rw [hr] at hretag
    · exact hretag
    · exact hretag
    · dsimp only
      rw [idle]
      exact hretag

end Engine

namespace Click

open Work Engine

variable {w : World} {remove : Bool} {config : Record} {client : Client} {thread : Thread} {c : Int}

/-- The values that a button reads. -/
theorem tagValues_of_list (hlist : config.getD "tag_ids" = .null
      ∨ ∃ items, config.getD "tag_ids" = .list items) :
    ∃ values, tagValues config = .ok values
      ∧ ∀ s : Store, s.reach values = s.reach (buttonValues config) := by
  -- Without a list the single value counts if it is given, and reaches nothing otherwise.
  have alone (h : (config.getD "tag_ids").isGiven = false)
      (hnone : (config.getD "tag_ids").listItems = []) : ∃ values, tagValues config = .ok values
        ∧ ∀ s : Store, s.reach values = s.reach (buttonValues config) := by
    refine ⟨_, by rw [tagValues, if_neg (by simp [h])], fun s => ?_⟩
    rw [buttonValues, if_pos hnone]
    split
    · rfl
    · rename_i hone
      have hone : Value.ids [config.getD "tag_id"] = ∅ :=
        Value.ids_of_not_isGiven (by simpa using hone)
      rw [Store.reach_nil, Store.reach, hone]
      simp
  rcases hlist with hnull | ⟨items, hitems⟩
  · exact alone (by rw [hnull]; rfl) (by rw [hnull]; rfl)
  · cases items with
    | nil => exact alone (by rw [hitems]; rfl) (by rw [hitems]; rfl)
    | cons v items =>
      refine ⟨v :: items, ?_, fun s => ?_⟩
      · rw [tagValues, hitems]
        rfl
      · rw [buttonValues, hitems]
        rfl

/-- **What a button makes of the tags of a client.** -/
theorem carried_act (settings : Settings) (remove : Bool) {chat : Int}
    (tables : w.store.absent = [])
    (loaded : (query (Thread.load? c)).runOn w = (.ok (some thread), w))
    (hclient : thread.client = some client) (hchat : thread.conversation.chatId = .ok (some chat))
    (hlist : config.getD "tag_ids" = .null ∨ ∃ items, config.getD "tag_ids" = .list items) :
    (((act settings thread (deed remove) config).runOn w).2.store.carried client.id : Set Int)
      = w.store.carriedAfter remove client.id (buttonValues config) := by
  obtain ⟨hid, hfound, ready⟩ := client_of_loadThread loaded hclient
  obtain ⟨values, hvalues, hreach⟩ := tagValues_of_list hlist
  have hact : (act settings thread (deed remove) config).runOn w
      = (changeTags (tagEvent remove) thread config).runOn w := by
    unfold act
    rw [runOn_bind, runOn_lift, hchat]
    cases remove <;> rfl
  rw [hact, changeTags_eq_relabel, hid]
  dsimp only
  rw [runOn_bind, runOn_lift, hvalues]
  dsimp only
  rw [snd_runOn_returning, carried_relabel remove _ _ (by simp [tables]) ready hfound,
    Store.carriedAfter, Store.carriedAfter, hreach]

end Click

/-! ## The result -/

namespace Engine

open Work

/-- A button and a step with these settings, in a conversation with a client, come to these tags of
the client in two worlds: -/
structure Concord (remove : Bool) (config : Record) (n : Int) (s clicked stepped : Store) :
    Prop where
  /-- the button goes by the list, or if that is empty by the single value, -/
  click : (clicked.carried n : Set Int) = s.carriedAfter remove n (buttonValues config)
  /-- and the step by both. -/
  step : (stepped.carried n : Set Int) = s.carriedAfter remove n (namingValues config)
  /-- They agree where the list is empty or refused, or else the single value adds nothing that is
  not settled, or is refused where nothing is left to the list. -/
  agree : clicked.carried n = stepped.carried n ↔
    let many := (config.getD "tag_ids").listItems
    let one := [config.getD "tag_id"]
    many = [] ∨ ¬Value.Accepted many
      ∨ (Value.Accepted one ∧ ∀ id ∈ Value.ids one, id ∈ s.tagIds →
          id ∈ Value.ids many ∨ s.Settled remove n id)
      ∨ (¬Value.Accepted one ∧ ∀ id ∈ Value.ids many, id ∈ s.tagIds → s.Settled remove n id)

/-- **Where a button and a step with the same settings agree**, and what they come to: in any store,
for a list of any values and a single value of any kind. -/
theorem agrees_exactly (settings : Settings) {onTags : TagHandler} {ctx : Context} (owner : String)
    (head : StepHead) (remove : Bool) {config : Record} {w : World} {thread : Thread}
    {client : Client} {chat : Int} (tables : w.store.absent = [])
    (loaded : (query (Thread.load? ctx.conversationId)).runOn w = (.ok (some thread), w))
    (hclient : thread.client = some client) (hchat : thread.conversation.chatId = .ok (some chat))
    (hlist : config.getD "tag_ids" = .null ∨ ∃ items, config.getD "tag_ids" = .list items)
    (unnamed : (config.getD "tag_name").trimmedText? = none)
    (idle : ∀ kind c channel ids u,
      ((onTags kind c channel ids).runOn u).2.store.carried client.id
        = u.store.carried client.id) :
    Concord remove config client.id w.store
      ((Click.act settings thread (deed remove) config).runOn w).2.store
      ((carryOut settings onTags ctx owner head (deed remove) config).runOn w).2.store := by
  have hclick := Click.carried_act settings remove tables loaded hclient hchat hlist
  have hstep := carried_carryOut settings owner head remove tables loaded hclient unnamed idle
  refine ⟨hclick, hstep, ?_⟩
  rw [← Finset.coe_inj, hclick, hstep]
  unfold buttonValues namingValues
  split
  · rename_i hnone
    simp [hnone]
  · rename_i hsome
    rw [Store.carriedAfter_append_iff]
    simp [hsome]

/-! ### A pool with a swimmer -/

/-- A swimmer at the pool, in a conversation with a chat. -/
def swimmer : Thread :=
  { conversation :=
      { id := 1, channelId := 1, clientId := some 1, operatorId := none, status := "open",
        metadata := .object [("telegram_chat_id", .int 7)], unreadCount := 0,
        lastMessageAt := none }
    client := some ⟨1, none, some "Eva", none, none, .null⟩
    channel := none }

/-- A pool with two tags. -/
def pool : World :=
  { store :=
      { tags := [⟨5, "swimmer", none⟩, ⟨6, "diver", none⟩]
        clients := [⟨1, none, some "Eva", none, none, .null⟩]
        conversations := [swimmer.conversation] } }

/-- Eva clicks a button with these settings. -/
def clickedAt (config : Record) : World :=
  ((Click.act {} swimmer (deed false) config).runOn pool).2

/-- A step with these settings is carried out for Eva. -/
def steppedAt (config : Record) : World :=
  ((carryOut {} quiet ⟨1, 1, 1⟩ "s1" { stepId := "s1", kind := "add_tag" } (deed false)
    config).runOn pool).2

/-- A list with one id, and an id that no tag has. -/
def lap : Record := [("tag_ids", .list [.str " 5 ", .null]), ("tag_id", .int 9)]

/-- Where the single id is that of no tag, it is all the same that a button does not look at it. -/
theorem agrees_exactly_pool :
    Concord false lap 1 pool.store (clickedAt lap).store (steppedAt lap).store
      ∧ (clickedAt lap).store.carried 1 = {5} ∧ (steppedAt lap).store.carried 1 = {5} := by
  have hloaded : (query (Thread.load? 1)).runOn pool = (.ok (some swimmer), pool) := rfl
  have hchat : swimmer.conversation.chatId = .ok (some 7) := by decide +kernel
  have hunnamed : (lap.getD "tag_name").trimmedText? = none := by decide +kernel
  have hlist : lap.getD "tag_ids" = .list [.str " 5 ", .null] := by decide +kernel
  have hconcord : Concord false lap 1 pool.store (clickedAt lap).store (steppedAt lap).store :=
    @agrees_exactly {} quiet ⟨1, 1, 1⟩ "s1" { stepId := "s1", kind := "add_tag" } false lap pool
      swimmer ⟨1, none, some "Eva", none, none, .null⟩ 7 rfl hloaded rfl hchat
      (.inr ⟨_, hlist⟩) hunnamed fun _ _ _ _ _ => rfl
  exact ⟨hconcord, by decide +kernel, by decide +kernel⟩

/-- **A button and a step do not always agree**: with a list that names one tag and a single id of
another, the button attaches the one and the step both. -/
theorem not_always_agree :
    let config : Record := [("tag_ids", .list [.int 5]), ("tag_id", .int 6)]
    (clickedAt config).store.carried 1 = {5} ∧ (steppedAt config).store.carried 1 = {5, 6} := by
  constructor <;> decide +kernel

end Engine

end Deskflow
