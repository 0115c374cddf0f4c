import Deskflow.Proofs.HistoryMirror
import Deskflow.Proofs.WebStrangers

/-!
# Acknowledgement

The messaging service sends an update again until it is answered with 200. Whatever goes wrong with
a message or with an edit stops in the inbox. Of a click the action is attempted, and what is left
are the requests that answer it and take its buttons down: where these go wrong they are refused,
and a refusal is passed over at last where the update came in.

What is assumed is that the tables are there, that the credentials of channels can be looked into,
and that the requests which answer a click are refused if they fail. Requests that are made for the
sake of an automation or of a button may break down in any way.

An update comes in by `webhook_handler`, and goes to `handle_client_message`, `handle_client_edit`
or `handle_button_click`.

* `passable_handlePress`: a click is stopped by nothing but a refusal.
* `failing_click`: which methods fail is left alone by what a button does.
* `updates_are_acknowledged`: the result, for every update.
-/

namespace Deskflow

/-- A channel whose credentials can be looked into. -/
def Channel.HasCredentials (c : Channel) : Prop :=
  c.credentials = .null ∨ ∃ fields, c.credentials = .object fields

theorem Channel.HasCredentials.exists_botToken {c : Channel} (h : c.HasCredentials) :
    ∃ token, c.botToken = .ok token := by
  unfold botToken Value.field
  rcases h with h | ⟨fields, h⟩ <;> rw [h]
  · exact ⟨_, rfl⟩
  · split <;> exact ⟨_, rfl⟩

/-- A database that works: every table is there, and the ids of channels are of the size of their
column. -/
structure Store.Works (s : Store) : Prop where
  tables : s.absent = []
  channels : ∀ c ∈ s.channels, Transaction.fits c.id = true

/-! ## What is read -/

namespace Thread

open Transaction

theorem exists_firstWithToken? (token : String) :
    ∀ {channels : List Channel}, (∀ c ∈ channels, c.HasCredentials) →
      ∃ found, firstWithToken? token channels = .ok found ∧ ∀ c, found = some c → c ∈ channels
  | [], _ => ⟨none, rfl, fun _ h => nomatch h⟩
  | c :: rest, h => by
    obtain ⟨own, hown⟩ := (h c List.mem_cons_self).exists_botToken
    obtain ⟨found, hfound, hmem⟩ := exists_firstWithToken? token
      fun c hc => h c (List.mem_cons_of_mem _ hc)
    simp only [firstWithToken?, hown, bind, Except.bind]
    split
    · exact ⟨some c, rfl, fun _ hc => Option.some.inj hc ▸ List.mem_cons_self⟩
    · exact ⟨found, hfound, fun k hk => List.mem_cons_of_mem _ (hmem k hk)⟩

/-- Where the database works, the channel of a bot is found if there is one. -/
theorem run_channelOfToken?_of_works {s : Store} (hs : s.Works)
    (hc : ∀ c ∈ s.channels, c.HasCredentials) (token : String) :
    ∃ found, (channelOfToken? token).run s = .ok (found, s)
      ∧ ∀ c, found = some c → c ∈ s.channels := by
  unfold channelOfToken?
  split
  · exact ⟨none, rfl, fun _ h => nomatch h⟩
  · have hrows : (rows Channel).run s = .ok (s.channels, s) :=
      run_rows_eq_ok.mpr ⟨by simp [hs.tables], rfl, rfl⟩
    have hsub : ∀ c ∈ s.channels.filter (fun c => c.isActive && c.kind == botKind),
        c ∈ s.channels := fun c h => (List.mem_filter.mp h).1
    obtain ⟨found, hfound, hmem⟩ := exists_firstWithToken? token fun c h => hc c (hsub c h)
    exact ⟨found, run_bind_eq_ok.mpr ⟨_, s, run_bind_eq_ok.mpr ⟨_, s, hrows, rfl⟩,
      run_lift_ok hfound s⟩, fun c h => hsub c (hmem c h)⟩

/-- Where the database works, a conversation on a channel is found if there is one. -/
theorem run_find?_of_works {s : Store} (hs : s.Works) {channelId : Int}
    (hid : fits channelId = true) (userId : Int) :
    ∃ found, (find? channelId userId).run s = .ok (found, s) := by
  have hrows : ∀ (ρ : Type) [Row ρ], (rows ρ).run s = .ok (Row.rows s, s) := fun ρ _ =>
    run_rows_eq_ok.mpr ⟨by simp [hs.tables], rfl, rfl⟩
  have hfit : (fit channelId).run s = .ok ((), s) := by rw [run_fit, hid]; rfl
  exact ⟨_, run_bind_eq_ok.mpr ⟨_, s, hrows Conversation, run_bind_eq_ok.mpr ⟨_, s, hrows Client,
    run_bind_eq_ok.mpr ⟨_, s, hfit, rfl⟩⟩⟩⟩

end Thread

/-! ## Which methods fail -/

/-- Worlds in which the same methods fail. -/
def World.SameTroubles (w v : World) : Prop := v.service.failing = w.service.failing

instance : Std.Refl World.SameTroubles := ⟨fun _ => rfl⟩

instance : IsTrans World World.SameTroubles := ⟨fun _ _ _ h k => k.trans h⟩

theorem clickwork_sameTroubles (settings : Settings) (c : Int) :
    Engine.Clickwork settings c World.SameTroubles :=
  .of_service c (fun _ _ _ _ => rfl) fun _ _ _ _ => rfl

/-- Which methods fail is left alone by what a button does. -/
theorem failing_click (settings : Settings) (c : Int) (data : String) :
    Work.Keeps World.SameTroubles (Click.handle settings c data) :=
  Click.keeps_handle (clickwork_sameTroubles settings c) data

/-! ## What is passed over -/

namespace Work

/-- An operation that nothing stops but a refusal by the messaging service. -/
def Passable (w : World) (x : Work Unit) : Prop :=
  ∀ fault, (x.runOn w).1 = .error fault → ∃ message, fault = .refused message

theorem Passable.of_ok {w v : World} {x : Work Unit} (h : x.runOn w = (.ok (), v)) :
    Passable w x := fun fault hf => by
  rw [h] at hf
  cases hf

theorem Passable.bind {α : Type} {w v : World} {x : Work α} {a : α} {f : α → Work Unit}
    (h : x.runOn w = (.ok a, v)) (hf : Passable v (f a)) : Passable w (x >>= f) := by
  intro fault hfault
  rw [runOn_bind, h] at hfault
  exact hf fault hfault

/-- What nothing stops but a refusal, and then more of the kind if it comes to that. -/
theorem Passable.followed {w : World} {x y : Work Unit} (hx : Passable w x)
    (hy : ∀ v, x.runOn w = (.ok (), v) → Passable v y) : Passable w (x >>= fun _ => y) := by
  intro fault hfault
  rw [runOn_bind] at hfault
  rcases hr : x.runOn w with ⟨own | _, v⟩ <;> rw [hr] at hfault
  · exact hx fault (by rw [hr]; exact hfault)
  · exact hy v hr fault hfault

end Work

namespace Inbox

open Work

variable {settings : Settings} {token : String} {w : World}

/-- The methods by which a click is answered and its buttons are taken down. -/
def replyMethods : List String := ["answerCallbackQuery", "editMessageReplyMarkup"]

/-- Where these methods fail, they are refused. -/
def Courteous (w : World) : Prop :=
  ∀ method ∈ replyMethods, ∀ trouble, w.service.failing.lookup method = some trouble →
    ∃ message, trouble = .refused message

theorem Courteous.of_sameTroubles {v : World} (hw : Courteous w) (h : w.SameTroubles v) :
    Courteous v := by
  unfold Courteous
  rw [h]
  exact hw

/-- What is asked for is put on record, whether it fails or not. -/
theorem runOn_request (r : Request) (w : World) :
    (request r).runOn w =
      (match w.service.failing.lookup r.method with
        | some trouble => .error trouble.fault
        | none => .ok (), { w with requests := w.requests ++ [r] }) := by
  change (match w.service.failing.lookup r.method with
    | some trouble => (throw trouble.fault : Work Unit)
    | none => pure ()).runOn { w with requests := w.requests ++ [r] } = _
  split <;> rfl

theorem passable_request (hw : Courteous w) {r : Request} (hr : r.method ∈ replyMethods) :
    Passable w (request r) := by
  intro fault hfault
  rw [runOn_request] at hfault
  rcases hfails : w.service.failing.lookup r.method with _ | trouble <;> rw [hfails] at hfault
  · cases hfault
  · obtain ⟨message, rfl⟩ := hw r.method hr trouble hfails
    cases hfault
    exact ⟨message, rfl⟩

theorem Courteous.requested (hw : Courteous w) {r : Request} {v : World}
    (h : (request r).runOn w = (.ok (), v)) : Courteous v := by
  rw [runOn_request] at h
  obtain rfl := (Prod.ext_iff.mp h).2
  exact hw.of_sameTroubles rfl

theorem passable_answer (hw : Courteous w) (alert : Option String) :
    Passable w (answer token alert) :=
  passable_request hw List.mem_cons_self

/-- What nothing stops but a refusal goes through once refusals are passed over. -/
theorem runOn_passingRefusal {x : Work Unit} (hx : Passable w x) :
    ((passingRefusal x).runOn w).1 = .ok () := by
  unfold passingRefusal
  rw [runOn_bind, run_attempt]
  rcases hr : (x.runOn w).1 with fault | _
  · obtain ⟨message, rfl⟩ := hx fault hr
    rfl
  · rfl

theorem passable_hideButtons (hw : Courteous w) (message : Int × Int) :
    Passable w (hideButtons token message) := by
  have hgoes : ((hideButtons token message).runOn w).1 = .ok () :=
    runOn_passingRefusal (passable_request hw (List.mem_cons_of_mem _ List.mem_cons_self))
  intro fault hfault
  rw [hgoes] at hfault
  cases hfault

/-! ## Updates -/

/-- The answer to a click comes before its buttons are taken down, and stops that if it is
refused. -/
theorem passable_click (hw : Courteous w) (conversationId : Int) (p : Press) (data : String) :
    Passable w (click settings token conversationId p data) := by
  have hlater : Courteous ((Click.handle settings conversationId data).runOn w).2 :=
    hw.of_sameTroubles (failing_click settings conversationId data w)
  refine .bind (run_attempt _ w) ?_
  generalize (Click.handle settings conversationId data).runOn w = out at hlater ⊢
  obtain ⟨fault | result, v⟩ := out
  · exact passable_answer hlater (some apology)
  · refine (passable_answer hlater none).followed fun u hanswer => ?_
    split
    · exact passable_hideButtons (hlater.requested hanswer) _
    · exact .of_ok rfl

theorem runOn_isDuplicate (clickId : String) (w : World) :
    ∃ seen v, (Click.isDuplicate clickId).runOn w = (.ok seen, v) ∧ v.store = w.store
      ∧ w.SameTroubles v := by
  unfold Click.isDuplicate
  split
  · exact ⟨false, w, rfl, rfl, rfl⟩
  · exact ⟨_, _, rfl, rfl, rfl⟩

/-- What the inbox looks up where the database works and credentials can be looked into. -/
theorem runOn_channelOf (hs : w.store.Works) (hc : ∀ c ∈ w.store.channels, c.HasCredentials)
    (token : String) : ∃ found, (channelOf token).runOn w = (.ok found, w)
      ∧ ∀ c, found = some c → c ∈ w.store.channels := by
  obtain ⟨found, hrun, hmem⟩ := Thread.run_channelOfToken?_of_works hs hc token
  exact ⟨found, runOn_query_eq_ok.mpr ⟨w.store, hrun, rfl⟩, hmem⟩

theorem passable_handlePress (hs : w.store.Works) (hc : ∀ c ∈ w.store.channels, c.HasCredentials)
    (hw : Courteous w) (p : Press) : Passable w (handlePress settings token p) := by
  unfold handlePress
  cases p.data.filter (· ≠ "") with
  | none => exact .of_ok rfl
  | some data =>
    obtain ⟨seen, v, hseen, hstore, htroubles⟩ := runOn_isDuplicate p.id w
    rw [← hstore] at hs hc
    have hv : Courteous v := hw.of_sameTroubles htroubles
    refine .bind hseen ?_
    cases seen with
    | true => exact (passable_answer hv none).followed fun _ _ => .of_ok rfl
    | false =>
      obtain ⟨found, hfound, hmem⟩ := runOn_channelOf hs hc token
      refine .bind hfound ?_
      cases found with
      | none => exact passable_answer hv none
      | some channel =>
        obtain ⟨found, hrun⟩ :=
          Thread.run_find?_of_works hs (hs.channels channel (hmem channel rfl)) p.sender.id
        refine .bind (runOn_query_eq_ok.mpr ⟨v.store, hrun, rfl⟩) ?_
        cases found with
        | none => exact passable_answer hv none
        | some conversation => exact passable_click hv conversation.id p data

/-- Whatever an update sets off, nothing stops the inbox but a refusal. -/
theorem passable_handle (hs : w.store.Works) (hc : ∀ c ∈ w.store.channels, c.HasCredentials)
    (hw : Courteous w) (u : Update) : Passable w (handle settings token u) := by
  obtain ⟨found, hfound, -⟩ := runOn_channelOf hs hc token
  cases u with
  | message l =>
    simp only [handle, handleMessage]
    split
    · exact .of_ok rfl
    split
    · split
      · exact .of_ok rfl
      · refine .bind hfound ?_
        cases found with
        | none => exact .of_ok rfl
        | some channel => exact .bind (run_attempt _ w) (.of_ok rfl)
    · exact .of_ok rfl
  | edit l =>
    simp only [handle, handleEdit]
    split
    · exact .of_ok rfl
    split
    · refine .bind hfound ?_
      cases found with
      | none => exact .of_ok rfl
      | some channel => exact .bind (run_attempt _ w) (.of_ok rfl)
    · exact .of_ok rfl
  | press p => exact passable_handlePress hs hc hw p
  | other => exact .of_ok rfl

end Inbox

/-! ## The result -/

namespace Web

open Work

variable {settings : Settings} {v : Web.Visit} {w : World} {token : String}

/-- An update of the expected shape is taken where nothing stops the inbox but a refusal. -/
theorem runOn_takeUpdate {body : Option Value} {u : Update}
    (hread : Update.read (body.getD .null) = .ok u)
    (hu : Passable w (Inbox.handle settings token u)) :
    ((takeUpdate settings token body).runOn w).1 = .ok ⟨200, none⟩ := by
  have hgoes := Inbox.runOn_passingRefusal hu
  unfold takeUpdate
  rw [runOn_bind, runOn_lift, hread]
  dsimp only
  rw [runOn_bind]
  rcases hr : (Inbox.passingRefusal (Inbox.handle settings token u)).runOn w with ⟨_ | _, after⟩ <;>
    rw [hr] at hgoes
  · cases hgoes
  · rfl

/-- With the right secret, what takes the updates for a channel with a bot answers as that does. -/
theorem runOn_deliver_of_taken {channelId : Int} {runtime : Runtime} {r : Reply}
    (hsecret : knowsSecret settings v = true) (hw : w.runtime = some runtime)
    (hbot : runtime.bots.lookup channelId = some token)
    (htaken : ((takeUpdate settings token v.body).runOn w).1 = .ok r) :
    ((Web.deliver settings channelId v).runOn w).1 = .ok r := by
  have hbots : Office.bots.runOn w = (.ok runtime.bots, w) := by
    obtain ⟨before, rfl⟩ : ∃ before : World, w = { before with runtime := some runtime } :=
      ⟨w, by rw [← hw]⟩
    rfl
  unfold Web.deliver
  rw [hsecret, Bool.not_true, if_neg Bool.false_ne_true, runOn_bind, hbots]
  dsimp only
  rw [hbot]
  dsimp only
  rw [runOn_bind, run_attempt]
  dsimp only
  rw [htaken]
  rfl

end Web

open Web in
/-- **Updates are acknowledged**: while the database works, an update of the expected shape that is
posted with the right secret to a channel with a bot is answered with 200, whatever it sets off and
however that ends. -/
theorem updates_are_acknowledged {updatePath : String} {settings : Settings} {v : Web.Visit}
    {w : World} {channelId : Int} {runtime : Runtime} {token : String} {u : Update}
    (posted : v.PostedTo updatePath channelId)
    (secret : settings.webhookSecret = ""
      ∨ v.headers.value? secretHeader = some settings.webhookSecret)
    (running : w.runtime = some runtime) (bot : runtime.bots.lookup channelId = some token)
    (read : Update.read (v.body.getD .null) = .ok u) (works : w.store.Works)
    (credentials : ∀ c ∈ w.store.channels, c.HasCredentials) (refused : Inbox.Courteous w) :
    ((answer updatePath settings v).runOn w).1 = .ok ⟨200, none⟩ := by
  have hsecret : knowsSecret settings v = true := by
    rcases secret with h | h <;> simp [knowsSecret, h]
  have hdelivered : ((deliver settings channelId v).runOn w).1 = .ok ⟨200, none⟩ :=
    runOn_deliver_of_taken hsecret running bot
      (runOn_takeUpdate read (Inbox.passable_handle works credentials refused u))
  rw [runOn_answer_of_posted posted]
  rcases hr : (deliver settings channelId v).runOn w with ⟨_ | _, after⟩ <;> rw [hr] at hdelivered
  · cases hdelivered
  · exact hdelivered

/-! ### A helpline on a bad day -/

/-- A helpline with a button that sends a message, while the messaging service refuses to answer
clicks and breaks down over every message. -/
def helpline : World :=
  { store :=
      { channels := [⟨7, "Line", Thread.botKind, .object [("bot_token", .str "1:a")], .null, true⟩]
        clients := [⟨1, some "tg_5", some "Ada", none, none, .null⟩]
        conversations :=
          [{ id := 3, channelId := 7, clientId := some 1, operatorId := none, status := "open",
             metadata := .object [(chatField, .int 5)], unreadCount := 0, lastMessageAt := none }]
        steps :=
          [{ id := 1, automationId := 1, stepId := "ask", kind := Click.buttonsKind,
             config := .object [("text", .str "Who is it?"),
               ("buttons", .list [.object [("text", .str "Me"), ("action", .str "send_text"),
                 ("action_config", .object [("text", .str "Welcome!")])]])],
             position := .null, order := 0, nextStepId := none, trueStepId := none,
             falseStepId := none }] }
    service :=
      { failing := [("answerCallbackQuery", .refused "query is too old"),
          ("sendMessage", .broken "no connection")] }
    live := true
    runtime := some { bots := [(7, "1:a")], running := true, ready := true } }

/-- Ada clicks the button. -/
def tap : Web.Visit :=
  { method := "POST"
    path := "/webhook/7"
    body := some (.object [("update_id", .int 1), ("callback_query", .object
      [("id", .str "9"), ("chat_instance", .str "c"), ("data", .str "ask:0"),
        ("from", .object [("id", .int 5), ("is_bot", .bool false),
          ("first_name", .str "Ada")])])]) }

/-- The action of the button is stopped by a fault, the apology for that is refused, and the update
is acknowledged all the same. -/
theorem updates_are_acknowledged_helpline :
    ((Click.handle {} 3 "ask:0").runOn helpline).1 = .error (.delivery "no connection")
      ∧ ((Web.answer "/webhook" {} tap).runOn helpline).1 = .ok ⟨200, none⟩ := by
  have hread : Update.read (tap.body.getD .null) = .ok (.press
      { id := "9", sender := { id := 5, isBot := false, firstName := "Ada" }
        data := some "ask:0", message := none }) := by decide +kernel
  have hcredentials : ∀ c ∈ helpline.store.channels, c.HasCredentials := fun c hc =>
    .inr (List.mem_singleton.mp hc ▸ ⟨_, rfl⟩)
  have hrefused : Inbox.Courteous helpline := by
    intro method hmethod trouble hfails
    simp only [Inbox.replyMethods, List.mem_cons, List.not_mem_nil, or_false] at hmethod
    rcases hmethod with rfl | rfl
    · exact ⟨_, (Option.some.inj hfails).symm⟩
    · cases hfails
  have hposted : tap.PostedTo "/webhook" 7 := ⟨rfl, "7", by decide +kernel⟩
  refine ⟨by decide +kernel, ?_⟩
  exact updates_are_acknowledged hposted (.inl rfl) rfl rfl hread ⟨rfl, by decide⟩ hcredentials
    hrefused

end Deskflow
