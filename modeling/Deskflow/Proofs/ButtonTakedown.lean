import Deskflow.Proofs.UpdateAcknowledgement

/-!
# Taking buttons down

Once the action of a button was attempted, the click is answered, and only then the buttons under
its message are taken down. A refusal of the second request is passed over. A failure of the first
is not: it goes through to where the update came in, and what is left of the click is dropped. The
buttons then stay where they are, although the click that used them counts as seen.

Which requests are made of the messaging service is read off the record of the world. The action
adds requests that send messages (`World.OnlySends`), the click adds its own after these.

The order of the requests is that of `handle_button_click`.

* `onlySends_click`: what a button asks for.
* `requests_runOn_click`: what the click asks for after that.
* `taken_down_exactly`: the result, for every click that counts and every set of failing methods.
* `not_always_taken_down`: buttons that stay, and are clicked again.
-/

namespace Deskflow

/-! ## What a button asks for -/

/-- Between these worlds the messaging service was asked to send messages, and nothing else. -/
def World.OnlySends (w v : World) : Prop :=
  ∃ sent, (∀ r ∈ sent, r.method ∈ Service.sendMethods) ∧ v.requests = w.requests ++ sent

namespace World.OnlySends

theorem of_eq {w v : World} (h : v.requests = w.requests) : OnlySends w v :=
  ⟨[], List.forall_mem_nil _, by rw [h, List.append_nil]⟩

instance : Std.Refl OnlySends := ⟨fun _ => of_eq rfl⟩

instance : IsTrans World OnlySends := ⟨by
  rintro u v w ⟨sent, hsent, hv⟩ ⟨more, hmore, hw⟩
  refine ⟨sent ++ more, fun r hr => ?_, by rw [hw, hv, List.append_assoc]⟩
  exact (List.mem_append.mp hr).elim (hsent r) (hmore r)⟩

end World.OnlySends

/-- Whatever a button does, it asks for nothing but messages. -/
theorem onlySends_click (settings : Settings) (c : Int) (data : String) :
    Work.Keeps World.OnlySends (Click.handle settings c data) :=
  Click.keeps_handle
    (.of_service c (fun _ _ _ _ => .of_eq rfl) fun _ sent _ hsent => ⟨sent, hsent, rfl⟩) data

namespace Inbox

open Work

variable {settings : Settings} {token : String} {w u : World} {p : Press} {message : Int × Int}
  {data : String} {conversation : Conversation} {result : Click.Result}

/-! ## What a click asks for -/

/-- The request that answers a click. -/
def reply (token : String) : Request := { method := "answerCallbackQuery", token }

/-- The request that takes the buttons under a message down. -/
def takedown (token : String) (message : Int × Int) : Request :=
  { method := "editMessageReplyMarkup"
    token
    parameters := [("chat_id", .int message.1), ("message_id", .int message.2)] }

/-- The click is answered. -/
def Answers (w : World) : Prop := w.service.failing.lookup "answerCallbackQuery" = none

instance (w : World) : Decidable (Answers w) := inferInstanceAs (Decidable (_ = none))

theorem Answers.of_sameTroubles {v : World} (h : w.SameTroubles v) : Answers v ↔ Answers w := by
  unfold Answers
  rw [h]

/-- That the buttons are to be taken down is put to the service, whatever the answer is. -/
theorem snd_runOn_hideButtons (token : String) (message : Int × Int) (w : World) :
    ((hideButtons token message).runOn w).2
      = { w with requests := w.requests ++ [takedown token message] } := by
  have hrequest := congrArg Prod.snd (runOn_request (takedown token message) w)
  have hattempt : (hideButtons token message).runOn w
      = (passingRefusal (request (takedown token message))).runOn w := rfl
  rw [hattempt, passingRefusal, runOn_bind, run_attempt]
  dsimp only at hrequest ⊢
  split
  all_goals exact hrequest

/-- What a click asks for after its action: an answer, and if that is given, that the buttons be
taken down. -/
theorem requests_runOn_click (hmessage : p.message = some message)
    (acted : (Click.handle settings conversation.id data).runOn w = (.ok result, u)) :
    ((click settings token conversation.id p data).runOn w).2.requests
      = u.requests ++ reply token ::
          if result.hideButtons ∧ Answers u then [takedown token message] else [] := by
  have hanswer : (answer token none).runOn u = _ := runOn_request (reply token) u
  unfold click
  rw [runOn_bind, run_attempt, acted]
  dsimp only
  rw [runOn_bind, hanswer, hmessage]
  rcases hfails : u.service.failing.lookup (reply token).method with _ | trouble
  · have hanswers : Answers u := hfails
    rcases hhides : result.hideButtons with _ | _
    · simp
    · dsimp only
      rw [snd_runOn_hideButtons]
      simp [hanswers]
  · have hanswers : ¬Answers u := fun h => Option.some_ne_none trouble (hfails.symm.trans h)
    simp [hanswers]

/-! ## The result -/

/-- A click that counts: it was not seen before, the message that its button stands under is within
reach, and the client who clicked has a conversation on the channel of the bot. -/
structure Counts (token : String) (w : World) (p : Press) (message : Int × Int) (data : String)
    (conversation : Conversation) : Prop where
  fresh : ((Click.isDuplicate p.id).runOn w).1 = .ok false
  carried : p.data = some data
  filled : data ≠ ""
  reachable : p.message = some message
  thread : ∃ channel, (Thread.channelOfToken? token).run w.store = .ok (some channel, w.store)
    ∧ (Thread.find? channel.id p.sender.id).run w.store = .ok (some conversation, w.store)

theorem requests_isDuplicate (id : String) (w : World) :
    ((Click.isDuplicate id).runOn w).2.requests = w.requests := by
  unfold Click.isDuplicate
  split <;> rfl

/-- A click that counts is handled in its conversation, and is seen from then on. -/
theorem Counts.runOn_handle (h : Counts token w p message data conversation) :
    (handle settings token (.press p)).runOn w
      = (click settings token conversation.id p data).runOn
          ((Click.isDuplicate p.id).runOn w).2 := by
  obtain ⟨channel, hchannel, hthread⟩ := h.thread
  obtain ⟨seen, v, hseen, hstore, -⟩ := runOn_isDuplicate p.id w
  obtain rfl : seen = false := by
    have hfresh := h.fresh
    rw [hseen] at hfresh
    exact Except.ok.inj hfresh
  rw [← hstore] at hchannel hthread
  have hfilter : p.data.filter (· ≠ "") = some data := by
    rw [h.carried, Option.filter_some, if_pos (by simpa using h.filled)]
  have hfound : (channelOf token).runOn v = (.ok (some channel), v) :=
    runOn_query_eq_ok.mpr ⟨v.store, hchannel, rfl⟩
  have hloaded : (query (Thread.find? channel.id p.sender.id)).runOn v
      = (.ok (some conversation), v) :=
    runOn_query_eq_ok.mpr ⟨v.store, hthread, rfl⟩
  have hdone : handle settings token (.press p) = handlePress settings token p := rfl
  rw [hdone, handlePress, hfilter]
  dsimp only
  rw [runOn_bind, hseen]
  dsimp only
  rw [if_neg Bool.false_ne_true, runOn_bind, hfound]
  dsimp only
  rw [runOn_bind, hloaded]

end Inbox

open Inbox in
/-- **When clicked buttons are taken down**: of a click that counts, whose action comes to an end,
that is asked for if the action wants it and the click can be answered, and not otherwise, whatever
fails besides. -/
theorem taken_down_exactly {settings : Settings} {token : String} {w u : World} {p : Press}
    {message : Int × Int} {data : String} {conversation : Conversation} {result : Click.Result}
    (counts : Counts token w p message data conversation)
    (acted : (Click.handle settings conversation.id data).runOn
      ((Click.isDuplicate p.id).runOn w).2 = (.ok result, u)) :
    ∃ sent, (∀ r ∈ sent, r.method ∈ Service.sendMethods)
      ∧ ((Inbox.handle settings token (.press p)).runOn w).2.requests
        = w.requests ++ sent ++ reply token ::
            if result.hideButtons ∧ Answers w then [takedown token message] else [] := by
  obtain ⟨seen, v, hseen, -, htroubles⟩ := runOn_isDuplicate p.id w
  have hrequests := requests_isDuplicate p.id w
  rw [counts.runOn_handle, requests_runOn_click counts.reachable acted]
  rw [hseen] at acted hrequests
  obtain ⟨sent, hsent, hu⟩ := Work.Keeps.of_runOn (onlySends_click settings _ data) acted
  have hsame : v.SameTroubles u := Work.Keeps.of_runOn (failing_click settings _ data) acted
  have hanswers : Answers u ↔ Answers w :=
    (Answers.of_sameTroubles hsame).trans (Answers.of_sameTroubles htroubles)
  refine ⟨sent, hsent, ?_⟩
  simp only [hanswers]
  rw [hu, hrequests]

/-! ### A helpline that is slow -/

/-- The helpline with nothing wrong but that some methods are refused. -/
def helplineRefusing (methods : List String) : World :=
  { helpline with service := { failing := methods.map fun m => (m, .refused "too late") } }

/-- Ada's conversation. -/
def adas : Conversation :=
  { id := 3, channelId := 7, clientId := some 1, operatorId := none, status := "open",
    metadata := .object [(chatField, .int 5)], unreadCount := 0, lastMessageAt := none }

/-- Ada clicks the button under a message that is within reach. -/
def touch (id : String) : Press :=
  { id, sender := { id := 5, isBot := false, firstName := "Ada" }, data := some "ask:0"
    message := some (5, 40) }

theorem counts_touch (methods : List String) (id : String) (hid : id ≠ "") :
    Inbox.Counts "1:a" (helplineRefusing methods) (touch id) (5, 40) "ask:0" adas where
  fresh := by
    rw [Click.isDuplicate]
    exact if_neg hid ▸ rfl
  carried := rfl
  filled := by decide
  reachable := rfl
  thread := by
    have hchannel : (Thread.channelOfToken? "1:a").run helpline.store
        = .ok (helpline.store.channels.head?, helpline.store) := by decide +kernel
    have hthread : (Thread.find? 7 5).run helpline.store = .ok (some adas, helpline.store) := by
      decide +kernel
    exact ⟨_, hchannel, hthread⟩

/-- Messages are not edited any more. -/
def afterHours : World := helplineRefusing ["editMessageReplyMarkup"]

/-- Clicks are not answered any more. -/
def rushHour : World := helplineRefusing ["answerCallbackQuery"]

open Inbox in
/-- That the button be taken down is asked for, although it is refused. -/
theorem taken_down_exactly_helpline :
    Counts "1:a" afterHours (touch "9") (5, 40) "ask:0" adas
      ∧ ∃ sent, ((handle {} "1:a" (.press (touch "9"))).runOn afterHours).2.requests
        = sent ++ [reply "1:a", takedown "1:a" (5, 40)] := by
  have hcounts : Counts "1:a" afterHours (touch "9") (5, 40) "ask:0" adas :=
    counts_touch _ "9" (by decide)
  have hdone : ((Click.handle {} adas.id "ask:0").runOn
      ((Click.isDuplicate (touch "9").id).runOn afterHours).2).1 = .ok ⟨true, true⟩ := by
    decide +kernel
  obtain ⟨u, acted⟩ : ∃ u, (Click.handle {} adas.id "ask:0").runOn
      ((Click.isDuplicate (touch "9").id).runOn afterHours).2 = (.ok ⟨true, true⟩, u) :=
    ⟨_, Prod.ext hdone rfl⟩
  have hanswers : Answers afterHours := by decide +kernel
  obtain ⟨sent, -, hrequests⟩ := taken_down_exactly hcounts acted
  rw [if_pos ⟨rfl, hanswers⟩] at hrequests
  exact ⟨hcounts, _, hrequests⟩

open Inbox in
/-- **Clicked buttons are not always taken down**: where the answer to a click is refused, Ada's
message is sent, its button stays, and with the next click the message is sent again. -/
theorem not_always_taken_down :
    let v := ((handle {} "1:a" (.press (touch "9"))).runOn rushHour).2
    let u := ((handle {} "1:a" (.press (touch "10"))).runOn v).2
    Counts "1:a" rushHour (touch "9") (5, 40) "ask:0" adas
      ∧ ((Click.handle {} adas.id "ask:0").runOn
          ((Click.isDuplicate "9").runOn rushHour).2).1 = .ok ⟨true, true⟩
      ∧ v.requests.map Request.method = ["sendMessage", "answerCallbackQuery"]
      ∧ u.requests.map Request.method
        = ["sendMessage", "answerCallbackQuery", "sendMessage", "answerCallbackQuery"] := by
  refine ⟨counts_touch _ "9" (by decide), ?_, ?_, ?_⟩
  all_goals decide +kernel

end Deskflow
