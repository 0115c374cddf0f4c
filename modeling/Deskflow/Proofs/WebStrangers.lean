import Deskflow.Front.Web

/-!
# What strangers are told

Who carries no administrator's token is a stranger. What a stranger is told by the web interface is
the same whatever the tables hold, and asking leaves them alone: every place looks at the token
before it looks at the tables, and what it says without the token comes from the settings and the
runtime. An update whose secret is wrong is turned away before the desk looks at anything at all.

The token is looked at by `_require_admin`, and the secret by `webhook_handler`.

* `Headers.isAdmin_iff_carries`: who is let in, told by the headers.
* `runOn_answer_of_posted`: where an update goes that is posted to a channel.
* `strangers_are_told_nothing`: both facts, for every stranger.
-/

namespace Deskflow

namespace Headers

/-- Headers that carry a token: the first authorization is a bearer's with this token; or it is no
bearer's, and the first header for the token alone holds it, blanks around it aside. -/
def Carries (h : Headers) (token : String) : Prop :=
  (∃ authorization scheme, h.value? "authorization" = some authorization
      ∧ Text.words authorization = [scheme, token] ∧ Text.lower scheme = "bearer")
    ∨ ((∀ authorization scheme other, h.value? "authorization" = some authorization →
          Text.words authorization = [scheme, other] → Text.lower scheme ≠ "bearer")
        ∧ ∃ value, h.value? "x-admin-token" = some value ∧ value ≠ "" ∧ Text.trim value = token)

theorem bearer?_eq_some {authorization token : String} :
    bearer? authorization = some token ↔
      ∃ scheme, Text.words authorization = [scheme, token] ∧ Text.lower scheme = "bearer" := by
  unfold bearer?
  constructor
  · intro h
    split at h
    next scheme other hwords =>
      obtain ⟨hscheme, hother⟩ := Option.ite_none_right_eq_some.mp h
      exact ⟨scheme, Option.some.inj hother ▸ hwords, hscheme⟩
    next => cases h
  · rintro ⟨scheme, hwords, hscheme⟩
    simp [hwords, hscheme]

theorem ownToken?_eq_some {h : Headers} {token : String} :
    h.ownToken? = some token ↔
      ∃ value, h.value? "x-admin-token" = some value ∧ value ≠ "" ∧ Text.trim value = token := by
  unfold ownToken?
  split
  next value hvalue => simp [hvalue]
  next hvalue => simp [hvalue]

theorem token?_eq_some {h : Headers} {token : String} :
    h.token? = some token ↔ h.Carries token := by
  have hsome : ∀ t, (h.value? "authorization").bind bearer? = some t ↔
      ∃ authorization scheme, h.value? "authorization" = some authorization
        ∧ Text.words authorization = [scheme, t] ∧ Text.lower scheme = "bearer" := by
    intro t
    simp only [Option.bind_eq_some_iff, bearer?_eq_some, exists_and_left]
  have hnone : (h.value? "authorization").bind bearer? = none ↔
      ∀ authorization scheme other, h.value? "authorization" = some authorization →
        Text.words authorization = [scheme, other] → Text.lower scheme ≠ "bearer" := by
    rw [Option.eq_none_iff_forall_ne_some]
    simp only [ne_eq, hsome, not_exists, not_and]
    exact ⟨fun h a s t => h t a s, fun h t a s => h a s t⟩
  rw [Carries, ← hsome, ← hnone, ← ownToken?_eq_some]
  unfold token?
  cases (h.value? "authorization").bind bearer? <;> simp

/-- Who is let in. -/
theorem isAdmin_iff_carries {h : Headers} {settings : Settings} :
    h.isAdmin settings = true ↔
      Text.trim settings.adminToken ≠ "" ∧ h.Carries (Text.trim settings.adminToken) := by
  rw [isAdmin_iff, token?_eq_some]

end Headers

namespace Work

variable {α β : Type}

/-- An operation that neither sees nor changes the store of a world, and comes to a result without
changing anything else. -/
def Blindfold (w : World) (x : Work α) : Prop :=
  ∃ a, ∀ store, x.runOn { w with store } = (.ok a, { w with store })

theorem Blindfold.returning {w : World} (a : α) : Blindfold w (pure a : Work α) :=
  ⟨a, fun _ => rfl⟩

theorem Blindfold.bind {w : World} {x : Work α} {f : α → Work β} (hx : Blindfold w x)
    (hf : ∀ a, Blindfold w (f a)) : Blindfold w (x >>= f) := by
  obtain ⟨a, ha⟩ := hx
  obtain ⟨b, hb⟩ := hf a
  exact ⟨b, fun store => by rw [runOn_bind, ha store]; exact hb store⟩

theorem Blindfold.attempt {w : World} {x : Work α} (hx : Blindfold w x) :
    Blindfold w (Work.attempt x) := by
  obtain ⟨a, ha⟩ := hx
  exact ⟨.ok a, fun store => by rw [run_attempt, ha store]⟩

theorem blindfold_isRunning (w : World) : Blindfold w Office.isRunning :=
  ⟨w.runtime.any Runtime.running, fun _ => rfl⟩

end Work

namespace Web

open Work

variable {settings : Settings} {v : Visit} {w : World}

/-! ## Places that look at the token -/

theorem blindfold_forAdmin (hv : v.headers.isAdmin settings = false) (answer : Work Reply) :
    Blindfold w (forAdmin settings v answer) := by
  have : forAdmin settings v answer = pure (complaint 403 "admin token required") := by
    simp [forAdmin, hv]
  exact this ▸ .returning _

theorem blindfold_health (hv : v.headers.isAdmin settings = false) :
    Blindfold w (health settings v) := by
  simp only [health, hv, Bool.false_and]
  exact (blindfold_isRunning w).bind fun _ => ⟨_, fun _ => rfl⟩

theorem blindfold_status (hv : v.headers.isAdmin settings = false) :
    Blindfold w (status settings v) := by
  have : status settings v = pure ⟨403, none⟩ := by simp [status, hv]
  exact this ▸ .returning _

theorem blindfold_welcome : Blindfold w welcome :=
  (blindfold_isRunning w).bind fun _ => .returning _

/-- Whatever a place does for a stranger who is not an update, it does blindfold. -/
theorem blindfold_answerAt (hv : v.headers.isAdmin settings = false)
    {parameters : List (String × String)} {place : Place} (hplace : "POST" ∉ place.methods)
    {work : Work Reply} (h : answerAt settings parameters v place = some work) :
    Blindfold w work := by
  cases place with
  | webhook id => exact absurd (List.mem_singleton.mpr rfl) hplace
  | runs id =>
    simp only [answerAt, bind, Option.bind_eq_some_iff] at h
    obtain ⟨_, _, _, _, _, _, hwork⟩ := h
    exact Option.some.inj hwork ▸ blindfold_forAdmin hv _
  | run id =>
    simp only [answerAt, bind, Option.bind_eq_some_iff] at h
    obtain ⟨_, _, hwork⟩ := h
    exact Option.some.inj hwork ▸ blindfold_forAdmin hv _
  | health => exact Option.some.inj h ▸ blindfold_health hv
  | status => exact Option.some.inj h ▸ blindfold_status hv
  | welcome => exact Option.some.inj h ▸ blindfold_welcome
  | manual => exact Option.some.inj h ▸ .returning _

/-- A place is visited by one kind of method only: no place that takes what is posted is visited in
another way. -/
theorem not_mem_methods_of_contains {place : Place} (h : place.methods.contains v.method = true)
    (hmethod : v.method ≠ "POST") : "POST" ∉ place.methods := by
  cases place with
  | webhook id =>
    simp only [Place.methods, List.contains_eq_mem, List.mem_singleton, decide_eq_true_eq] at h
    exact absurd h hmethod
  | _ => simp [Place.methods]

theorem blindfold_answer (hv : v.headers.isAdmin settings = false) (hmethod : v.method ≠ "POST")
    (updatePath : String) : Blindfold w (answer updatePath settings v) := by
  rcases hsplit : splitAddress v.path with ⟨path, parameters⟩
  simp only [answer, hsplit]
  cases choose? v.method (placesOf updatePath path) with
  | none => exact .returning _
  | some place =>
    cases hcontains : place.methods.contains v.method with
    | false => simpa only [hcontains] using .returning _
    | true =>
      simp only [hcontains, Bool.not_true, Bool.false_eq_true, if_false]
      cases hwork : answerAt settings parameters v place with
      | none => exact .returning _
      | some work =>
        have hblind : Blindfold w work :=
          blindfold_answerAt hv (not_mem_methods_of_contains hcontains hmethod) hwork
        exact hblind.attempt.bind fun r => by cases r <;> exact .returning _

/-! ## Updates -/

/-- A visit that posts an update to a channel: its path continues the one for updates by one part,
which is the number of the channel. -/
def Visit.PostedTo (v : Visit) (updatePath : String) (channelId : Int) : Prop :=
  v.method = "POST" ∧ ∃ part, (splitAddress v.path).1 = updatePath ++ "/" ++ part
    ∧ part ≠ "" ∧ '/' ∉ part.toList ∧ number? part = some channelId

theorem partAfter?_append {front part : String} (hpart : part ≠ "") (hslash : '/' ∉ part.toList) :
    partAfter? front (front ++ "/" ++ part) = some part := by
  have hne : part.toList ≠ [] := fun h => hpart (String.toList_eq_nil_iff.mp h)
  simp [partAfter?, hne, hslash]

/-- A visit that posts an update to a channel is answered by what takes the updates of the channel;
if that is stopped by a fault, the answer is 500. -/
theorem runOn_answer_of_posted {updatePath : String} {channelId : Int}
    (hv : v.PostedTo updatePath channelId) :
    (answer updatePath settings v).runOn w =
      match (deliver settings channelId v).runOn w with
      | (.ok r, after) => (.ok r, after)
      | (.error _, after) => (.ok ⟨500, none⟩, after) := by
  obtain ⟨hmethod, part, hpath, hpart, hslash, hnumber⟩ := hv
  rcases hsplit : splitAddress v.path with ⟨path, parameters⟩
  obtain rfl : path = updatePath ++ "/" ++ part := by rw [← hpath, hsplit]
  have hchoose : choose? "POST" (placesOf updatePath (updatePath ++ "/" ++ part))
      = some (.webhook part) := by
    simp [placesOf, partAfter?_append hpart hslash, choose?, Place.methods]
  have hwork : answerAt settings parameters v (.webhook part)
      = some (deliver settings channelId v) := by
    simp [answerAt, hnumber]
  have hpost : (Place.webhook part).methods.contains "POST" = true := rfl
  simp only [answer, hsplit, hmethod, hchoose, hwork, hpost, Bool.not_true, Bool.false_eq_true,
    if_false]
  rw [runOn_bind, run_attempt]
  rcases (deliver settings channelId v).runOn w with ⟨_ | _, _⟩ <;> rfl

theorem knowsSecret_eq_false (hsecret : settings.webhookSecret ≠ "")
    (hv : v.headers.value? secretHeader ≠ some settings.webhookSecret) :
    knowsSecret settings v = false := by
  have hvalue : (v.headers.value? secretHeader).getD "" ≠ settings.webhookSecret := by
    cases hvalue : v.headers.value? secretHeader with
    | none => exact hsecret.symm
    | some value => exact fun h => hv (hvalue.trans (congrArg some h))
  simp [knowsSecret, hsecret, hvalue]

end Web

open Work Web in
/-- A visit other than a posted one, by who does not carry the token of the settings or while the
settings have none, is answered in the same way whatever the tables hold, and changes nothing. If
the settings have a secret for updates, one that is posted to a channel without it is answered with
401, and changes nothing either: no request is made to the messaging service. -/
theorem strangers_are_told_nothing (updatePath : String) (settings : Settings) (v : Web.Visit)
    (w : World) :
    (v.method ≠ "POST" →
      (Text.trim settings.adminToken ≠ "" → ¬ v.headers.Carries (Text.trim settings.adminToken)) →
        ∃ r, ∀ store, (answer updatePath settings v).runOn { w with store }
          = (.ok r, { w with store }))
    ∧ ∀ channelId, v.PostedTo updatePath channelId → settings.webhookSecret ≠ "" →
        v.headers.value? secretHeader ≠ some settings.webhookSecret →
          (answer updatePath settings v).runOn w = (.ok ⟨401, none⟩, w) := by
  refine ⟨fun hmethod hstranger => ?_, fun channelId hposted hsecret hv => ?_⟩
  · have hadmin : v.headers.isAdmin settings = false := by
      rw [Bool.eq_false_iff, ne_eq, Headers.isAdmin_iff_carries]
      exact fun ⟨hblank, hcarries⟩ => hstranger hblank hcarries
    exact blindfold_answer hadmin hmethod updatePath
  · rw [runOn_answer_of_posted hposted,
      runOn_deliver_of_wrongSecret channelId w (knowsSecret_eq_false hsecret hv)]

/-- Settings with a token for administrators and a secret for updates. -/
def locked : Settings := { adminToken := " key ", webhookSecret := "secret" }

/-- A visit to one run, by who offers another token than the one of the settings. -/
def passerby : Web.Visit :=
  { method := "GET", path := "/api/runs/1", headers := [("Authorization", "Bearer other")] }

/-- An update without a secret, for the channel 7. -/
def forgery : Web.Visit := { method := "POST", path := "/webhook/7" }

theorem strangers_are_told_nothing_place :
    (∃ r, ∀ store, (Web.answer "/webhook" locked passerby).runOn { store } = (.ok r, { store }))
      ∧ (Web.answer "/webhook" locked forgery).runOn {} = (.ok ⟨401, none⟩, {}) := by
  have hstranger : ¬ passerby.headers.Carries (Text.trim locked.adminToken) := by
    rw [← Headers.token?_eq_some]
    decide +kernel
  have hposted : forgery.PostedTo "/webhook" 7 := ⟨rfl, "7", by decide +kernel⟩
  exact ⟨(strangers_are_told_nothing "/webhook" locked passerby {}).1 (by decide)
      fun _ => hstranger,
    (strangers_are_told_nothing "/webhook" locked forgery {}).2 7 hposted (by decide)
      (by decide +kernel)⟩

end Deskflow
