import Deskflow.Proofs.DispatchRoster

/-!
# Where the guard does not reach

A run that a tag event sets off is carried out with the guard up, so that nothing comes of the
changes of tags that it makes. A suspension outlives the event. Whoever goes on from it finds the
guard as it is between events, which is down, whatever set off the automation: so a run that is gone
on from can set off others, the runs of tag automations not excepted. It does so exactly if it comes
to a change of tags that is an event for an automation that is not passed over (`Provokes`).

The guard is put up by `_on_tags_changed`, and who goes on from a suspension is `_resume`.

* `grew_dispatchWith_quiet`: which events open runs.
* `grew_runBeats`: when runs are opened along the way of a run.
* `resume_eq_some`: what a run is that goes on.
* `guard_reaches`: the result.
-/

namespace Deskflow

/-- A later world has runs on its log that an earlier one had not. -/
def World.Grew (w v : World) : Prop := v.store.openings ≠ w.store.openings

namespace World

variable {u v w : World}

/-- Where no run is opened none is there. -/
theorem not_grew (h : Engine.OpensOnly (fun _ => False) w v) (k : Extends w v)
    (hs : w.rehearsal.Spares .automationRuns) : ¬Grew w v := by
  obtain ⟨opened, hopens, hnone⟩ := h
  obtain rfl : opened = [] := List.eq_nil_iff_forall_not_mem.mpr hnone
  rw [Opens, List.append_nil] at hopens
  exact not_not_intro ((k hs).2.eq_of_length_le hopens.length_le).symm

theorem not_grew_of_aside (h : Aside w v) (hs : w.rehearsal.Spares .automationRuns) : ¬Grew w v :=
  not_grew (.of_aside h) (.of_aside h) hs

/-- Runs are opened on the way if they are on one of its two halves. -/
theorem grew_trans (h : Extends u v) (k : Extends v w) (hs : u.rehearsal.Spares .automationRuns) :
    Grew u w ↔ Grew u v ∨ Grew v w := by
  unfold Grew
  constructor
  · intro hgrew
    by_contra hnot
    rw [not_or, not_not, not_not] at hnot
    exact hgrew (hnot.2.trans hnot.1)
  · intro hgrew heq
    have huv : u.store.openings <+: v.store.openings := (h hs).2
    have hvw : v.store.openings <+: w.store.openings := (k (h hs).1).2
    have hv : u.store.openings = v.store.openings :=
      huv.eq_of_length_le (heq ▸ hvw.length_le)
    rcases hgrew with hgrew | hgrew
    · exact hgrew hv.symm
    · exact hgrew (heq.trans hv)

end World

namespace Engine

open Work World

variable {settings : Settings} {onTags : TagHandler} {event : Event} {c : Int} {u v w m : World}

/-! ## Events of which nothing more comes -/

section

variable (handled : ∀ kind c channel tags, Work.Keeps Extends (onTags kind c channel tags))

include handled

theorem extends_fireAll (event : Event) (flows : List Flow) :
    Work.Keeps Extends (fireAll settings onTags event flows) :=
  keeps_fireAll (fun _ _ _ => .of_openings rfl rfl) flows
    fun flow _ => extends_execute handled flow _ _ _

/-- Where a conversation is there, an execution opens a run. -/
theorem grew_execute (serves : Serves c w) (hs : w.rehearsal.Spares .automationRuns) {flow : Flow}
    (hid : Transaction.fits flow.automation.id = true) (data : Value)
    (instead : Option (List Step)) :
    Grew w ((execute settings onTags flow c data instead).runOn w).2 := by
  obtain ⟨thread, loaded, hk, hclient⟩ := serves.loads
  have hconv : Transaction.fits thread.conversation.id = true := by
    obtain ⟨_, _, hc, _⟩ := serves.there
    rwa [show thread.conversation.id = c from Store.id_of_find? hk]
  obtain ⟨id, s, opened⟩ : ∃ id s, (RunLog.openRun w.clock flow.automation.id
      thread.conversation.id thread.conversation.clientId data).run w.store = .ok (id, s) :=
    ⟨_, _, RunLog.run_openRun (by simp [serves.tables]) hid hconv hclient⟩
  have hopened : Extends w { w with store := s } := fun hs =>
    ⟨hs, openings_of_openRun opened ▸ List.prefix_append _ _⟩
  refine (grew_trans hopened (extends_of_opened handled loaded opened) hs).mpr (.inl fun heq => ?_)
  have := congrArg List.length ((openings_of_openRun opened).symm.trans heq)
  simp at this

end

/-- Who is passed over is told by the firings before the event, also at a turn after others. -/
theorem passesOver_congr (hkind : event.kind.isTagEvent = true) {automationId : Int}
    (h : Recalls settings (firingKey automationId event) w m) :
    PassesOver settings event w.memory.firings m.reading automationId
      ↔ PassesOver settings event m.memory.firings m.reading automationId :=
  (passesOver_iff hkind h).trans (passesOver_iff hkind (Std.Refl.refl m)).symm

/-- A flow that is due for a tag event opens a run. -/
theorem grew_fire (hkind : event.kind.isTagEvent = true) (serves : Serves event.conversationId w)
    (hs : w.rehearsal.Spares .automationRuns) {flow : Flow}
    (hid : Transaction.fits flow.automation.id = true)
    (due : ¬PassesOver settings event w.memory.firings w.reading flow.automation.id) :
    Grew w ((fire settings quiet event flow).runOn w).2 := by
  obtain ⟨fired, firings, hfired, hiff, -⟩ :=
    runOn_recentlyFired_iff settings flow.automation.id event w
  rw [← passesOver_iff hkind (Std.Refl.refl w)] at hiff
  rw [fire, if_pos hkind, runOn_bind, hfired]
  cases fired with
  | true => exact absurd (hiff.mp rfl) due
  | false =>
    let m : World := { w with memory := { w.memory with firings, tagGuard := true } }
    have hm : Serves event.conversationId m := serves.of_places (unlogged_places.remembers w _)
    have hgrew : Grew m ((execute settings quiet flow event.conversationId
        (.object event.triggerData) none).runOn m).2 := grew_execute keeps_quiet hm hs hid _ none
    exact hgrew

/-- Flows are gone through up to a fault. -/
theorem snd_runOn_fireAll_cons (event : Event) (flow : Flow) (rest : List Flow) (w : World) :
    ((fireAll settings onTags event (flow :: rest)).runOn w).2 =
      match (fire settings onTags event flow).runOn w with
      | (.ok _, m) => ((fireAll settings onTags event rest).runOn m).2
      | (.error _, m) => m := by
  rw [fireAll, runOn_bind]
  rcases (fire settings onTags event flow).runOn w with ⟨fault | id?, m⟩
  · rfl
  · exact snd_runOn_returning _ _ m

/-- Flows for a tag event open runs exactly if one of them is not passed over. -/
theorem grew_fireAll (hkind : event.kind.isTagEvent = true) :
    ∀ {flows : List Flow} {w : World}, Serves event.conversationId w →
      w.rehearsal.Spares .automationRuns →
      (∀ f ∈ flows, Transaction.fits f.automation.id = true) →
      (Grew w ((fireAll settings quiet event flows).runOn w).2
        ↔ ∃ f ∈ flows, ¬PassesOver settings event w.memory.firings w.reading f.automation.id)
  | [], w, _, _, _ => by simp [Grew, fireAll]
  | flow :: rest, w, serves, hs, hids => by
    rw [snd_runOn_fireAll_cons, List.exists_mem_cons_iff]
    by_cases hover : PassesOver settings event w.memory.firings w.reading flow.automation.id
    · -- Being passed over takes no time and leaves the firings of all automations as they were.
      obtain ⟨fired, firings, hfired, hiff, hrecalls⟩ :=
        runOn_recentlyFired_iff settings flow.automation.id event w
      rw [← passesOver_iff hkind (Std.Refl.refl w)] at hiff
      obtain rfl : fired = true := hiff.mpr hover
      rw [fire, if_pos hkind, runOn_bind, hfired]
      let m : World := { w with memory := { w.memory with firings } }
      have hm : Serves event.conversationId m := serves.of_places (unlogged_places.remembers w _)
      have hrest := grew_fireAll hkind hm hs fun f hf => hids f (List.mem_cons_of_mem flow hf)
      have hsame : ∀ f : Flow,
          PassesOver settings event w.memory.firings w.reading f.automation.id
            ↔ PassesOver settings event m.memory.firings m.reading f.automation.id := fun f =>
        passesOver_congr hkind (hrecalls (firingKey f.automation.id event) fun _ => rfl)
      rw [or_iff_right (not_not_intro hover)]
      simp only [hsame]
      exact hrest
    · refine iff_of_true ?_ (.inl hover)
      have hgrew := grew_fire hkind serves hs (hids flow List.mem_cons_self) hover
      have hextends : Extends w ((fire settings quiet event flow).runOn w).2 :=
        keeps_fire (fun _ _ _ => .of_openings rfl rfl) (extends_execute keeps_quiet flow _ _ _) w
      rcases hf : (fire settings quiet event flow).runOn w with ⟨fault | id?, m⟩ <;>
        rw [hf] at hgrew hextends
      · exact hgrew
      · exact (grew_trans hextends (extends_fireAll keeps_quiet event rest m) hs).mpr (.inl hgrew)

/-- **A tag event opens runs** exactly if it finds the flow of an automation that is not passed
over. -/
theorem grew_dispatchWith_quiet (hkind : event.kind.isTagEvent = true)
    (serves : Serves event.conversationId w) (hs : w.rehearsal.Spares .automationRuns)
    (hids : ∀ a ∈ w.store.automations, Transaction.fits a.id = true) :
    Grew w ((dispatchWith settings quiet event).runOn w).2
      ↔ ∃ flows, (Flow.matching event).run w.store = .ok (flows, w.store)
        ∧ ∃ f ∈ flows, ¬PassesOver settings event w.memory.firings w.reading f.automation.id := by
  cases hm : (Flow.matching event).run w.store with
  | error fault =>
    rw [runOn_dispatchWith_of_error hm]
    simp [Grew]
  | ok p =>
    obtain ⟨flows, s⟩ := p
    obtain ⟨rfl, -⟩ := Flow.matching_eq_ok hm
    have hflows : ∀ f ∈ flows, Transaction.fits f.automation.id = true := fun f hf =>
      hids _ ((Flow.mem_matching hm f).mp hf).1.1
    unfold dispatchWith
    rw [runOn_bind, query, run_transact, hm]
    dsimp only
    rw [grew_fireAll hkind serves hs hflows]
    simp

/-! ## Along the way of a run -/

/-- The change of tags that a beat is about. -/
def Beat.change? (b : Beat) : Option (EventKind × TagTargets) :=
  match b.action with
  | some (.addTag targets) => some (.tagAdded, targets)
  | some (.removeTag targets) => some (.tagRemoved, targets)
  | _ => none

theorem playBeat_of_change (onTags : TagHandler) (ctx : Context) {b : Beat} {kind : EventKind}
    {targets : TagTargets} (h : b.change? = some (kind, targets)) :
    playBeat settings onTags ctx b
      = (do changeTags onTags ctx kind targets; return .goesOn : Work Progress) := by
  unfold Beat.change? at h
  unfold playBeat
  split at h <;> cases h <;> simp only [*] <;> rfl

theorem isTagEvent_of_change {b : Beat} {kind : EventKind} {targets : TagTargets}
    (h : b.change? = some (kind, targets)) : kind.isTagEvent = true := by
  unfold Beat.change? at h
  split at h <;> cases h <;> rfl

/-- A beat that changes no tags does not ask the handler. -/
theorem playBeat_of_no_change (h k : TagHandler) (ctx : Context) {b : Beat}
    (hb : b.change? = none) : playBeat settings h ctx b = playBeat settings k ctx b := by
  unfold Beat.change? at hb
  unfold playBeat
  cases haction : b.action with
  | none => rfl
  | some action =>
    rw [haction] at hb
    refine runAction_of_other ctx b.owner b.head (fun targets ht => ?_) (fun targets ht => ?_) h k
    · rw [ht] at hb
      cases hb
    · rw [ht] at hb
      cases hb

/-- A beat that changes no tags opens no run. -/
theorem opensOnly_playBeat_of_no_change (P : Opening → Prop) (ctx : Context) {b : Beat}
    (hb : b.change? = none) (w : World) :
    OpensOnly P w ((playBeat settings (chained settings) ctx b).runOn w).2 := by
  rw [playBeat_of_no_change (chained settings) quiet ctx hb]
  exact keeps_playBeat (.of_aside settings OpensOnly.of_aside) (opensOnly_awaitCondition ctx)
    (fun kind _ => keeps_quiet kind _) b w

/-- A run that goes along beats comes to one of them, and carries it out in a world. -/
inductive ComesTo (settings : Settings) (ctx : Context) : List Beat → World → Beat → World → Prop
  | here {b : Beat} {rest : List Beat} {w m : World}
      (noted : (begin ctx b.head).runOn w = (.ok (), m)) :
      ComesTo settings ctx (b :: rest) w b m
  | later {b b' : Beat} {rest : List Beat} {w v m : World}
      (went : (runBeat settings (chained settings) ctx b).runOn w = (.ok .goesOn, v))
      (comes : ComesTo settings ctx rest v b' m) : ComesTo settings ctx (b :: rest) w b' m

/-- A beat provokes a run: tags are changed, and this is an event for an automation that is not
passed over. -/
def Provokes (settings : Settings) (ctx : Context) (b : Beat) (w : World) : Prop :=
  ∃ kind targets e v flows, b.change? = some (kind, targets)
    ∧ (retag ctx kind targets).runOn w = (.ok (some e), v)
    ∧ (Flow.matching e).run v.store = .ok (flows, v.store)
    ∧ ∃ f ∈ flows, ¬PassesOver settings e v.memory.firings v.reading f.automation.id

/-- The automations stay, unless a script deletes one. -/
def Staffed (w v : World) : Prop :=
  w.rehearsal.Spares .automations →
    v.rehearsal.Spares .automations ∧ v.store.automations = w.store.automations

instance : Std.Refl Staffed := ⟨fun _ h => ⟨h, rfl⟩⟩

instance : IsTrans World Staffed := ⟨fun _ _ _ h k hs =>
  have ⟨hv, heq⟩ := h hs
  ⟨(k hv).1, (k hv).2.trans heq⟩⟩

theorem unlogged_staffed : Unlogged Staffed where
  aside h hs := ⟨h.spares _ hs, h.automations hs⟩
  remembers _ _ hs := ⟨hs, rfl⟩
  runs _ _ hs := ⟨hs, rfl⟩
  slots _ _ _ hs := ⟨hs, rfl⟩
  pauses _ _ hs := ⟨hs, rfl⟩
  concludes _ _ hs := ⟨hs, rfl⟩

/-- A run in a conversation is carried out with the guard down. The conversation is there, with
every table; ids fit, and no script deletes a conversation, an automation or a run. -/
structure Exposed (c : Int) (w : World) : Prop where
  down : w.memory.tagGuard = false
  serves : Serves c w
  runs : w.rehearsal.Spares .automationRuns
  automations : w.rehearsal.Spares .automations
  ids : ∀ a ∈ w.store.automations, Transaction.fits a.id = true

theorem Exposed.trans (h : Exposed c w) (guard : SameGuard w v) (places : Places w v)
    (extended : Extends w v) (staffed : Staffed w v) : Exposed c v where
  down := guard.trans h.down
  serves := h.serves.of_places places
  runs := (extended h.runs).1
  automations := (staffed h.automations).1
  ids a ha := h.ids a ((staffed h.automations).2 ▸ ha)

theorem Exposed.of_aside (h : Exposed c w) (hv : Aside w v) : Exposed c v :=
  h.trans (congrArg Memory.tagGuard hv.memory) (unlogged_places.aside hv) (.of_aside hv)
    (unlogged_staffed.aside hv)

theorem Exposed.dispatch (h : Exposed c w) (event : Event) :
    Exposed c ((dispatch settings event).runOn w).2 :=
  h.trans (guard_dispatchWith (.inr rfl) event w) (unlogged_places.dispatch event w)
    (keeps_dispatchWith (fun _ _ _ => .of_openings rfl rfl)
      (fun flow => extends_execute extends_chained flow _ _ none) w)
    (unlogged_staffed.dispatch event w)

theorem Exposed.begin (h : Exposed c w) (ctx : Context) (head : StepHead) :
    Exposed c ((begin ctx head).runOn w).2 :=
  h.trans (Work.Keeps.transact (fun _ _ _ _ => rfl) w)
    (keeps_begin ctx head (fun w _ _ => unlogged_places.runs w _) w) (extends_begin ctx head w)
    (keeps_begin ctx head (fun w _ _ => unlogged_staffed.runs w _) w)

theorem Exposed.playBeat (h : Exposed c w) (ctx : Context) (b : Beat) :
    Exposed c ((playBeat settings (chained settings) ctx b).runOn w).2 :=
  h.trans (alike_playBeat agree_chained ctx b w rfl).2 (unlogged_places.playBeat ctx b w)
    (extends_playBeat extends_chained ctx b w) (unlogged_staffed.playBeat ctx b w)

/-- With the guard down, a change of tags is an event. -/
theorem snd_runOn_chained (h : w.memory.tagGuard = false) (kind : EventKind) (c channel : Int)
    (tags : List Int) : ((chained settings kind c channel tags).runOn w).2
      = ((dispatchWith settings quiet
          { kind, conversationId := c, channelId := channel, tagIds := tags }).runOn w).2 := by
  unfold chained
  rw [runOn_bind]
  show ((if w.memory.tagGuard = true then _ else _ : Work Unit).runOn w).2 = _
  rw [if_neg (by simp [h]), snd_runOn_returning]

/-- With the guard down, a beat opens runs exactly if it provokes one. -/
theorem grew_playBeat {ctx : Context} (h : Exposed ctx.conversationId w) (b : Beat) :
    Grew w ((playBeat settings (chained settings) ctx b).runOn w).2
      ↔ Provokes settings ctx b w := by
  cases hb : b.change? with
  | none =>
    refine iff_of_false ?_ ?_
    · exact not_grew (opensOnly_playBeat_of_no_change _ ctx hb w)
        (extends_playBeat extends_chained ctx b w) h.runs
    · rintro ⟨kind, targets, e, v, flows, hchange, -⟩
      rw [hb] at hchange
      cases hchange
  | some change =>
    obtain ⟨kind, targets⟩ := change
    rw [playBeat_of_change _ ctx hb, snd_runOn_returning, changeTags_eq_retag, runOn_bind]
    have work : Stepwork settings ctx.conversationId Aside := .of_aside settings id
    have hretag : Aside w ((retag ctx kind targets).runOn w).2 :=
      work.retag rfl (isTagEvent_of_change hb) targets w
    have hprovokes : Provokes settings ctx b w ↔ ∃ e v flows,
        (retag ctx kind targets).runOn w = (.ok (some e), v)
        ∧ (Flow.matching e).run v.store = .ok (flows, v.store)
        ∧ ∃ f ∈ flows, ¬PassesOver settings e v.memory.firings v.reading f.automation.id := by
      unfold Provokes
      simp only [hb, Option.some.injEq, Prod.mk.injEq]
      constructor
      · rintro ⟨_, _, e, v, flows, ⟨rfl, rfl⟩, h⟩
        exact ⟨e, v, flows, h⟩
      · rintro ⟨e, v, flows, h⟩
        exact ⟨kind, targets, e, v, flows, ⟨rfl, rfl⟩, h⟩
    rw [hprovokes]
    rcases hr : (retag ctx kind targets).runOn w with ⟨fault | _ | e, v⟩ <;> rw [hr] at hretag
    · exact iff_of_false (not_grew_of_aside hretag h.runs) (by simp)
    · exact iff_of_false (not_grew_of_aside hretag h.runs) (by simp)
    · have hv := h.of_aside hretag
      have he := retag_eq_some hr
      have hkind : e.kind.isTagEvent = true := by
        rw [he]
        exact isTagEvent_of_change hb
      have hserves : Serves e.conversationId v := by
        rw [he]
        exact hv.serves
      have hchained : ((chained settings e.kind e.conversationId e.channelId e.tagIds).runOn v).2
          = ((dispatchWith settings quiet e).runOn v).2 := by
        rw [snd_runOn_chained hv.down, he]
      have hextends : Extends v ((dispatchWith settings quiet e).runOn v).2 :=
        keeps_dispatchWith (fun _ _ _ => .of_openings rfl rfl)
          (fun flow => extends_execute keeps_quiet flow _ _ _) v
      dsimp only
      rw [hchained, grew_trans (.of_aside hretag) hextends h.runs,
        or_iff_right (not_grew_of_aside hretag h.runs),
        grew_dispatchWith_quiet hkind hserves hv.runs hv.ids]
      constructor
      · rintro ⟨flows, h⟩
        exact ⟨e, v, flows, rfl, h⟩
      · rintro ⟨_, _, flows, heq, h⟩
        cases heq
        exact ⟨flows, h⟩

theorem comesTo_cons_iff {ctx : Context} {b b' : Beat} {rest : List Beat} :
    ComesTo settings ctx (b :: rest) w b' m ↔
      (b' = b ∧ (begin ctx b.head).runOn w = (.ok (), m)) ∨
        ∃ v, (runBeat settings (chained settings) ctx b).runOn w = (.ok .goesOn, v)
          ∧ ComesTo settings ctx rest v b' m := by
  constructor
  · intro h
    cases h with
    | here noted => exact .inl ⟨rfl, noted⟩
    | later went comes => exact .inr ⟨_, went, comes⟩
  · rintro (⟨rfl, noted⟩ | ⟨v, went, comes⟩)
    · exact .here noted
    · exact .later went comes

/-- **With the guard down, runs are opened along the way of a run** exactly if it comes to a beat
that provokes one. -/
theorem grew_runBeats {ctx : Context} : ∀ {beats : List Beat} {w : World},
    Exposed ctx.conversationId w →
      (Grew w ((runBeats settings (chained settings) ctx beats).runOn w).2
        ↔ ∃ b m, ComesTo settings ctx beats w b m ∧ Provokes settings ctx b m)
  | [], w, _ => by
    refine iff_of_false (not_not_intro rfl) ?_
    rintro ⟨b, m, hcomes, -⟩
    cases hcomes
  | b :: rest, w, h => by
    have hbegin := extends_begin ctx b.head w
    have hstill : ¬Grew w ((begin ctx b.head).runOn w).2 :=
      not_grew (opensOnly_begin ctx b.head w) hbegin h.runs
    have hm := h.begin ctx b.head
    simp only [comesTo_cons_iff]
    rw [runBeats, runOn_bind]
    rcases hnoted : (begin ctx b.head).runOn w with ⟨fault | _, m⟩ <;>
      rw [hnoted] at hbegin hstill hm
    · have hrun : (runBeat settings (chained settings) ctx b).runOn w = (.error fault, m) := by
        rw [runBeat, runOn_bind, hnoted]
      rw [hrun]
      refine iff_of_false hstill ?_
      simp
    have hrun : (runBeat settings (chained settings) ctx b).runOn w
        = (playBeat settings (chained settings) ctx b).runOn m := by
      rw [runBeat, runOn_bind, hnoted]
    have hgrew : _ ↔ Provokes settings ctx b m := grew_playBeat hm b
    have hplays : Extends m ((playBeat settings (chained settings) ctx b).runOn m).2 :=
      extends_playBeat extends_chained ctx b m
    have hv : Exposed ctx.conversationId
        ((playBeat settings (chained settings) ctx b).runOn m).2 := hm.playBeat ctx b
    rw [hrun]
    rcases hp : (playBeat settings (chained settings) ctx b).runOn m with ⟨fault | p, v⟩ <;>
      rw [hp] at hgrew hplays hv
    -- Unless the run goes on, the beat is the last one that it comes to.
    · rw [grew_trans hbegin hplays h.runs, or_iff_right hstill, hgrew]
      simp
    · cases p with
      | suspended =>
        show Grew w v ↔ _
        rw [grew_trans hbegin hplays h.runs, or_iff_right hstill, hgrew]
        simp
      | goesOn =>
        have hrest : Grew v ((runBeats settings (chained settings) ctx rest).runOn v).2 ↔ _ :=
          grew_runBeats hv
        have hextends : Extends v ((runBeats settings (chained settings) ctx rest).runOn v).2 :=
          extends_runBeats extends_chained ctx rest v
        show Grew w ((runBeats settings (chained settings) ctx rest).runOn v).2 ↔ _
        rw [grew_trans (IsTrans.trans _ _ _ hbegin hplays) hextends h.runs,
          grew_trans hbegin hplays h.runs, or_iff_right hstill, hgrew, hrest]
        simp only [Prod.mk.injEq, true_and]
        constructor
        · rintro (hprovokes | ⟨b', m', hcomes, hprovokes⟩)
          · exact ⟨b, m, .inl ⟨rfl, rfl⟩, hprovokes⟩
          · exact ⟨b', m', .inr ⟨v, rfl, hcomes⟩, hprovokes⟩
        · rintro ⟨b', m', ⟨rfl, rfl⟩ | ⟨_, rfl, hcomes⟩, hprovokes⟩
          · exact .inl hprovokes
          · exact .inr ⟨b', m', hcomes, hprovokes⟩

/-! ## Going on from a suspension -/

/-- **What goes on from a suspension** is what the slot yields. -/
theorem resume_eq_some {id : Int} (h : (resume settings c).runOn w = (.ok (some id), v)) :
    ∃ t s flow remaining, Yields c w s t flow remaining
      ∧ (execute settings (chained settings) flow c (.object (resumeData t))
          (some remaining)).runOn { w with store := s } = (.ok (some id), v) := by
  have hr := resumed_resume settings c w
  rw [h] at hr
  generalize hout : (Except.ok (some id), v) = out at hr
  cases hr with
  | untaken fault failed => cases hout
  | stopped t s fault taken => cases hout
  | dropped taken? s taken unripe => cases hout
  | went t s flow remaining yields => exact ⟨t, s, flow, remaining, yields, rfl⟩

/-- A run that goes on from the suspension of a conversation: its steps begin in the world `m`,
where the suspension is taken and the run is opened, and `v` is the world in the end. -/
structure GoesOn (settings : Settings) (c id : Int) (w m v : World) (t : Suspension) (flow : Flow)
    (remaining : List Step) : Prop where
  taken : ∃ s, (Slot.take c).run w.store = .ok (some t, s) ∧ flow.rows = s.stepsOf t.automationId
  own : flow.automation.id = t.automationId
  after : ∃ steps, flow.steps = .ok steps ∧ stepsAfter? t.stepId steps = some remaining
  opened : m.store.openings = w.store.openings ++ [flow.opening c (.object (resumeData t)) id]
  exposed : Exposed c m
  carried : ∃ r u, (runBeats settings (chained settings) ⟨flow.automation.id, id, c⟩
    (beats none remaining)).runOn m = (r, u) ∧ v = ((endRun id r).runOn u).2

theorem goesOn_of_resume {id : Int} (h : Exposed c w)
    (hrun : (resume settings c).runOn w = (.ok (some id), v)) :
    ∃ t flow remaining m, GoesOn settings c id w m v t flow remaining := by
  obtain ⟨t, s, flow, remaining, hyields, hexecute⟩ := resume_eq_some hrun
  have htake := hyields.taken
  have htaken : Exposed c { w with store := s } ∧ s.openings = w.store.openings := by
    rcases Slot.take_eq_ok htake with ⟨htaken, -⟩ | ⟨k, held, fields, -, -, -, -, rfl⟩
    · cases htaken
    · exact ⟨h.trans rfl (unlogged_places.slots w c fields) (.of_openings rfl rfl)
        (unlogged_staffed.slots w c fields), rfl⟩
  obtain ⟨hexposed, hopenings⟩ := htaken
  have he := executed_execute settings (chained settings) flow c (.object (resumeData t))
    (some remaining) { w with store := s }
  rw [hexecute] at he
  generalize hout : (Except.ok (some id), v) = o at he
  cases he with
  | refused fault => cases hout
  | missing gone => cases hout
  | unread thread id' s' fault loaded opened unreadable => cases hout
  | ran thread id' s' ss r u loaded opened readable played =>
    obtain rfl : remaining = ss := Except.ok.inj readable
    have hc : thread.conversation.id = c := Store.id_of_find? (find?_of_loadThread loaded).2
    have hv := snd_runOn_endRun id' r u
    rw [← hout] at hv
    obtain ⟨_, _, -, hreturned⟩ := runOn_bind_eq_ok.mp hout.symm
    cases hreturned
    rw [hc] at opened played
    have hlog := openings_of_openRun opened
    obtain ⟨-, -, hs'⟩ := RunLog.openRun_eq_ok opened
    refine ⟨t, flow, remaining, { w with store := s' }, ⟨s, htake, hyields.ripe.rows⟩,
      hyields.ripe.own, hyields.ripe.after, by rw [hlog, hopenings]; rfl, ?_, r, u, played, hv⟩
    refine hexposed.trans rfl ?_ (fun hs => ⟨hs, hlog ▸ List.prefix_append _ _⟩) ?_
    · subst hs'
      exact unlogged_places.runs { w with store := s } _
    · subst hs'
      exact unlogged_staffed.runs { w with store := s } _

/-- The runs that a run opens while it goes on, and when there are any. -/
theorem GoesOn.nested {id : Int} {t : Suspension} {flow : Flow} {remaining : List Step}
    (h : GoesOn settings c id w m v t flow remaining) :
    ∃ nested, v.store.openings = m.store.openings ++ nested
      ∧ (∀ o ∈ nested, o.OfTagEvent)
      ∧ (nested ≠ [] ↔ ∃ b u,
          ComesTo settings ⟨flow.automation.id, id, c⟩ (beats none remaining) m b u
            ∧ Provokes settings ⟨flow.automation.id, id, c⟩ b u) := by
  obtain ⟨r, u, hplayed, rfl⟩ := h.carried
  have hgrew : Grew m ((runBeats settings (chained settings) ⟨flow.automation.id, id, c⟩
      (beats none remaining)).runOn m).2 ↔ _ := grew_runBeats h.exposed
  have hextends : Extends m ((runBeats settings (chained settings) ⟨flow.automation.id, id, c⟩
      (beats none remaining)).runOn m).2 := extends_runBeats extends_chained _ _ m
  have hopens : OpensOnly Opening.OfTagEvent m ((runBeats settings (chained settings)
      ⟨flow.automation.id, id, c⟩ (beats none remaining)).runOn m).2 :=
    opensOnly_runBeats settings (fun _ hkind => opensOnly_chained hkind) _ _ m
  rw [hplayed] at hgrew hextends hopens
  have hended := extends_endRun id r u
  have hstill : ¬Grew u ((endRun id r).runOn u).2 :=
    not_grew (opensOnly_endRun id r u) hended (hextends h.exposed.runs).1
  obtain ⟨opened, hopened, hall⟩ :=
    IsTrans.trans _ _ _ hopens (opensOnly_endRun (P := Opening.OfTagEvent) id r u)
  obtain ⟨nested, hnested⟩ := ((IsTrans.trans _ _ _ hextends hended : Extends m _) h.exposed.runs).2
  have hsublist : nested.Sublist opened := by
    rw [Opens, ← hnested] at hopened
    exact (List.append_sublist_append_left _).mp hopened
  refine ⟨nested, hnested.symm, fun o ho => hall o (hsublist.subset ho), ?_⟩
  rw [← hgrew, ← or_iff_left (a := Grew m u) hstill, ← grew_trans hextends hended h.exposed.runs,
    Grew, ← hnested]
  simp

/-! ## The result -/

/-- The worlds that the engine meets: at first the guard is down, and between events nobody touches
it. -/
inductive Watch : World → Prop
  | start {w : World} (h : w.memory.tagGuard = false) : Watch w
  | event {w : World} (settings : Settings) (o : Occurrence) (h : Watch w) :
      Watch ((o.handle settings).runOn w).2
  | meanwhile {w v : World} (h : Watch w) (hv : v.memory.tagGuard = w.memory.tagGuard) : Watch v

/-- Between events the guard is down. -/
theorem Watch.down (h : Watch w) : w.memory.tagGuard = false := by
  induction h with
  | start h => exact h
  | @event w settings o _ ih => exact (guard_handle o w).trans ih
  | meanwhile _ hv ih => exact hv.trans ih

/-- How far the guard reaches. -/
structure GuardReaches (settings : Settings) (w : World) : Prop where
  /-- A flow that a tag event sets off opens its own run at most, whatever its steps do, -/
  fresh : ∀ event : Event, event.kind.isTagEvent = true → ∀ (flow : Flow) (u : World),
    ∃ own, Opens own u ((fire settings (chained settings) event flow).runOn u).2
      ∧ (own.map Opening.automationId).Sublist [flow.automation.id]
      ∧ ∀ o ∈ own, o.SetOffBy event
  /-- and so does one that a change of tags sets off which another run makes. -/
  nested : ∀ event : Event, event.kind.isTagEvent = true → ∀ (flows : List Flow) (u : World),
    ∃ opened, Opens opened u ((fireAll settings quiet event flows).runOn u).2
      ∧ (opened.map Opening.automationId).Sublist (flows.map fun flow => flow.automation.id)
      ∧ ∀ o ∈ opened, o.SetOffBy event
  /-- But between events the guard is down, -/
  down : w.memory.tagGuard = false
  /-- and a run that goes on from a suspension, of whatever automation, opens others exactly if it
  comes to a change of tags that is for an automation which is not passed over. -/
  resumed : ∀ {c id : Int} {v : World}, Exposed c w →
    (resume settings c).runOn w = (.ok (some id), v) →
      ∃ t flow remaining m nested, GoesOn settings c id w m v t flow remaining
        ∧ v.store.openings = m.store.openings ++ nested
        ∧ (∀ o ∈ nested, o.OfTagEvent)
        ∧ (nested ≠ [] ↔ ∃ b u,
            ComesTo settings ⟨flow.automation.id, id, c⟩ (beats none remaining) m b u
              ∧ Provokes settings ⟨flow.automation.id, id, c⟩ b u)

/-- **The guard reaches to the suspension of a run, and not beyond it.** -/
theorem guard_reaches (h : Watch w) : GuardReaches settings w where
  fresh event hkind flow u := by
    rw [← reentrant_quiet, fire_reentrant quiet hkind]
    exact opens_fire_quiet settings event flow u
  nested event _ flows u := opens_fireAll_quiet settings event flows u
  down := h.down
  resumed hexposed hrun := by
    obtain ⟨t, flow, remaining, m, hgoes⟩ := goesOn_of_resume hexposed hrun
    obtain ⟨nested, hnested⟩ := hgoes.nested
    exact ⟨t, flow, remaining, m, nested, hgoes, hnested⟩

/-! ### A club that asks first -/

/-- A conversation at a club, with an automation for every tag that is given: it waits for a yes and
then gives tag 6. -/
def club : World :=
  let row (id : Int) (stepId kind : String) (config : Value) : StepRow :=
    { id, automationId := 1, stepId, kind, config, position := .null, order := id,
      nextStepId := none, trueStepId := none, falseStepId := none }
  { store :=
      { tags := [⟨5, "guest", none⟩, ⟨6, "member", none⟩]
        clients := [⟨1, none, none, none, none, .null⟩]
        memberships := [⟨1, 5⟩]
        conversations :=
          [{ id := 1, channelId := 1, clientId := some 1, operatorId := none, status := "open",
             metadata := .null, unreadCount := 0, lastMessageAt := none }]
        automations :=
          [{ id := 1, name := "admit", description := none, channelId := none,
             trigger := "tag_added", triggerConfig := .null, isActive := true }]
        steps :=
          [row 1 "ask" "condition" (.object [("condition_type", .str "message_contains"),
              ("condition_value", .str "yes")]),
            row 2 "admit" "add_tag" (.object [("tag_id", .int 6)])] } }

/-- Tag 5 is given. -/
def invitation : Event :=
  { kind := .tagAdded, conversationId := 1, channelId := 1, tagIds := [5] }

/-- It is, and the automation waits. -/
def knocked : World := (((Occurrence.dispatched invitation).handle {}).runOn club).2

/-- The answer is yes. -/
def answered : World :=
  { knocked with
    store :=
      { knocked.store with
        messages :=
          [{ id := 1, conversationId := 1, channelId := 1, clientId := some 1, operatorId := none,
             direction := "incoming", kind := "text", content := some "Yes!", status := "received",
             attachments := .null, providerMessageId := none, metadata := .null,
             createdAt := none }] } }

theorem answered_watch : Watch answered :=
  .meanwhile (.event {} (.dispatched _) (.start (w := club) rfl)) rfl

theorem snd_knocked : knocked = ((dispatch {} invitation).runOn club).2 := snd_runOn_returning _ _ _

theorem spares_club (t : Table) : club.rehearsal.Spares t := fun _ => List.not_mem_nil

theorem exposed_club : Exposed 1 club where
  down := rfl
  serves := ⟨spares_club _, rfl, _, rfl, by decide, by decide, by rintro n ⟨⟩; decide⟩
  runs := spares_club _
  automations := spares_club _
  ids := by decide

/-- What came in meanwhile does not matter. -/
theorem exposed_answered : Exposed 1 answered := by
  have h : Exposed 1 knocked := snd_knocked ▸ exposed_club.dispatch invitation
  exact ⟨h.down, ⟨h.serves.spares, h.serves.tables, h.serves.there⟩, h.runs, h.automations, h.ids⟩

theorem automations_answered : answered.store.automations = club.store.automations := by
  have h : Staffed club ((dispatch {} invitation).runOn club).2 :=
    unlogged_staffed.dispatch invitation club
  rw [← snd_knocked] at h
  exact (h (spares_club _)).2

/-- The automation goes on as run 2, whose change of tags opens run 3. -/
theorem resume_answered :
    ((resume {} 1).runOn answered).1 = .ok (some 2)
      ∧ answered.store.runs.length = 1
      ∧ ((resume {} 1).runOn answered).2.store.runs.length = 3 := by decide +kernel

/-- At the club the run that goes on comes to a change of tags that sets off the automation
itself. -/
theorem guard_reaches_answered :
    ∃ t flow remaining m b u,
      GoesOn {} 1 2 answered m ((resume {} 1).runOn answered).2 t flow remaining
        ∧ ComesTo {} ⟨flow.automation.id, 2, 1⟩ (beats none remaining) m b u
        ∧ Provokes {} ⟨flow.automation.id, 2, 1⟩ b u := by
  obtain ⟨hid, hbefore, hafter⟩ := resume_answered
  obtain ⟨t, flow, remaining, m, nested, hgoes, hnested, -, hiff⟩ :=
    (@guard_reaches {} answered answered_watch).resumed exposed_answered (Prod.ext hid rfl)
  have hne : nested ≠ [] := by
    rintro rfl
    rw [hgoes.opened, List.append_nil] at hnested
    have hlength := congrArg List.length hnested
    simp [Store.openings, hafter, hbefore] at hlength
  obtain ⟨b, u, hcomes, hprovokes⟩ := hiff.mp hne
  exact ⟨t, flow, remaining, m, b, u, hgoes, hcomes, hprovokes⟩

/-- A run of a tag automation that goes on can open another one by the changes of tags it makes. -/
theorem not_always_guarded :
    ¬∀ (settings : Settings) (w v : World) (c id : Int), Watch w →
      (∀ a ∈ w.store.automations, a.trigger = TriggerKind.tagAdded.name) →
      (resume settings c).runOn w = (.ok (some id), v) →
        v.store.runs.length ≤ w.store.runs.length + 1 := by
  intro h
  obtain ⟨hid, hbefore, hafter⟩ := resume_answered
  have htriggers : ∀ a ∈ answered.store.automations, a.trigger = TriggerKind.tagAdded.name := by
    rw [automations_answered]
    decide
  have hle := h {} answered _ 1 2 answered_watch htriggers (Prod.ext hid rfl)
  rw [hafter, hbefore] at hle
  exact absurd hle (by decide)

end Engine

end Deskflow
