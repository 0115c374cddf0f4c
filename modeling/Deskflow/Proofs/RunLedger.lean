import Deskflow.Proofs.RunTrace
import Mathlib.Data.List.Nodup

/-!
# The ledger of runs and suspensions

Which runs may still be gone on from. A run names the run that it goes on from, if it goes on from
one, and so does the slot of a conversation; a run that is being carried out may yet be put into a
slot. `Orderly` says of a world, in which the runs of a list are being carried out, that no run is
named twice in all this, and that the runs that are named in a slot or by another run stopped at a
condition in the same automation and conversation: there is a pause on record of them, and the last
step in their trace is a condition.

The rest of the file shows what leaves a world orderly:
* `Orderly.congr`, `Orderly.of_aside`: what changes no run and fills no slot.
* `Orderly.push`: a new run.
* `Orderly.modify_run`, `Orderly.begins`: the noting of a step and the end of a run.
* `Orderly.save`, `Orderly.take`: the filling and the emptying of a slot.
-/

namespace Deskflow

open Engine

/-- The run that a run goes on from, if it goes on from one. -/
def Run.previousRun? (r : Run) : Option Int :=
  match r.triggerData.fields.get? "previous_run_id" with
  | some (.int n) => some n
  | _ => none

/-- What of a run never changes: which it is, and what it goes on from. -/
structure Leg where
  id : Int
  automationId : Int
  conversationId : Int
  previous : Option Int
deriving DecidableEq, Repr

/-- What of a run never changes. -/
def Run.leg (r : Run) : Leg := ⟨r.id, r.automationId, r.conversationId, r.previousRun?⟩

/-- The legs of the runs in a store. -/
def Store.legs (s : Store) : List Leg := s.runs.map Run.leg

/-- What was settled when runs were opened tells their legs. -/
theorem Store.legs_of_openings {s t : Store} (h : s.openings = t.openings) : s.legs = t.legs := by
  let legOf (o : Opening) : Leg :=
    Run.leg ⟨o.id, o.automationId, o.conversationId, none, "", o.triggerData, .null, none, none,
      none⟩
  have hlegs : ∀ s : Store, s.legs = s.openings.map legOf := fun s => by
    rw [legs, openings, List.map_map]
    rfl
  rw [hlegs, hlegs, h]

/-- The run that a pause is about. -/
def Pause.context (p : Pause) : Context := ⟨p.automationId, p.runId, p.conversationId⟩

/-- What is stored of a suspension tells its run. -/
theorem Suspension.runId_of_record {s t : Suspension}
    (h : Value.object s.record = .object t.record) : s.runId = t.runId := by
  simp only [Suspension.record, Value.object.injEq, List.cons.injEq, Prod.mk.injEq, Value.int.injEq,
    true_and] at h
  exact h.2.2.1

/-- What a slot holds after a suspension was saved was saved then, or was there before. -/
theorem Slot.slot?_of_save {c d : Int} {t : Suspension} {s s' : Store} {x : Value}
    (h : (Slot.save c t).run s = .ok ((), s')) (hx : s'.slot? d = some x) :
    s.slot? d = some x ∨ d = c ∧ x = .object t.record := by
  rcases Slot.save_eq_ok h with ⟨-, rfl⟩ | ⟨k, fields, hk, hheld, rfl⟩
  · exact .inl hx
  · by_cases hd : d = c
    · subst hd
      rw [Store.slot?_withMetadata_self hk, hheld] at hx
      exact .inr ⟨rfl, (Option.some.inj hx).symm⟩
    · rw [Store.slot?_withMetadata_ne _ _ hd] at hx
      exact .inl hx

/-- What a slot holds after work aside was there before. -/
theorem World.Aside.slot? {w v : World} (h : Aside w v) {c : Int} {x : Value}
    (hx : v.store.slot? c = some x) : w.store.slot? c = some x := by
  cases hk : v.store.find? Conversation c with
  | none =>
    rw [Store.slot?_of_none hk] at hx
    cases hx
  | some k =>
    obtain ⟨k₀, hk₀, hcore⟩ := h.found c k hk
    have hm : k.metadata = k₀.metadata := congrArg (fun p => p.2.2.2) hcore
    rw [Store.slot?_of_some hk, hm] at hx
    rw [Store.slot?_of_some hk₀]
    exact hx

/-- A run in a store one of whose runs was changed is one that was there, changed or not. -/
theorem Store.mem_runs_modify {s : Store} {id : Int} {f : Run → Run} {p : Run}
    (h : p ∈ (s.modify Run id f).runs) : ∃ q ∈ s.runs, p = if q.id = id then f q else q := by
  obtain ⟨q, hq, rfl⟩ := List.mem_map.mp h
  refine ⟨q, hq, ?_⟩
  show (if (q.id == id) = true then f q else q) = _
  simp only [beq_iff_eq]

/-- The runs that were there are there, changed or not. -/
theorem Store.mem_runs_of_modify {s : Store} {id : Int} {f : Run → Run} {q : Run}
    (h : q ∈ s.runs) : (if q.id = id then f q else q) ∈ (s.modify Run id f).runs := by
  refine List.mem_map.mpr ⟨q, h, ?_⟩
  show (if (q.id == id) = true then f q else q) = _
  simp only [beq_iff_eq]

namespace Ledger

/-- A run is among legs. -/
def Opened (legs : List Leg) (ctx : Context) : Prop :=
  ∃ l ∈ legs, l.id = ctx.runId ∧ l.automationId = ctx.automationId
    ∧ l.conversationId = ctx.conversationId

/-- A run that is there stopped at a condition that did not hold: it is on record to have done so,
and a condition is the last step in its trace. -/
structure Stopped (s : Store) (pauses : List Pause) (ctx : Context) : Prop where
  opened : Opened s.legs ctx
  onRecord : ∃ p ∈ pauses, p.context = ctx ∧ p.condition.holds p.facts = .ok false
  trace : ∃ r ∈ s.runs, r.id = ctx.runId ∧ r.EndsAtCondition

/-- The runs that are being carried out, and those that were gone on from. -/
def claimed (active : List Context) (legs : List Leg) : List Int :=
  active.map Context.runId ++ legs.filterMap Leg.previous

variable {legs : List Leg} {pauses : List Pause} {ctx : Context} {s t : Store}

theorem Opened.mono {more : List Leg} (h : Opened legs ctx) : Opened (legs ++ more) ctx := by
  obtain ⟨l, hl, h⟩ := h
  exact ⟨l, List.mem_append_left _ hl, h⟩

/-- A run that stopped stays so while more runs are opened, -/
theorem Stopped.mono {more : List Run} (h : Stopped s pauses ctx) (ht : t.runs = s.runs ++ more) :
    Stopped t pauses ctx where
  opened := by
    rw [Store.legs, ht, List.map_append]
    exact h.opened.mono
  onRecord := h.onRecord
  trace := by
    obtain ⟨r, hr, hrest⟩ := h.trace
    exact ⟨r, ht ▸ List.mem_append_left _ hr, hrest⟩

/-- while others stop, -/
theorem Stopped.later {more : List Pause} (h : Stopped s pauses ctx) (ht : t.runs = s.runs) :
    Stopped t (pauses ++ more) ctx where
  opened := by
    rw [Store.legs, ht]
    exact h.opened
  onRecord := by
    obtain ⟨p, hp, hrest⟩ := h.onRecord
    exact ⟨p, List.mem_append_left _ hp, hrest⟩
  trace := ht ▸ h.trace

/-- and while runs are changed that are others, or end at a condition all the same. -/
theorem Stopped.modify (h : Stopped s pauses ctx) {id : Int} {f : Run → Run}
    (hf : ∀ r, (f r).opening = r.opening)
    (ends : id = ctx.runId → ∀ r, r.EndsAtCondition → (f r).EndsAtCondition) :
    Stopped (s.modify Run id f) pauses ctx where
  opened := Store.legs_of_openings (Store.openings_modify s id hf) ▸ h.opened
  onRecord := h.onRecord
  trace := by
    obtain ⟨r, hr, hid, hend⟩ := h.trace
    refine ⟨_, Store.mem_runs_of_modify hr, ?_⟩
    split
    · rename_i hrid
      exact ⟨(congrArg Opening.id (hf r)).trans hid, ends (hrid.symm.trans hid) r hend⟩
    · exact ⟨hid, hend⟩

theorem Opened.lt {n : Int} (h : Opened legs ctx) (hn : ∀ l ∈ legs, l.id < n) : ctx.runId < n := by
  obtain ⟨l, hl, hid, -⟩ := h
  exact hid ▸ hn l hl

/-- A run is in one automation and in one conversation. -/
theorem Opened.unique {other : Context} (hlegs : (legs.map Leg.id).Nodup) (h : Opened legs ctx)
    (h' : Opened legs other) (hid : ctx.runId = other.runId) : ctx = other := by
  obtain ⟨l, hl, hi, ha, hc⟩ := h
  obtain ⟨m, hm, hi', ha', hc'⟩ := h'
  obtain rfl : l = m := List.inj_on_of_nodup_map hlegs hl hm (hi.trans (hid.trans hi'.symm))
  cases ctx
  cases other
  simp_all

theorem not_mem_claimed_cons {active : List Context} {n : Int} :
    n ∉ claimed (ctx :: active) legs ↔ n ≠ ctx.runId ∧ n ∉ claimed active legs := by
  simp [claimed]

theorem mem_claimed_snoc {active : List Context} {l : Leg} {n : Int} :
    n ∈ claimed active (legs ++ [l]) ↔ n ∈ claimed active legs ∨ l.previous = some n := by
  simp [claimed, List.filterMap_append, or_assoc]

end Ledger

open Ledger

/-- Each run is named once, by those that may go on from it or did: a run that is being carried
out, a slot, or a later run. What a slot or a run names stopped at a condition that did not hold, in
the same automation and conversation. Runs that are being carried out are open. -/
structure World.Orderly (active : List Context) (w : World) : Prop where
  spares : w.rehearsal.Spares .automationRuns
  legs_nodup : (w.store.legs.map Leg.id).Nodup
  opened : ∀ ctx ∈ active, Opened w.store.legs ctx
  underway : ∀ ctx ∈ active, ∀ p ∈ w.store.runs, p.id = ctx.runId →
    p.status = RunLog.running ∧ ∃ entries, p.stepsExecuted = .list entries
  slots : ∀ c v, w.store.slot? c = some v → ∃ s : Suspension, v = .object s.record
    ∧ Stopped w.store w.pauses ⟨s.automationId, s.runId, c⟩
    ∧ s.runId ∉ claimed active w.store.legs
  resumed : ∀ l ∈ w.store.legs, ∀ r, l.previous = some r →
    r < l.id ∧ Stopped w.store w.pauses ⟨l.automationId, r, l.conversationId⟩
  claimed_nodup : (claimed active w.store.legs).Nodup

namespace World.Orderly

variable {w v : World} {active : List Context} {ctx : Context}

/-- What changes no run, fills no slot and puts no pause on record leaves a world orderly. -/
theorem congr (h : Orderly active w) (hruns : v.store.runs = w.store.runs)
    (hslots : ∀ c x, v.store.slot? c = some x → w.store.slot? c = some x)
    (hpauses : v.pauses = w.pauses) (hspares : v.rehearsal.Spares .automationRuns) :
    Orderly active v := by
  have hlegs : v.store.legs = w.store.legs := congrArg (List.map Run.leg) hruns
  have hstopped : ∀ {ctx}, Stopped w.store w.pauses ctx → Stopped v.store v.pauses ctx :=
    fun hs => hpauses ▸ hs.mono (hruns.trans (List.append_nil _).symm)
  exact
    { spares := hspares
      legs_nodup := hlegs ▸ h.legs_nodup
      opened := hlegs ▸ h.opened
      underway := hruns ▸ h.underway
      slots := fun c x hx => by
        obtain ⟨s, rfl, hs, hn⟩ := h.slots c x (hslots c x hx)
        exact ⟨s, rfl, hstopped hs, hlegs ▸ hn⟩
      resumed := fun l hl r hr =>
        (h.resumed l (hlegs ▸ hl) r hr).imp_right hstopped
      claimed_nodup := hlegs ▸ h.claimed_nodup }

theorem of_aside (h : Orderly active w) (ha : Aside w v) : Orderly active v :=
  h.congr (ha.runs h.spares) (fun _ _ hx => ha.slot? hx) ha.pauses (ha.spares _ h.spares)

/-- A run that ends leaves a world orderly. -/
theorem tail (h : Orderly (ctx :: active) w) : Orderly active w where
  spares := h.spares
  legs_nodup := h.legs_nodup
  opened c hc := h.opened c (List.mem_cons_of_mem _ hc)
  underway c hc := h.underway c (List.mem_cons_of_mem _ hc)
  slots c v hv := by
    obtain ⟨s, rfl, hs, hn⟩ := h.slots c v hv
    exact ⟨s, rfl, hs, (not_mem_claimed_cons.mp hn).2⟩
  resumed := h.resumed
  claimed_nodup := (List.nodup_cons.mp h.claimed_nodup).2

/-- An id past those of all legs is named by none of them, and by no run that is carried out. -/
theorem not_mem_claimed (h : Orderly active w) {id : Int}
    (hid : ∀ m ∈ w.store.legs, m.id < id) : id ∉ claimed active w.store.legs := by
  intro hmem
  rcases List.mem_append.mp hmem with hmem | hmem
  · obtain ⟨ctx, hctx, hrun⟩ := List.mem_map.mp hmem
    have := (h.opened ctx hctx).lt hid
    omega
  · obtain ⟨m, hm, hrun⟩ := List.mem_filterMap.mp hmem
    have := (h.resumed m hm id hrun).2.opened.lt hid
    simp at this

/-- A run that is being carried out is named by no slot and by no run. -/
theorem ne_of_active (h : Orderly active w) (hctx : ctx ∈ active) {r : Int}
    (hr : r ∈ w.store.legs.filterMap Leg.previous) : ctx.runId ≠ r := fun heq =>
  (List.nodup_append.mp h.claimed_nodup).2.2 _ (List.mem_map_of_mem hctx) _ hr heq

/-- A run is changed that is not carried out any longer, or that stays open. -/
theorem modify_run (h : Orderly active w) {id : Int} {f : Run → Run}
    (hf : ∀ r, (f r).opening = r.opening)
    (ends : id ∉ active.map Context.runId → ∀ r, r.EndsAtCondition → (f r).EndsAtCondition)
    (stays : id ∈ active.map Context.runId → ∀ r ∈ w.store.runs, r.id = id →
      (f r).status = RunLog.running ∧ ∃ entries, (f r).stepsExecuted = .list entries) :
    Orderly active { w with store := w.store.modify Run id f } := by
  have hlegs : (w.store.modify Run id f).legs = w.store.legs :=
    Store.legs_of_openings (Store.openings_modify w.store id hf)
  constructor
  · exact h.spares
  · exact hlegs ▸ h.legs_nodup
  · exact hlegs ▸ h.opened
  · intro ctx hctx p hp hpid
    obtain ⟨q, hq, rfl⟩ := Store.mem_runs_modify hp
    by_cases hqid : q.id = id
    · rw [if_pos hqid] at hpid ⊢
      have hid : ctx.runId = id := (hpid.symm.trans (congrArg Opening.id (hf q))).trans hqid
      exact stays (hid ▸ List.mem_map_of_mem hctx) q hq hqid
    · rw [if_neg hqid] at hpid ⊢
      exact h.underway ctx hctx q hq hpid
  · intro c x hx
    obtain ⟨s, rfl, hs, hn⟩ := h.slots c x hx
    refine ⟨s, rfl, hs.modify hf fun hid => ends fun hactive => hn ?_, hlegs ▸ hn⟩
    obtain rfl : id = s.runId := hid
    exact List.mem_append_left _ hactive
  · intro l hl r hr
    replace hl : l ∈ w.store.legs := hlegs ▸ hl
    obtain ⟨hlt, hs⟩ := h.resumed l hl r hr
    refine ⟨hlt, hs.modify hf fun hid => ends fun hactive => ?_⟩
    obtain ⟨ctx, hctx, hrun⟩ := List.mem_map.mp hactive
    exact h.ne_of_active hctx (List.mem_filterMap.mpr ⟨l, hl, hr⟩) (hrun.trans hid)
  · exact hlegs ▸ h.claimed_nodup

/-- A run that is not carried out any longer is ended. -/
theorem ends (h : Orderly active w) {id : Int} (hid : id ∉ active.map Context.runId)
    (now : Moment) (how : RunEnd) :
    Orderly active { w with store := w.store.modify Run id (RunLog.ended now how) } :=
  h.modify_run (fun _ => rfl) (fun _ _ hr => hr) fun hactive => absurd hactive hid

/-- A step begins of a run that is being carried out: it is the last one in the trace then. -/
theorem begins (h : Orderly (ctx :: active) w) {head : StepHead} {r : Except Fault Unit}
    (hr : (begin ctx head).runOn w = (r, v)) :
    Orderly (ctx :: active) v ∧ (r = .ok () → ∀ p ∈ v.store.runs, p.id = ctx.runId →
      p.traced.getLast? = some head.traced) := by
  rw [begin, Work.run_transact] at hr
  cases hs : (RunLog.append w.clock ctx.runId head.stepId head.kind).run w.store with
  | error fault =>
    rw [hs] at hr
    cases hr
    exact ⟨h, fun h => by cases h⟩
  | ok out =>
    obtain ⟨_, s⟩ := out
    rw [hs] at hr
    cases hr
    rcases RunLog.append_eq_ok hs with ⟨hclosed, rfl⟩ | ⟨q, entries, hq, hopen, -, rfl⟩
    · -- The run is there, and it is open.
      obtain ⟨l, hl, hid, -⟩ := h.opened ctx List.mem_cons_self
      obtain ⟨p, hp, rfl⟩ := List.mem_map.mp hl
      obtain ⟨q, hq⟩ : ∃ q, w.store.find? Run ctx.runId = some q := by
        rw [← Option.isSome_iff_exists]
        exact List.find?_isSome.mpr ⟨p, hp, beq_iff_eq.mpr hid⟩
      exact absurd (h.underway ctx List.mem_cons_self q (List.mem_of_find?_eq_some hq)
        (Store.id_of_find? hq)).1 (hclosed q hq)
    · refine ⟨h.modify_run (fun _ => rfl) (fun hn => absurd List.mem_cons_self hn)
        fun _ r hr hrid => ⟨?_, _, rfl⟩, fun _ p hp hpid => ?_⟩
      · exact (h.underway ctx List.mem_cons_self r hr hrid).1
      · obtain ⟨r, hr, rfl⟩ := Store.mem_runs_modify hp
        by_cases hrid : r.id = ctx.runId
        · rw [if_pos hrid]
          exact RunLog.getLast?_traced_withStep entries w.clock head r
        · rw [if_neg hrid] at hpid
          exact absurd hpid hrid

/-- A new run, which is open, and goes on from a run that stopped at a condition and is named by no
other, if it goes on from one. -/
theorem push (h : Orderly active w) {p : Run} (hruns : v.store.runs = w.store.runs ++ [p])
    (hid : ∀ m ∈ w.store.legs, m.id < p.id) (hslots : ∀ c, v.store.slot? c = w.store.slot? c)
    (hpauses : v.pauses = w.pauses) (hscript : v.rehearsal = w.rehearsal)
    (hopen : p.status = RunLog.running ∧ ∃ entries, p.stepsExecuted = .list entries)
    (hprev : ∀ r, p.previousRun? = some r →
      Stopped w.store w.pauses ⟨p.automationId, r, p.conversationId⟩
        ∧ r ∉ claimed active w.store.legs
        ∧ ∀ c (s : Suspension), w.store.slot? c = some (.object s.record) → s.runId ≠ r) :
    Orderly (⟨p.automationId, p.id, p.conversationId⟩ :: active) v := by
  have hlegs : v.store.legs = w.store.legs ++ [p.leg] := by
    rw [Store.legs, hruns, List.map_append]
    rfl
  have hlt : ∀ r, p.previousRun? = some r → r < p.id := fun r hr => (hprev r hr).1.opened.lt hid
  constructor
  · exact hscript ▸ h.spares
  · rw [hlegs, List.map_append, List.nodup_append]
    refine ⟨h.legs_nodup, by simp, fun a ha b hb => ?_⟩
    obtain ⟨m, hm, rfl⟩ := List.mem_map.mp ha
    have := hid m hm
    obtain rfl : b = p.id := by simpa [Run.leg] using hb
    omega
  · rw [hlegs]
    rintro ctx (_ | ⟨_, hctx⟩)
    · exact ⟨p.leg, by simp, rfl, rfl, rfl⟩
    · exact (h.opened ctx hctx).mono
  · rw [hruns]
    intro ctx hctx q hq hqid
    rcases List.mem_append.mp hq with hq | hq
    · have hless := hid q.leg (List.mem_map_of_mem hq)
      rcases List.mem_cons.mp hctx with rfl | hctx
      · exact absurd hqid (Int.ne_of_lt hless)
      · exact h.underway ctx hctx q hq hqid
    · exact List.mem_singleton.mp hq ▸ hopen
  · rw [hlegs, hpauses]
    intro c x hx
    rw [hslots] at hx
    obtain ⟨s, rfl, hs, hn⟩ := h.slots c x hx
    refine ⟨s, rfl, hs.mono hruns, ?_⟩
    have hne : s.runId ≠ p.id := Int.ne_of_lt (hs.opened.lt hid)
    refine not_mem_claimed_cons.mpr ⟨hne, fun hmem => ?_⟩
    rcases mem_claimed_snoc.mp hmem with hmem | hmem
    · exact hn hmem
    · exact (hprev _ hmem).2.2 c s hx rfl
  · rw [hlegs, hpauses]
    intro m hm r hr
    rcases List.mem_append.mp hm with hm | hm
    · exact (h.resumed m hm r hr).imp_right fun hs => hs.mono hruns
    · obtain rfl := List.mem_singleton.mp hm
      exact ⟨hlt r hr, (hprev r hr).1.mono hruns⟩
  · rw [hlegs]
    refine List.nodup_cons.mpr ⟨fun hmem => ?_, ?_⟩
    · rcases mem_claimed_snoc.mp hmem with hmem | hmem
      · exact h.not_mem_claimed hid hmem
      · exact absurd (hlt _ hmem) (Int.lt_irrefl _)
    · show (claimed active (w.store.legs ++ [p.leg])).Nodup
      rw [claimed, List.filterMap_append, ← List.append_assoc]
      refine List.nodup_append.mpr ⟨h.claimed_nodup, ?_, fun a ha b hb => ?_⟩
      · cases hl : p.leg.previous <;> simp [hl]
      · rintro rfl
        refine (hprev a ?_).2.1 ha
        simpa [Run.leg] using hb

/-- The suspension of a run that is being carried out is put into the slot of its conversation,
when a condition that it came to last is judged not to hold. -/
theorem save (h : Orderly (ctx :: active) w) {stepId : String} {c : Condition} {facts : Facts}
    (hlast : ∀ p ∈ w.store.runs, p.id = ctx.runId → p.EndsAtCondition)
    (hc : c.holds facts = .ok false) {s : Store}
    (hs : (Slot.save ctx.conversationId (ctx.suspension stepId c)).run w.store = .ok ((), s)) :
    Orderly active { w with store := s, pauses := w.pauses ++ [ctx.pause stepId c facts] } := by
  have hruns : s.runs = w.store.runs := by
    rcases Slot.save_eq_ok hs with ⟨-, rfl⟩ | ⟨k, fields, -, -, rfl⟩ <;> rfl
  have hlegs : s.legs = w.store.legs := congrArg (List.map Run.leg) hruns
  have hopened := h.opened ctx List.mem_cons_self
  have hstopped : Stopped s (w.pauses ++ [ctx.pause stepId c facts]) ctx := by
    refine ⟨hlegs ▸ hopened, ⟨ctx.pause stepId c facts, by simp, rfl, hc⟩, ?_⟩
    obtain ⟨l, hl, hid, -⟩ := hopened
    obtain ⟨p, hp, rfl⟩ := List.mem_map.mp hl
    exact ⟨p, hruns ▸ hp, hid, hlast p hp hid⟩
  have hnodup := List.nodup_cons.mp h.claimed_nodup
  constructor
  · exact h.spares
  · exact hlegs ▸ h.legs_nodup
  · exact hlegs ▸ h.tail.opened
  · exact hruns ▸ h.tail.underway
  · intro d x hx
    rw [hlegs]
    rcases Slot.slot?_of_save hs hx with hx | ⟨rfl, rfl⟩
    · obtain ⟨t, rfl, ht, hn⟩ := h.tail.slots d x hx
      exact ⟨t, rfl, ht.later hruns, hn⟩
    · exact ⟨_, rfl, hstopped, hnodup.1⟩
  · rw [hlegs]
    exact fun l hl r hr => (h.resumed l hl r hr).imp_right fun hs => hs.later hruns
  · exact hlegs ▸ hnodup.2

/-- What is taken from a slot stopped at a condition, and is named by no other from then on. -/
theorem take (h : Orderly active w) {c : Int} {taken : Option Suspension} {s : Store}
    (hs : (Slot.take c).run w.store = .ok (taken, s)) :
    Orderly active { w with store := s } ∧ ∀ t, taken = some t →
      Stopped s w.pauses ⟨t.automationId, t.runId, c⟩ ∧ t.runId ∉ claimed active s.legs
        ∧ ∀ d (u : Suspension), s.slot? d = some (.object u.record) → u.runId ≠ t.runId := by
  rcases Slot.take_eq_ok hs with ⟨rfl, rfl⟩ | ⟨k, held, fields, hk, hheld, hempty, hread, rfl⟩
  · exact ⟨h, by simp⟩
  have hslots : ∀ d x, (w.store.withMetadata c fields).slot? d = some x →
      d ≠ c ∧ w.store.slot? d = some x := by
    intro d x hx
    by_cases hd : d = c
    · subst hd
      rw [Store.slot?_withMetadata_self hk, hempty] at hx
      cases hx
    · rw [Store.slot?_withMetadata_ne _ _ hd] at hx
      exact ⟨hd, hx⟩
  refine ⟨h.congr rfl (fun d x hx => (hslots d x hx).2) rfl h.spares, ?_⟩
  rintro t rfl
  obtain ⟨t', rfl, hstopped, hn⟩ := h.slots c held (by rw [Store.slot?_of_some hk, hheld])
  obtain ⟨ha, hr⟩ := Suspension.read?_record_eq_ok hread
  rw [ha, hr]
  refine ⟨hstopped.mono (List.append_nil _).symm, hn, fun d u hu hrun => ?_⟩
  obtain ⟨hd, hu⟩ := hslots d _ hu
  obtain ⟨u', hrecord, hstopped', -⟩ := h.slots d _ hu
  refine hd (congrArg Context.conversationId
    (hstopped'.opened.unique h.legs_nodup hstopped.opened ?_))
  exact (Suspension.runId_of_record hrecord).symm.trans hrun

end World.Orderly

end Deskflow
