import Deskflow.Proofs.ResumeOnce
import Deskflow.Proofs.RunChains

/-!
# Runs make headway

As long as the steps of an automation are not edited, its runs go along the lines that they set out
on, whatever other runs do meanwhile. `Paced` says so of all runs in a world but those that are
being carried out, and is kept by everything the engine does.

The runs of a chain are those that `_resume` opens one from the other.

* `paced_runBeats`, `paced_execute`: a run that is carried out goes along its line, and leaves the
  others still.
* `steady_handle`: whatever comes to the engine keeps runs paced.
* `Unedited.makes_headway`: the result.
-/

namespace Deskflow

open Engine

/-- The stored steps of an automation are these, and no script deletes an automation or a step. -/
structure World.Retains (a : Int) (rows : List StepRow) (w : World) : Prop where
  automations : w.rehearsal.Spares .automations
  stepRows : w.rehearsal.Spares .automationSteps
  stored : w.store.stepsOf a = rows

/-- The runs of an automation went along the lines that they set out on, apart from those that are
being carried out; and what is on record of stops, or waits in a slot, is about runs that are
there. -/
structure World.Paced (a : Int) (rows : List StepRow) (steps : List Step) (active : List Int)
    (w : World) : Prop where
  spares : w.rehearsal.Spares .automationRuns
  retains : w.Retains a rows
  present : ∀ id ∈ active, ∃ p ∈ w.store.runs, p.id = id
  named : ∀ z ∈ w.pauses, ∃ p ∈ w.store.runs, p.id = z.runId
  slots : ∀ c v, w.store.slot? c = some v → ∃ t : Suspension, v = .object t.record
    ∧ ∃ z ∈ w.pauses, z.runId = t.runId ∧ z.stepId = t.stepId
  courses : ∀ p ∈ w.store.runs, p.automationId = a → p.id ∉ active → Course steps w.pauses p

/-- Runs that are being carried out stay as they are, and nothing is put on record of them. -/
structure World.Still (active : List Int) (w v : World) : Prop where
  runs : ∀ p ∈ v.store.runs, p.id ∈ active → p ∈ w.store.runs
  earlier : w.pauses ⊆ v.pauses
  pauses : ∀ z ∈ v.pauses, z.runId ∈ active → z ∈ w.pauses

/-- A suspension that was stored is read as it was. -/
theorem Suspension.eq_of_read?_record {s t : Suspension}
    (h : read? (.object s.record) = .ok (some t)) : s = t := by
  by_cases hs : s.stepId = ""
  · have hstep : (Value.str s.stepId).givenText = "" := by rw [Value.givenText_str, hs]
    have hauto : s.record.get? "automation_id" = some (.int s.automationId) := rfl
    have hid : Record.getD s.record "step_id" = .str s.stepId := rfl
    have hint : (Value.int s.automationId).toInt? = .ok (some s.automationId) := rfl
    simp [read?, readFields?, hauto, hint, hid, hstep, bind, Except.bind, pure, Except.pure] at h
  · rw [read?_record hs] at h
    cases h
    rfl

namespace World

variable {a : Int} {rows : List StepRow} {steps : List Step} {active : List Int} {w v : World}

theorem Still.refl (active : List Int) (w : World) : Still active w w :=
  ⟨fun _ hp _ => hp, fun _ hz => hz, fun _ hz _ => hz⟩

theorem Still.trans {u : World} (h : Still active w v) (k : Still active v u) :
    Still active w u where
  runs p hp hid := h.runs p (k.runs p hp hid) hid
  earlier := List.Subset.trans h.earlier k.earlier
  pauses z hz hid := h.pauses z (k.pauses z hz hid) hid

theorem Still.tail {id : Int} (h : Still (id :: active) w v) : Still active w v where
  runs p hp hid := h.runs p hp (List.mem_cons_of_mem id hid)
  earlier := h.earlier
  pauses z hz hid := h.pauses z hz (List.mem_cons_of_mem id hid)

theorem Retains.of_aside (h : w.Retains a rows) (hv : Aside w v) :
    v.Retains a rows where
  automations := hv.spares _ h.automations
  stepRows := hv.spares _ h.stepRows
  stored := (Store.stepsOf_congr (hv.steps h.automations h.stepRows) a).trans h.stored

/-- That a run came to its end may be put on record. -/
theorem Paced.concluded (h : Paced a rows steps active w) (x : Conclusion) :
    Paced a rows steps active { w with conclusions := w.conclusions ++ [x] } :=
  ⟨h.spares, ⟨h.retains.automations, h.retains.stepRows, h.retains.stored⟩, h.present, h.named,
    h.slots, h.courses⟩

/-- A run's own row is changed while it is carried out. -/
theorem Paced.modify_run {id : Int} (h : Paced a rows steps (id :: active) w) (hid : id ∉ active)
    {f : Run → Run} (hf : ∀ r, (f r).id = r.id) :
    Paced a rows steps (id :: active) { w with store := w.store.modify Run id f }
      ∧ Still active w { w with store := w.store.modify Run id f } := by
  have kept : ∀ q ∈ w.store.runs, ∃ p ∈ (w.store.modify Run id f).runs, p.id = q.id := by
    intro q hq
    refine ⟨_, List.mem_map_of_mem hq, ?_⟩
    split
    · exact hf q
    · rfl
  refine ⟨⟨h.spares, ⟨h.retains.automations, h.retains.stepRows, h.retains.stored⟩, ?_, ?_, h.slots,
    ?_⟩, ?_, fun _ hz => hz, fun _ hz _ => hz⟩
  · intro n hn
    obtain ⟨q, hq, rfl⟩ := h.present n hn
    exact kept q hq
  · intro z hz
    obtain ⟨q, hq, hrun⟩ := h.named z hz
    obtain ⟨p, hp, hpid⟩ := kept q hq
    exact ⟨p, hp, hpid.trans hrun⟩
  · intro p hp ha hn
    obtain ⟨q, hq, rfl⟩ := Store.mem_runs_modify hp
    by_cases hqid : q.id = id
    · rw [if_pos hqid, hf, hqid] at hn
      exact absurd List.mem_cons_self hn
    · rw [if_neg hqid] at ha hn ⊢
      exact h.courses q hq ha hn
  · intro p hp hn
    obtain ⟨q, hq, rfl⟩ := Store.mem_runs_modify hp
    by_cases hqid : q.id = id
    · rw [if_pos hqid, hf, hqid] at hn
      exact absurd hn hid
    · rwa [if_neg hqid] at hn ⊢

/-- A run that is carried out is suspended, and put on record to have stopped. -/
theorem Paced.save {ctx : Context} (h : Paced a rows steps (ctx.runId :: active) w)
    (hid : ctx.runId ∉ active) {stepId : String} {c : Condition} (facts : Facts) {s : Store}
    (hs : (Slot.save ctx.conversationId (ctx.suspension stepId c)).run w.store = .ok ((), s)) :
    Paced a rows steps (ctx.runId :: active)
        { w with store := s, pauses := w.pauses ++ [ctx.pause stepId c facts] }
      ∧ Still active w { w with store := s, pauses := w.pauses ++ [ctx.pause stepId c facts] } := by
  have hstored : s.runs = w.store.runs ∧ s.steps = w.store.steps := by
    rcases Slot.save_eq_ok hs with ⟨-, rfl⟩ | ⟨k, fields, -, -, rfl⟩ <;> exact ⟨rfl, rfl⟩
  have hpauses : ∀ z ∈ w.pauses ++ [ctx.pause stepId c facts],
      z ∈ w.pauses ∨ z = ctx.pause stepId c facts := by simp
  constructor
  · constructor
    · exact h.spares
    · refine ⟨h.retains.automations, h.retains.stepRows, ?_⟩
      rw [← h.retains.stored, Store.stepsOf, hstored.2]
      rfl
    · rw [hstored.1]
      exact h.present
    · rw [hstored.1]
      intro z hz
      rcases hpauses z hz with hz | rfl
      · exact h.named z hz
      · exact h.present _ List.mem_cons_self
    · intro d x hx
      rcases Slot.slot?_of_save hs hx with hx | ⟨-, rfl⟩
      · obtain ⟨t, rfl, z, hz, hrest⟩ := h.slots d x hx
        exact ⟨t, rfl, z, List.mem_append_left _ hz, hrest⟩
      · exact ⟨_, rfl, ctx.pause stepId c facts, by simp, rfl, rfl⟩
    · rw [hstored.1]
      intro p hp ha hn
      refine (h.courses p hp ha hn).mono (List.subset_append_left _ _) fun z hz hrun => ?_
      rcases hpauses z hz with hz | rfl
      · exact hz
      · exact absurd List.mem_cons_self (hrun ▸ hn)
  · refine ⟨fun p hp _ => hstored.1 ▸ hp, List.subset_append_left _ _, fun z hz hrun => ?_⟩
    rcases hpauses z hz with hz | rfl
    · exact hz
    · exact absurd hrun hid

/-- What is taken from a slot is on record to have stopped. -/
theorem Paced.take (h : Paced a rows steps active w) {c : Int} {taken : Option Suspension}
    {s : Store} (hs : (Slot.take c).run w.store = .ok (taken, s)) :
    Paced a rows steps active { w with store := s } ∧ Still active w { w with store := s }
      ∧ ∀ t, taken = some t → ∃ z ∈ w.pauses, z.runId = t.runId ∧ z.stepId = t.stepId := by
  rcases Slot.take_eq_ok hs with ⟨rfl, rfl⟩ | ⟨k, held, fields, hk, hheld, hempty, hread, rfl⟩
  · exact ⟨h, Still.refl active w, by simp⟩
  refine ⟨⟨h.spares, ⟨h.retains.automations, h.retains.stepRows, h.retains.stored⟩, h.present,
    h.named, fun d x hx => ?_, h.courses⟩, ⟨fun _ hp _ => hp, fun _ hz => hz, fun _ hz _ => hz⟩, ?_⟩
  · by_cases hd : d = c
    · subst hd
      rw [Store.slot?_withMetadata_self hk, hempty] at hx
      cases hx
    · rw [Store.slot?_withMetadata_ne _ _ hd] at hx
      exact h.slots d x hx
  · rintro t rfl
    obtain ⟨t', rfl, z, hz, hrun, hstep⟩ := h.slots c held (by rw [Store.slot?_of_some hk, hheld])
    obtain rfl := Suspension.eq_of_read?_record hread
    exact ⟨z, hz, hrun, hstep⟩

end World

namespace Engine

open Work World

variable {a : Int} {rows : List StepRow} {steps : List Step} {active : List Int} {w v : World}

/-- Runs went along their lines, and those that are being carried out were left alone since an
earlier world. -/
def PacedSince (a : Int) (rows : List StepRow) (steps : List Step) (active : List Int)
    (w v : World) : Prop := Paced a rows steps active v ∧ Still active w v

/-- Work of the engine that carries out runs of its own only. -/
def Steady (a : Int) (rows : List StepRow) (steps : List Step) (w v : World) : Prop :=
  ∀ active, Paced a rows steps active w → PacedSince a rows steps active w v

instance : Std.Refl (Steady a rows steps) := ⟨fun w active h => ⟨h, Still.refl active w⟩⟩

instance : IsTrans World (Steady a rows steps) := ⟨fun _ _ _ h k active hw =>
  ⟨(k active (h active hw).1).1, (h active hw).2.trans (k active (h active hw).1).2⟩⟩

theorem Steady.of_aside (ha : Aside w v) : Steady a rows steps w v := by
  intro active h
  have hruns := ha.runs h.spares
  have hpauses := ha.pauses
  refine ⟨⟨ha.spares _ h.spares, h.retains.of_aside ha, ?_, ?_, fun c x hx => ?_, ?_⟩, ?_⟩
  · rw [hruns]
    exact h.present
  · rw [hruns, hpauses]
    exact h.named
  · rw [hpauses]
    exact h.slots c x (ha.slot? hx)
  · rw [hruns, hpauses]
    exact h.courses
  · exact ⟨fun p hp _ => hruns ▸ hp, fun z hz => hpauses ▸ hz, fun z hz _ => hpauses ▸ hz⟩

theorem Steady.of_memory (w : World) (m : Memory) : Steady a rows steps w { w with memory := m } :=
  fun _ h =>
    ⟨⟨h.spares, ⟨h.retains.automations, h.retains.stepRows, h.retains.stored⟩, h.present, h.named,
      h.slots, h.courses⟩, ⟨fun _ hp _ => hp, fun _ hz => hz, fun _ hz _ => hz⟩⟩

/-! ## A run that is carried out -/

/-- A run is being carried out, and these beats were begun. -/
structure Underway (l : Leg) (begun : List Beat) (w : World) : Prop where
  row : ∀ p ∈ w.store.runs, p.id = l.id → p.leg = l ∧ p.status = RunLog.running
    ∧ (∃ entries, p.stepsExecuted = .list entries)
    ∧ p.traced = begun.map fun b => b.head.traced
  quiet : ∀ z ∈ w.pauses, z.runId ≠ l.id

/-- A run came to a stop along a line of steps. -/
def Halted (l : Leg) (line : List Step) (w : World) : Prop :=
  ∃ begun, begun <+: beats none line
    ∧ ∀ p ∈ w.store.runs, p.id = l.id → p.leg = l ∧ Stands w.pauses begun p

theorem Underway.halted {l : Leg} {begun : List Beat} {line : List Step} (h : Underway l begun w)
    (hbegun : begun <+: beats none line) : Halted l line w := by
  refine ⟨begun, hbegun, fun p hp hid => ?_⟩
  obtain ⟨hleg, -, -, htraced⟩ := h.row p hp hid
  exact ⟨hleg, htraced, fun z hz hz' => absurd (hz'.trans hid) (h.quiet z hz)⟩

/-- What leaves a run still that is being carried out leaves it underway. -/
theorem Underway.of_still {l : Leg} {begun : List Beat} (h : Underway l begun w)
    (hv : Still (l.id :: active) w v) : Underway l begun v where
  row p hp hid := h.row p (hv.runs p hp (hid ▸ List.mem_cons_self)) hid
  quiet z hz hid := h.quiet z (hv.pauses z hz (hid ▸ List.mem_cons_self)) hid

variable {settings : Settings} {onTags : TagHandler} {l : Leg} {begun : List Beat}

/-- A step that begins is noted in the run's trace, or the run cannot go on. -/
theorem underway_begin {ctx : Context} (hctx : ctx.runId = l.id) (hid : l.id ∉ active) {b : Beat}
    {r : Except Fault Unit} (h : Paced a rows steps (l.id :: active) w) (hu : Underway l begun w)
    (hr : (begin ctx b.head).runOn w = (r, v)) :
    Paced a rows steps (l.id :: active) v ∧ Still active w v
      ∧ (r = .ok () ∧ Underway l (begun ++ [b]) v ∨ (∃ fault, r = .error fault) ∧ v = w) := by
  rw [begin, run_transact, hctx] at hr
  cases hs : (RunLog.append w.clock l.id b.head.stepId b.head.kind).run w.store with
  | error fault =>
    rw [hs] at hr
    cases hr
    exact ⟨h, Still.refl active w, .inr ⟨⟨fault, rfl⟩, rfl⟩⟩
  | ok out =>
    obtain ⟨_, s⟩ := out
    rw [hs] at hr
    cases hr
    rcases RunLog.append_eq_ok hs with ⟨hclosed, rfl⟩ | ⟨q, entries, hq, -, hentries, rfl⟩
    · -- The run is there, and it is open.
      obtain ⟨p, hp, hpid⟩ := h.present l.id List.mem_cons_self
      obtain ⟨q, hq⟩ : ∃ q, w.store.find? Run l.id = some q := by
        rw [← Option.isSome_iff_exists]
        exact List.find?_isSome.mpr ⟨p, hp, beq_iff_eq.mpr hpid⟩
      exact absurd (hu.row q (List.mem_of_find?_eq_some hq) (Store.id_of_find? hq)).2.1
        (hclosed q hq)
    · obtain ⟨-, -, ⟨entries', hlist⟩, htraced⟩ :=
        hu.row q (List.mem_of_find?_eq_some hq) (Store.id_of_find? hq)
      rw [hlist, RunLog.entriesOf_list] at hentries
      obtain rfl := Except.ok.inj hentries
      obtain ⟨hp, hstill⟩ := h.modify_run hid (f := RunLog.withStep entries'
        (RunLog.traceEntry w.clock b.head.stepId b.head.kind)) fun _ => rfl
      refine ⟨hp, hstill, .inl ⟨rfl, fun p hp hpid => ?_, hu.quiet⟩⟩
      obtain ⟨q', hq', rfl⟩ := Store.mem_runs_modify hp
      by_cases hqid : q'.id = l.id
      · rw [if_pos hqid]
        obtain ⟨hleg, hopen, -, -⟩ := hu.row q' hq' hqid
        refine ⟨hleg, hopen, ⟨_, rfl⟩, ?_⟩
        simp only [Run.traced, hlist] at htraced
        simp only [Run.traced, RunLog.withStep, List.map_append, htraced]
        rfl
      · rw [if_neg hqid] at hpid
        exact absurd hpid hqid

/-- A beat of a run is noted and carried out: the run is still underway, or it came to a stop. -/
theorem paced_runBeat
    (handled : ∀ kind c channel tags,
      Work.Keeps (Steady a rows steps) (onTags kind c channel tags))
    {ctx : Context} (hctx : ctx.runId = l.id) (hid : l.id ∉ active) {b : Beat}
    {r : Except Fault Progress} (h : Paced a rows steps (l.id :: active) w)
    (hu : Underway l begun w) (hr : (runBeat settings onTags ctx b).runOn w = (r, v)) :
    Paced a rows steps (l.id :: active) v ∧ Still active w v
      ∧ (r = .ok .goesOn → Underway l (begun ++ [b]) v)
      ∧ ∀ line, begun ++ [b] <+: beats none line → Halted l line v := by
  unfold runBeat at hr
  rw [runOn_bind] at hr
  rcases hbegin : (begin ctx b.head).runOn w with ⟨r', m⟩
  obtain ⟨hm, hstill, hbegun⟩ := underway_begin hctx hid h hu hbegin
  rw [hbegin] at hr
  rcases hbegun with ⟨rfl, hum⟩ | ⟨⟨fault, rfl⟩, rfl⟩
  · have hplayed := played_playBeat (.of_aside settings Steady.of_aside)
      (fun kind _ => handled kind ctx.conversationId) b m
    rw [show (playBeat settings onTags ctx b).runOn m = (r, v) from hr] at hplayed
    cases hplayed with
    | kept _ _ passes keeps =>
      obtain ⟨hv, hstill'⟩ := keeps _ hm
      exact ⟨hv, hstill.trans hstill'.tail, fun _ => hum.of_still hstill',
        fun line hline => (hum.of_still hstill').halted hline⟩
    | stopped c facts s hact hk hc hs =>
      obtain ⟨hv, hstill'⟩ := Paced.save (hctx ▸ hm) (hctx ▸ hid) facts hs
      refine ⟨hctx ▸ hv, hstill.trans hstill', (fun h => by cases h), fun line hline => ?_⟩
      refine ⟨_, hline, fun p hp hpid => ?_⟩
      have hruns : s.runs = m.store.runs := by
        rcases Slot.save_eq_ok hs with ⟨-, rfl⟩ | ⟨k, fields, -, -, rfl⟩ <;> rfl
      obtain ⟨hleg, -, -, htraced⟩ := hum.row p (hruns ▸ hp) hpid
      refine ⟨hleg, htraced, fun z hz hzp => ?_⟩
      rcases List.mem_append.mp hz with hz | hz
      · exact absurd (hzp.trans hpid) (hum.quiet z hz)
      · rw [List.mem_singleton.mp hz]
        exact ⟨b, by simp, rfl⟩
  · cases hr
    exact ⟨hm, hstill, (fun h => by cases h),
      fun line hline => hu.halted ((List.prefix_append begun [b]).trans hline)⟩

/-- **A run goes along its line** until it comes to a stop, whatever other runs do meanwhile. -/
theorem paced_runBeats
    (handled : ∀ kind c channel tags,
      Work.Keeps (Steady a rows steps) (onTags kind c channel tags))
    {ctx : Context} (hctx : ctx.runId = l.id) (hid : l.id ∉ active) {line : List Step} :
    ∀ (bs begun : List Beat) {w v : World} {r : Except Fault Progress},
      begun ++ bs = beats none line → Paced a rows steps (l.id :: active) w →
      Underway l begun w → (runBeats settings onTags ctx bs).runOn w = (r, v) →
      Paced a rows steps (l.id :: active) v ∧ Still active w v ∧ Halted l line v
  | [], begun, w, v, r, hline, h, hu, hr => by
    cases hr
    exact ⟨h, Still.refl active _, hu.halted ⟨[], hline⟩⟩
  | b :: rest, begun, w, v, r, hline, h, hu, hr => by
    rw [List.append_cons] at hline
    rw [runBeats, runOn_bind] at hr
    rcases hb : (runBeat settings onTags ctx b).runOn w with ⟨r', m⟩
    obtain ⟨hm, hstill, hgoes, hhalted⟩ := paced_runBeat handled hctx hid h hu hb
    rw [hb] at hr
    rcases r' with fault | _ | _
    · cases hr
      exact ⟨hm, hstill, hhalted line ⟨rest, hline⟩⟩
    · obtain ⟨hv, hstill', hend⟩ :=
        paced_runBeats handled hctx hid rest _ hline hm (hgoes rfl) hr
      exact ⟨hv, hstill.trans hstill', hend⟩
    · cases hr
      exact ⟨hm, hstill, hhalted line ⟨rest, hline⟩⟩

/-- The row of a run that came to a stop is closed. -/
theorem paced_finish (hid : l.id ∉ active) {line : List Step} (e : RunEnd)
    (h : Paced a rows steps (l.id :: active) w) (hhalted : Halted l line w)
    (hv : v = ((transact fun now => RunLog.finish now l.id e).runOn w).2) :
    Paced a rows steps (l.id :: active) v ∧ Still active w v ∧ Halted l line v := by
  rw [run_transact] at hv
  cases hs : (RunLog.finish w.clock l.id e).run w.store with
  | error fault =>
    rw [hs] at hv
    exact hv ▸ ⟨h, Still.refl active w, hhalted⟩
  | ok out =>
    obtain ⟨_, s⟩ := out
    rw [hs] at hv
    subst hv
    rcases RunLog.finish_eq_ok hs with ⟨-, rfl⟩ | ⟨q, -, -, rfl⟩
    · exact ⟨h, Still.refl active w, hhalted⟩
    · obtain ⟨hp, hstill⟩ := h.modify_run hid (f := RunLog.ended w.clock e) fun _ => rfl
      refine ⟨hp, hstill, ?_⟩
      obtain ⟨begun, hbegun, hrows⟩ := hhalted
      refine ⟨begun, hbegun, fun p hp hpid => ?_⟩
      obtain ⟨q, hq, rfl⟩ := Store.mem_runs_modify hp
      by_cases hqid : q.id = l.id
      · rw [if_pos hqid]
        obtain ⟨hleg, hstands⟩ := hrows q hq hqid
        exact ⟨hleg, hstands.trace, hstands.paused⟩
      · rw [if_neg hqid] at hpid
        exact absurd hpid hqid

/-- A run that came to a stop is ended. -/
theorem paced_endRun (hid : l.id ∉ active) {line : List Step} (r : Except Fault Progress)
    (h : Paced a rows steps (l.id :: active) w) (hhalted : Halted l line w) :
    Paced a rows steps (l.id :: active) ((endRun l.id r).runOn w).2
      ∧ Still active w ((endRun l.id r).runOn w).2
      ∧ Halted l line ((endRun l.id r).runOn w).2 := by
  rw [runOn_endRun]
  obtain ⟨hp, hstill, hv⟩ := paced_finish hid (endOf r) (h.concluded ⟨l.id, r⟩) hhalted rfl
  exact ⟨hp, ⟨hstill.runs, hstill.earlier, hstill.pauses⟩, hv⟩

/-- A run is opened, and nothing of it was begun yet. -/
theorem paced_openRun {automationId c : Int} {clientId : Option Int} {data : Value} {id : Int}
    {s : Store} (h : Paced a rows steps active w)
    (hs : (RunLog.openRun w.clock automationId c clientId data).run w.store = .ok (id, s)) :
    id ∉ active ∧ Paced a rows steps (id :: active) { w with store := s }
      ∧ Still active w { w with store := s }
      ∧ Underway (RunLog.opened w.clock automationId c clientId data id).leg []
          { w with store := s } := by
  obtain ⟨rfl, -, rfl⟩ := RunLog.openRun_eq_ok hs
  have hruns : (w.store.insert (RunLog.opened w.clock automationId c clientId data
      (w.store.nextId Run))).runs = w.store.runs ++ [RunLog.opened w.clock automationId c clientId
        data (w.store.nextId Run)] :=
    Store.rows_insert_nextId w.store (RunLog.opened w.clock automationId c clientId data 0)
  have hnew : ∀ p ∈ w.store.runs, p.id ≠ w.store.nextId Run := fun p hp =>
    Int.ne_of_lt (Store.id_lt_nextId hp)
  have hmem : ∀ p ∈ w.store.runs ++ [RunLog.opened w.clock automationId c clientId data
      (w.store.nextId Run)], p ∈ w.store.runs
        ∨ p = RunLog.opened w.clock automationId c clientId data (w.store.nextId Run) := by simp
  have hid : w.store.nextId Run ∉ active := by
    intro hactive
    obtain ⟨p, hp, hpid⟩ := h.present _ hactive
    exact hnew p hp hpid
  refine ⟨hid, ⟨h.spares, ⟨h.retains.automations, h.retains.stepRows, h.retains.stored⟩, ?_, ?_,
    h.slots, ?_⟩, ⟨?_, fun _ hz => hz, fun _ hz _ => hz⟩, ?_, fun z hz hrun => ?_⟩
  · rw [hruns]
    intro n hn
    rcases List.mem_cons.mp hn with rfl | hn
    · exact ⟨_, List.mem_append_right _ (List.mem_singleton_self _), rfl⟩
    · obtain ⟨p, hp, hpid⟩ := h.present n hn
      exact ⟨p, List.mem_append_left _ hp, hpid⟩
  · rw [hruns]
    intro z hz
    obtain ⟨p, hp, hpid⟩ := h.named z hz
    exact ⟨p, List.mem_append_left _ hp, hpid⟩
  · rw [hruns]
    intro p hp ha hn
    rcases hmem p hp with hp | rfl
    · exact h.courses p hp ha fun hactive => hn (List.mem_cons_of_mem _ hactive)
    · exact absurd List.mem_cons_self hn
  · rw [hruns]
    intro p hp hactive
    rcases hmem p hp with hp | rfl
    · exact hp
    · exact absurd hactive hid
  · rw [hruns]
    intro p hp hpid
    rcases hmem p hp with hp | rfl
    · exact absurd hpid (hnew p hp)
    · exact ⟨rfl, rfl, ⟨[], rfl⟩, rfl⟩
  · obtain ⟨p, hp, hpid⟩ := h.named z hz
    exact hnew p hp (hpid.trans hrun)

/-- A run that came to a stop on the line that it set out on is one of those that did. -/
theorem Halted.paced {line : List Step} (hhalted : Halted l line w)
    (h : Paced a rows steps (l.id :: active) w)
    (hsets : l.automationId = a → SetsOut steps w.pauses l.previous line) :
    Paced a rows steps active w := by
  refine ⟨h.spares, h.retains, fun id hid => h.present id (List.mem_cons_of_mem _ hid), h.named,
    h.slots, fun p hp ha hn => ?_⟩
  by_cases hpid : p.id = l.id
  · obtain ⟨begun, hbegun, hrows⟩ := hhalted
    obtain ⟨hleg, hstands⟩ := hrows p hp hpid
    have hprevious : p.previousRun? = l.previous := congrArg Leg.previous hleg
    have hautomation : p.automationId = l.automationId := congrArg Leg.automationId hleg
    exact ⟨line, hprevious ▸ hsets (hautomation.symm.trans ha), begun, hbegun, hstands⟩
  · refine h.courses p hp ha fun hmem => ?_
    rcases List.mem_cons.mp hmem with hmem | hmem
    · exact hpid hmem
    · exact hn hmem

/-- **An execution keeps all runs to their lines**, if its own run sets out on its line. -/
theorem paced_execute
    (handled : ∀ kind c channel tags,
      Work.Keeps (Steady a rows steps) (onTags kind c channel tags))
    {flow : Flow} {c : Int} {data : Value} {instead : Option (List Step)}
    (h : Paced a rows steps active w)
    (hsets : flow.automation.id = a → ∃ line, plan flow instead = .ok line
      ∧ ∀ now c clientId id, SetsOut steps w.pauses
        (RunLog.opened now a c clientId data id).previousRun? line) :
    PacedSince a rows steps active w ((execute settings onTags flow c data instead).runOn w).2 := by
  have he := executed_execute settings onTags flow c data instead w
  generalize (execute settings onTags flow c data instead).runOn w = out at he
  cases he with
  | refused fault => exact ⟨h, Still.refl active w⟩
  | missing => exact ⟨h, Still.refl active w⟩
  | unread thread id s fault loaded opened unreadable =>
    obtain ⟨hid, hp, hstill, hu⟩ := paced_openRun h opened
    have hhalted : Halted _ [] { w with store := s } := hu.halted List.nil_prefix
    refine ⟨hhalted.paced hp fun ha => ?_, hstill⟩
    obtain ⟨line, hplan, -⟩ := hsets ha
    rw [unreadable] at hplan
    cases hplan
  | ran thread id s ss r v loaded opened readable played =>
    obtain ⟨hid, hp, hstill, hu⟩ := paced_openRun h opened
    obtain ⟨hv, hstill', hhalted⟩ := paced_runBeats handled
      (l := (RunLog.opened w.clock flow.automation.id thread.conversation.id
        thread.conversation.clientId data id).leg) rfl hid _ [] (List.nil_append _) hp hu played
    obtain ⟨hend, hstill'', hhalted'⟩ := paced_endRun hid r hv hhalted
    have hafter := (hstill.trans hstill').trans hstill''
    rw [snd_runOn_endRun]
    refine ⟨hhalted'.paced hend fun ha => ?_, hafter⟩
    obtain ⟨line, hplan, hline⟩ := hsets ha
    obtain rfl := Except.ok.inj (hplan.symm.trans readable)
    have := hline w.clock thread.conversation.id thread.conversation.clientId id
    rw [← ha] at this
    exact this.mono hafter.earlier

/-! ## Events -/

section

variable (hsteps : Step.parseSteps (rows.map StepRow.draft) = .ok steps)

include hsteps

/-- A run that an event sets off sets out on all steps. -/
theorem steady_execute
    (handled : ∀ kind c channel tags,
      Work.Keeps (Steady a rows steps) (onTags kind c channel tags))
    (event : Event) {flow : Flow} (hflow : flow.automation.id = a → flow.rows = rows) :
    Work.Keeps (Steady a rows steps)
      (execute settings onTags flow event.conversationId (.object event.triggerData) none) := by
  intro w active h
  refine paced_execute handled h fun ha => ⟨steps, ?_, fun now c clientId id => ?_⟩
  · show Step.parseSteps (flow.rows.map StepRow.draft) = .ok steps
    rw [hflow ha]
    exact hsteps
  · rw [previousRun?_of_event]
    rfl

theorem steady_dispatchWith
    (handled : ∀ kind c channel tags,
      Work.Keeps (Steady a rows steps) (onTags kind c channel tags))
    (event : Event) :
    Work.Keeps (Steady a rows steps) (dispatchWith settings onTags event) := by
  intro w active h
  have hnow : PacedSince a rows steps active w w := ⟨h, Still.refl active w⟩
  refine Work.Keeps.eq_bind (.reads (Transaction.reads_matching event)) hnow fun flows hflows => ?_
  have hstored : ∀ flow ∈ flows, flow.automation.id = a → flow.rows = rows := by
    intro flow hflow ha
    obtain ⟨s, hmatching, -⟩ := runOn_query_eq_ok.mp hflows
    have hrows : flow.rows = w.store.stepsOf flow.automation.id :=
      congrArg Flow.rows ((Flow.stored_of_matching hmatching).2 flow hflow).2
    rw [hrows, ha]
    exact h.retains.stored
  exact keeps_fireAll (fun w m _ => Steady.of_memory w m) flows
    (fun flow hflow => steady_execute hsteps handled event (hstored flow hflow)) w active h

theorem steady_chained (kind : EventKind) (c channel : Int) (tags : List Int) :
    Work.Keeps (Steady a rows steps) (chained settings kind c channel tags) :=
  keeps_chained (fun event _ => steady_dispatchWith hsteps keeps_quiet event) kind channel tags

theorem steady_dispatch (event : Event) :
    Work.Keeps (Steady a rows steps) (dispatch settings event) :=
  steady_dispatchWith hsteps (steady_chained hsteps) event

/-- **A run that goes on from a suspension sets out behind the step that it waited at.** -/
theorem steady_resume (c : Int) : Work.Keeps (Steady a rows steps) (resume settings c) := by
  intro w active h
  have hnow : PacedSince a rows steps active w w := ⟨h, Still.refl active w⟩
  refine resume_induct (fun _ _ => hnow) (fun t s htake => ?_) ?_
  · obtain ⟨hafter, hstill, -⟩ := h.take htake
    exact ⟨hafter, hstill⟩
  intro t s flow remaining hyields
  obtain ⟨steps', hsteps', hremaining⟩ := hyields.ripe.after
  obtain ⟨hafter, hstill, htaken⟩ := h.take hyields.taken
  obtain ⟨z, hz, hrun, hstep⟩ := htaken t rfl
  have hsets : flow.automation.id = a → ∃ line, plan flow (some remaining) = .ok line
      ∧ ∀ now c clientId id, SetsOut steps w.pauses
        (RunLog.opened now a c clientId (.object (resumeData t)) id).previousRun? line := by
    intro ha
    refine ⟨remaining, rfl, fun now c' clientId id => ?_⟩
    rw [previousRun?_of_suspension]
    have hflow : flow.rows = rows := by
      rw [hyields.ripe.rows, ← hyields.ripe.own, ha]
      exact hafter.retains.stored
    rw [Flow.steps, hflow, hsteps] at hsteps'
    obtain rfl := Except.ok.inj hsteps'
    exact ⟨z, hz, hrun, hstep ▸ hremaining⟩
  obtain ⟨hv, hstill'⟩ := paced_execute (steady_chained hsteps) hafter hsets
  exact ⟨hv, hstill.trans hstill'⟩

end

/-- **Everything that can come to the engine keeps runs to their lines.** -/
theorem steady_handle (hsteps : Step.parseSteps (rows.map StepRow.draft) = .ok steps)
    (o : Occurrence) : Work.Keeps (Steady a rows steps) (o.handle settings) :=
  keeps_handle o (fun event _ => steady_dispatch hsteps event) (steady_resume hsteps _)

end Engine

/-! ## Chronicles without edits -/

/-- The worlds that a fresh one can become while the steps of an automation are not edited, by
events in any order and what else happens between them. -/
inductive Unedited (a : Int) (rows : List StepRow) : World → Prop
  | start {w : World} (h : w.Fresh) (nothing : w.pauses = []) (retains : w.Retains a rows) :
      Unedited a rows w
  | event {w : World} (settings : Settings) (o : Engine.Occurrence) (h : Unedited a rows w) :
      Unedited a rows ((o.handle settings).runOn w).2
  | meanwhile {w v : World} (h : Unedited a rows w) (hv : w.Meanwhile v)
      (retains : v.Retains a rows) : Unedited a rows v

namespace Unedited

open World

variable {a : Int} {rows : List StepRow} {steps : List Step} {w : World}

/-- In a chronicle without edits all runs went along their lines. -/
theorem paced (hsteps : Step.parseSteps (rows.map StepRow.draft) = .ok steps)
    (h : Unedited a rows w) : Paced a rows steps [] w := by
  induction h with
  | @start w h nothing retains =>
    exact
      { spares := h.spares
        retains
        present := by simp
        named := by simp [nothing]
        slots := fun c x hx => by simp [h.slots] at hx
        courses := by simp [h.runs] }
  | event settings o _ ih => exact (steady_handle hsteps o _ [] ih).1
  | meanwhile _ hv retains ih =>
    exact
      { spares := hv.spares
        retains
        present := by simp
        named := by rw [hv.runs, hv.pauses]; exact ih.named
        slots := fun c x hx => by rw [hv.pauses]; exact ih.slots c x (hv.slots c x hx)
        courses := by rw [hv.runs, hv.pauses]; exact ih.courses }

/-- What leaves alone runs, steps and slots, the script and the record of pauses is no edit. -/
theorem untouched (hsteps : Step.parseSteps (rows.map StepRow.draft) = .ok steps) {v : World}
    (h : Unedited a rows w) (hscript : v.rehearsal = w.rehearsal)
    (hrows : v.store.steps = w.store.steps) (hruns : v.store.runs = w.store.runs)
    (hslots : ∀ c x, v.store.slot? c = some x → w.store.slot? c = some x)
    (hpauses : v.pauses = w.pauses) : Unedited a rows v := by
  have hpaced := h.paced hsteps
  refine .meanwhile h ⟨hruns, hslots, hpauses, hscript ▸ hpaced.spares⟩ ?_
  exact
    { automations := hscript ▸ hpaced.retains.automations
      stepRows := hscript ▸ hpaced.retains.stepRows
      stored := (Store.stepsOf_congr hrows a).trans hpaced.retains.stored }

/-- **Runs that go on make headway.** Of runs of an automation of which each goes on from the one
before, every one begins steps of the top level that come later by `order` than the one at which the
run before it stopped. So all in all no step is begun twice, the steps come in their order, and the
runs that go on from others are no more than the distinct orders. What was begun is told by the
traces. -/
theorem makes_headway (h : Unedited a rows w)
    (hsteps : Step.parseSteps (rows.map StepRow.draft) = .ok steps)
    (distinct : (steps.map fun s => s.head.stepId).Nodup) {first : Run} {rest : List Run}
    (runs : ∀ p ∈ first :: rest, p ∈ w.store.runs ∧ p.automationId = a)
    (chain : (first :: rest).IsChain fun p q => q.previousRun? = some p.id) :
    ∃ legs, Strides w.pauses (first :: rest) legs
      ∧ legs.flatten.Sublist steps
      ∧ (legs.flatten.map fun s => s.head.stepId).Nodup
      ∧ InOrder rows steps
      ∧ rest.length ≤ (steps.map fun s => s.head.order).dedup.length
      ∧ ∀ others, Strides w.pauses (first :: rest) others → others.flatten ⊆ steps →
          others = legs := by
  have hordered := inOrder_of_parseSteps hsteps
  have courses : ∀ p ∈ first :: rest, Course steps w.pauses p := fun p hp =>
    (h.paced hsteps).courses p (runs p hp).1 (runs p hp).2 (by simp)
  obtain ⟨line, hsets, hwent⟩ := courses first List.mem_cons_self
  obtain ⟨legs, hstrides, hsub, hlen⟩ := strides_of_went distinct (orders_pairwise hordered) rest
    hsets hwent (fun q hq => courses q (List.mem_cons_of_mem first hq)) chain
  have hall : legs.flatten.Sublist steps := hsub.trans hsets.covers.1
  have horders : (line.map fun s => s.head.order).dedup.length
      ≤ (steps.map fun s => s.head.order).dedup.length := by
    refine (List.subperm_of_subset (List.nodup_dedup _) fun n hn => ?_).length_le
    rw [List.mem_dedup] at hn ⊢
    exact (hsets.covers.1.map _).subset hn
  exact ⟨legs, hstrides, hall, distinct.sublist (hall.map _), hordered, Nat.le_trans hlen horders,
    fun others h' hothers => h'.unique distinct hstrides hothers hall.subset⟩

/-! ### A run that is gone on from twice -/

/-- The steps: a group that waits until the client is new, a step with the same `order`, one that
waits for a tag, and a last one. -/
def stages : List StepRow :=
  let row (id : Int) (stepId kind : String) (order : Int) (config : Value) : StepRow :=
    { id, automationId := 1, stepId, kind, config, position := .null, order, nextStepId := none,
      trueStepId := none, falseStepId := none }
  let awaits (kind value : String) : Value :=
    .object [("condition_type", .str kind), ("condition_value", .str value)]
  [row 1 "welcome" "group" 1 (.object [("steps", .list [.object
      [("type", .str "condition"), ("config", awaits "is_new_client" "")]])]),
    row 2 "beside" "delay" 1 .null,
    row 3 "known" "condition" 2 (awaits "has_tag" "5"),
    row 4 "farewell" "close_conversation" 3 .null]

/-- A conversation in which the steps are to be carried out. -/
def foyer : World :=
  { store :=
      { conversations :=
          [{ id := 1, channelId := 1, clientId := none, operatorId := none, status := "open",
             metadata := .null, unreadCount := 0, lastMessageAt := none }]
        automations :=
          [{ id := 1, name := "stages", description := none, channelId := none,
             trigger := "new_conversation", triggerConfig := .null, isActive := true }]
        steps := stages } }

/-- The foyer once its conversation has begun. -/
def greeted : World :=
  (((Engine.Occurrence.dispatched
    { kind := .newConversation, conversationId := 1, channelId := 1 }).handle {}).runOn foyer).2

/-- The same when the client is known. -/
def met : World :=
  { greeted with
    store :=
      { greeted.store.modify Conversation 1 fun c => { c with clientId := some 1 } with
        clients := [⟨1, none, none, none, none, .null⟩] } }

/-- The same when the conversation was looked at again. -/
def seated : World := (((Engine.Occurrence.lookedAt 1).handle {}).runOn met).2

/-- The same when the client has the tag. -/
def tagged : World :=
  { seated with
    store := { seated.store with tags := [⟨5, "regular", "#000000"⟩], memberships := [⟨1, 5⟩] } }

/-- The same when the conversation was looked at once more. -/
def served : World := (((Engine.Occurrence.lookedAt 1).handle {}).runOn tagged).2

theorem foyer_fresh : foyer.Fresh where
  runs := rfl
  slots c := by
    by_cases h : (1 : Int) = c
    · subst h
      rfl
    · exact Store.slot?_of_none (by simp [Store.find?, Row.rows, Row.id, foyer, h])
  spares := by simp [Rehearsal.Spares, foyer]

/-- The ids of the stages in their order. -/
theorem ids_of_stages : (Step.parseSteps (stages.map StepRow.draft)).map
    (fun steps => steps.map fun s => s.head.stepId)
      = .ok ["welcome", "beside", "known", "farewell"] := by decide +kernel

theorem served_of_foyer (hsteps : Step.parseSteps (stages.map StepRow.draft) = .ok steps) :
    Unedited 1 stages served := by
  have hfoyer : foyer.Retains 1 stages :=
    { automations := by simp [Rehearsal.Spares, foyer]
      stepRows := by simp [Rehearsal.Spares, foyer]
      stored := by decide +kernel }
  have hgreeted : Unedited 1 stages greeted :=
    .event {} (.dispatched _) (.start foyer_fresh rfl hfoyer)
  have hslots : ∀ c x, met.store.slot? c = some x → greeted.store.slot? c = some x := by
    intro c x hx
    have h : met.store.slot? c = greeted.store.slot? c :=
      Store.slot?_modify greeted.store 1 c (fun _ => rfl) fun _ => rfl
    exact h ▸ hx
  have hmet : Unedited 1 stages met := hgreeted.untouched hsteps rfl rfl rfl hslots rfl
  have hseated : Unedited 1 stages seated := .event {} (.lookedAt 1) hmet
  have htagged : Unedited 1 stages tagged :=
    hseated.untouched hsteps rfl rfl rfl (fun _ _ h => h) rfl
  exact .event {} (.lookedAt 1) htagged

/-- In the foyer three runs go on from each other; the step that stands beside the first one is
never begun. -/
theorem makes_headway_foyer : ∃ p q r legs steps, served.store.runs = [p, q, r]
    ∧ q.previousRun? = some p.id ∧ r.previousRun? = some q.id
    ∧ Step.parseSteps (stages.map StepRow.draft) = .ok steps
    ∧ Strides served.pauses [p, q, r] legs ∧ legs.flatten.Sublist steps := by
  have hids := ids_of_stages
  have hruns : served.store.runs.map (fun p => (p.id, p.automationId, p.previousRun?))
      = [(1, 1, none), (2, 1, some 1), (3, 1, some 2)] := by decide +kernel
  cases hsteps : Step.parseSteps (stages.map StepRow.draft) with
  | error fault =>
    rw [hsteps] at hids
    cases hids
  | ok steps =>
    rw [hsteps] at hids
    have hids : (steps.map fun s => s.head.stepId) = ["welcome", "beside", "known", "farewell"] :=
      Except.ok.inj hids
    have distinct : (steps.map fun s => s.head.stepId).Nodup := by
      rw [hids]
      decide
    obtain ⟨p, _, hall, hp, hrest⟩ := List.map_eq_cons_iff.mp hruns
    obtain ⟨q, _, rfl, hq, hrest⟩ := List.map_eq_cons_iff.mp hrest
    obtain ⟨r, _, rfl, hr, hrest⟩ := List.map_eq_cons_iff.mp hrest
    obtain rfl := List.map_eq_nil_iff.mp hrest
    simp only [Prod.mk.injEq] at hp hq hr
    have runs : ∀ x ∈ [p, q, r], x ∈ served.store.runs ∧ x.automationId = 1 := by
      simp [hall, hp.2.1, hq.2.1, hr.2.1]
    have chain : [p, q, r].IsChain fun x y => y.previousRun? = some x.id := by
      simp [hp.1, hq.1, hq.2.2, hr.2.2]
    obtain ⟨legs, hstrides, hsub, -⟩ :=
      makes_headway (served_of_foyer hsteps) hsteps distinct runs chain
    exact ⟨p, q, r, legs, steps, hall, by rw [hq.2.2, hp.1], by rw [hr.2.2, hq.1], rfl, hstrides,
      hsub⟩

end Unedited

end Deskflow
