import Deskflow.Proofs.Simulation
import Mathlib.Data.List.Forall2
import Mathlib.Data.List.Nodup

/-!
# Twin stores

Two stores are twins if they differ in nothing but the trace of one run, from which some entries are
left out in the second one. Nothing that steps do tells them apart as long as they are a pair
(`Store.Paired`): runs have ids of their own, and the trace of the run can be read if it is open. So
they are a likeness, and whole events are abreast in them.

* `Thinned`: a list from which some entries are left out.
* `Store.Twin`, `Store.Paired`: nothing else is different.
* `abreast_openRun`, `abreast_append`, `abreast_finish`: the log is written in the same way in both.
* `Store.Paired.noted`: a note that is made in the first one alone.
* `Store.append_of_not_takesNotes`: where none can be made.
-/

namespace Deskflow

/-! ## Traces with entries left out -/

/-- A list, and the same from which some of the entries that can be spared are left out. -/
inductive Thinned {α : Type} (spare : α → Prop) : List α → List α → Prop
  | nil : Thinned spare [] []
  | keep (a : α) {xs ys : List α} (h : Thinned spare xs ys) : Thinned spare (a :: xs) (a :: ys)
  | drop {a : α} (ha : spare a) {xs ys : List α} (h : Thinned spare xs ys) :
    Thinned spare (a :: xs) ys

namespace Thinned

variable {α : Type} {spare : α → Prop} {xs ys : List α}

theorem refl : ∀ xs : List α, Thinned spare xs xs
  | [] => .nil
  | a :: xs => .keep a (refl xs)

theorem append (h : Thinned spare xs ys) {xs' ys' : List α} (h' : Thinned spare xs' ys') :
    Thinned spare (xs ++ xs') (ys ++ ys') := by
  induction h with
  | nil => exact h'
  | keep a _ ih => exact .keep a ih
  | drop ha _ ih => exact .drop ha ih

end Thinned

/-- A run, and the same with a thinner trace. -/
structure Run.Thins (spare : Value → Prop) (r q : Run) : Prop where
  rest : q = { r with stepsExecuted := q.stepsExecuted }
  trace : ∃ xs ys, RunLog.entriesOf r.stepsExecuted = .ok xs
    ∧ RunLog.entriesOf q.stepsExecuted = .ok ys ∧ Thinned spare xs ys

/-- A run is the same in both stores, or is the one with the id, with a thinner trace. -/
def Run.Twin (id : Int) (spare : Value → Prop) (r q : Run) : Prop :=
  r = q ∨ r.id = id ∧ r.Thins spare q

/-- Stores that differ in nothing but the trace of one run. -/
structure Store.Twin (id : Int) (spare : Value → Prop) (s t : Store) : Prop where
  rest : t = s.withRuns t.runs
  runs : List.Forall₂ (Run.Twin id spare) s.runs t.runs

/-- The entries of a run, if it is open, can be read. -/
def Store.Legible (s : Store) (id : Int) : Prop :=
  ∀ r ∈ s.runs, r.id = id → r.status = RunLog.running →
    ∃ xs, RunLog.entriesOf r.stepsExecuted = .ok xs

/-- Twins in which runs have ids of their own and the entries of the run can be read, if it is
open. -/
structure Store.Paired (id : Int) (spare : Value → Prop) (s t : Store) : Prop
    extends s.Twin id spare t where
  keys : (s.runs.map Run.id).Nodup
  legible : s.Legible id

namespace Run.Twin

variable {id : Int} {spare : Value → Prop} {r q : Run}

theorem rest (h : Run.Twin id spare r q) : q = { r with stepsExecuted := q.stepsExecuted } := by
  rcases h with rfl | ⟨-, h⟩
  · rfl
  · exact h.rest

theorem id_eq (h : Run.Twin id spare r q) : q.id = r.id := by rw [h.rest]

theorem status_eq (h : Run.Twin id spare r q) : q.status = r.status := by rw [h.rest]

/-- The entries of both can be read, or of neither. -/
theorem entries (h : Run.Twin id spare r q) :
    (∃ fault, RunLog.entriesOf r.stepsExecuted = .error fault
      ∧ RunLog.entriesOf q.stepsExecuted = .error fault)
    ∨ ∃ xs ys, RunLog.entriesOf r.stepsExecuted = .ok xs
      ∧ RunLog.entriesOf q.stepsExecuted = .ok ys ∧ Thinned spare xs ys
      ∧ (r.id ≠ id → xs = ys) := by
  rcases h with rfl | ⟨hid, h⟩
  · cases he : RunLog.entriesOf r.stepsExecuted with
    | error fault => exact .inl ⟨fault, rfl, rfl⟩
    | ok xs => exact .inr ⟨xs, xs, rfl, rfl, .refl xs, fun _ => rfl⟩
  · obtain ⟨xs, ys, hxs, hys, hthin⟩ := h.trace
    exact .inr ⟨xs, ys, hxs, hys, hthin, fun hne => absurd hid hne⟩

/-- Twins end as twins, -/
theorem ended (h : Run.Twin id spare r q) (now : Moment) (how : RunEnd) :
    Run.Twin id spare (RunLog.ended now how r) (RunLog.ended now how q) := by
  rcases h with rfl | ⟨hid, h⟩
  · exact .inl rfl
  · refine .inr ⟨hid, ?_, h.trace⟩
    rw [h.rest]
    rfl

/-- and are left as twins by a note that is made in both. -/
theorem withStep (h : Run.Twin id spare r q) {xs ys : List Value} (hthin : Thinned spare xs ys)
    (hsame : r.id ≠ id → xs = ys) (entry : Value) :
    Run.Twin id spare (RunLog.withStep xs entry r) (RunLog.withStep ys entry q) := by
  by_cases hid : r.id = id
  · refine .inr ⟨hid, ?_, xs ++ [entry], ys ++ [entry], RunLog.entriesOf_list _,
      RunLog.entriesOf_list _, hthin.append (.refl _)⟩
    rw [h.rest]
    rfl
  · rcases h with rfl | ⟨hrid, -⟩
    · rw [hsame hid]
      exact .inl rfl
    · exact absurd hrid hid

/-- A note that can be spared can be made in the first one alone. -/
theorem withSpare (h : Run.Twin id spare r q) (hid : r.id = id) {xs : List Value}
    (hxs : RunLog.entriesOf r.stepsExecuted = .ok xs) {entry : Value} (hentry : spare entry) :
    Run.Twin id spare (RunLog.withStep xs entry r) q := by
  rcases h.entries with ⟨fault, hfault, -⟩ | ⟨_, ys, hxs', hys, hthin, -⟩
  · rw [hxs] at hfault
    cases hfault
  · obtain rfl := Except.ok.inj (hxs.symm.trans hxs')
    refine .inr ⟨hid, ?_, xs ++ [entry], ys, RunLog.entriesOf_list _, hys, ?_⟩
    · rw [h.rest]
      rfl
    · simpa using hthin.append (.drop hentry .nil)

end Run.Twin

namespace Store

variable {id : Int} {spare : Value → Prop} {s t : Store}

theorem Twin.refl (s : Store) : s.Twin id spare s :=
  ⟨rfl, List.forall₂_same.mpr fun _ _ => .inl rfl⟩

theorem Twin.absent (h : s.Twin id spare t) : t.absent = s.absent := by
  rw [h.rest]
  rfl

theorem Twin.ids (h : s.Twin id spare t) : t.runs.map Run.id = s.runs.map Run.id := by
  have hruns := h.runs
  generalize s.runs = rs at hruns
  generalize t.runs = qs at hruns
  induction hruns with
  | nil => rfl
  | cons hrq _ ih => rw [List.map_cons, List.map_cons, ih, hrq.id_eq]

/-- The next run that is opened gets the same id in both stores. -/
theorem Twin.nextId (h : s.Twin id spare t) : t.nextId Run = s.nextId Run := by
  unfold Store.nextId
  rw [show (Row.rows t : List Run).map Row.id = (Row.rows s : List Run).map Row.id from h.ids]

/-- A run is found in both stores, or in neither. -/
theorem Twin.find? (h : s.Twin id spare t) (i : Int) :
    (s.find? Run i = none ∧ t.find? Run i = none)
    ∨ ∃ r q, s.find? Run i = some r ∧ t.find? Run i = some q ∧ Run.Twin id spare r q := by
  have hruns := h.runs
  show (s.runs.find? _ = none ∧ t.runs.find? _ = none)
    ∨ ∃ r q, s.runs.find? _ = some r ∧ t.runs.find? _ = some q ∧ Run.Twin id spare r q
  generalize s.runs = rs at hruns
  generalize t.runs = qs at hruns
  induction hruns with
  | nil => exact .inl ⟨rfl, rfl⟩
  | @cons r q _ _ hrq _ ih =>
    by_cases hi : r.id = i
    · refine .inr ⟨r, q, ?_, ?_, hrq⟩
      · simp [Row.id, hi]
      · simp [Row.id, hrq.id_eq, hi]
    · simpa [Row.id, hrq.id_eq, hi] using ih

/-- What is done to the run of an id in both stores, if it leaves that run a twin. -/
theorem Twin.modify (h : s.Twin id spare t) {i : Int} {f g : Run → Run}
    (hfg : ∀ r ∈ s.runs, ∀ q, r.id = i → Run.Twin id spare r q → Run.Twin id spare (f r) (g q)) :
    (s.modify Run i f).Twin id spare (t.modify Run i g) where
  rest := by
    rw [h.rest]
    rfl
  runs := by
    have hruns := h.runs
    show List.Forall₂ _ (s.runs.map fun r => if r.id == i then f r else r)
      (t.runs.map fun r => if r.id == i then g r else r)
    generalize s.runs = rs at hruns hfg
    generalize t.runs = qs at hruns
    induction hruns with
    | nil => exact .nil
    | @cons r q _ _ hrq _ ih =>
      refine .cons ?_ (ih fun r hr => hfg r (List.mem_cons_of_mem _ hr))
      by_cases hi : r.id = i
      · simpa [hrq.id_eq, hi] using hfg r List.mem_cons_self q hi hrq
      · simpa [hrq.id_eq, hi] using hrq

/-- A change of runs that leaves their ids alone leaves their keys alone, -/
theorem keys_modify_run (s : Store) (i : Int) {f : Run → Run} (hf : ∀ r, (f r).id = r.id) :
    (s.modify Run i f).runs.map Run.id = s.runs.map Run.id := by
  show (s.runs.map fun r => if r.id == i then f r else r).map Run.id = _
  rw [List.map_map]
  refine List.map_congr_left fun r _ => ?_
  rw [Function.comp_apply]
  split
  · exact hf r
  · rfl

/-- and one that leaves the entries of a run legible leaves the log so. -/
theorem Legible.modify (h : s.Legible id) {i : Int} {f : Run → Run}
    (hf : ∀ r, (f r).status = RunLog.running →
      ∃ xs, RunLog.entriesOf (f r).stepsExecuted = .ok xs) :
    (s.modify Run i f).Legible id := by
  intro r hr
  have hr : r ∈ s.runs.map fun r => if r.id == i then f r else r := hr
  obtain ⟨q, hq, rfl⟩ := List.mem_map.mp hr
  split
  · exact fun _ hopen => hf q hopen
  · exact h q hq

/-- A run that gets the next id comes last. -/
theorem runs_insert {row : Run} (h : row.id = s.nextId Run) :
    (s.insert row).runs = s.runs ++ [row] := by
  have hrows := rows_insert_nextId s row
  rwa [← h] at hrows

namespace Paired

theorem refl (hkeys : (s.runs.map Run.id).Nodup) (hlegible : s.Legible id) :
    s.Paired id spare s := ⟨.refl s, hkeys, hlegible⟩

/-- Whatever is done to stores without regard to their runs, they stay a pair. -/
theorem of_runs (h : s.Paired id spare t) {u : Store} (hu : u.runs = s.runs) :
    u.Paired id spare (u.withRuns t.runs) where
  rest := rfl
  runs := hu ▸ h.runs
  keys := hu ▸ h.keys
  legible := by
    unfold Legible
    rw [hu]
    exact h.legible

theorem modify (h : s.Paired id spare t) {i : Int} {f g : Run → Run}
    (hid : ∀ r, (f r).id = r.id)
    (hlegible : ∀ r, (f r).status = RunLog.running →
      ∃ xs, RunLog.entriesOf (f r).stepsExecuted = .ok xs)
    (hfg : ∀ r ∈ s.runs, ∀ q, r.id = i → Run.Twin id spare r q → Run.Twin id spare (f r) (g q)) :
    (s.modify Run i f).Paired id spare (t.modify Run i g) where
  toTwin := h.toTwin.modify hfg
  keys := by
    rw [keys_modify_run s i hid]
    exact h.keys
  legible := h.legible.modify hlegible

theorem insert (h : s.Paired id spare t) {row : Run} (hid : row.id = s.nextId Run)
    (hlegible : ∃ xs, RunLog.entriesOf row.stepsExecuted = .ok xs) :
    (s.insert row).Paired id spare (t.insert row) := by
  have hs := runs_insert hid
  have ht := runs_insert (hid.trans h.nextId.symm)
  exact
    { rest := by
        rw [h.rest]
        rfl
      runs := by
        rw [hs, ht]
        exact List.rel_append h.runs (.cons (.inl rfl) .nil)
      keys := by
        rw [hs, List.map_append]
        refine h.keys.append (by simp) fun i hi hi' => ?_
        obtain rfl : i = row.id := by simpa using hi'
        obtain ⟨r, hr, heq⟩ := List.mem_map.mp hi
        exact absurd (heq.trans hid) (Int.ne_of_lt (id_lt_nextId (ρ := Run) hr))
      legible := by
        intro r hr
        rw [hs] at hr
        rcases List.mem_append.mp hr with hr | hr
        · exact h.legible r hr
        · obtain rfl := List.mem_singleton.mp hr
          exact fun _ _ => hlegible }

theorem deleteRow (h : s.Paired id spare t) (i : Int) (table : Table) :
    (s.deleteRow i table).Paired id spare (t.deleteRow i table) := by
  have hrest := h.rest
  cases table with
  | automationRuns =>
    exact
      { rest := by
          rw [hrest]
          rfl
        runs := by
          have hruns := h.runs
          show List.Forall₂ _ (s.runs.filter fun r => r.id != i) (t.runs.filter fun r => r.id != i)
          generalize s.runs = rs at hruns
          generalize t.runs = qs at hruns
          induction hruns with
          | nil => exact .nil
          | @cons r q _ _ hrq _ ih =>
            by_cases hi : r.id = i
            · simpa [hrq.id_eq, hi] using ih
            · simpa [hrq.id_eq, hi] using ⟨hrq, ih⟩
        keys := h.keys.sublist (List.filter_sublist.map Run.id)
        legible := fun r hr => h.legible r (List.mem_of_mem_filter hr) }
  | _ =>
    rw [hrest]
    exact h.of_runs rfl

end Paired

end Store

/-! ## Twins are alike -/

namespace Transaction

variable {id : Int} {spare : Value → Prop}

instance : Store.Lookalike (Store.Paired id spare) where
  retouched {_ t} h := ⟨.relog t.runs, h.rest, fun _ hu => h.of_runs hu⟩

/-- A run is opened under the same id in both stores. -/
theorem abreast_openRun (now : Moment) (automationId conversationId : Int) (clientId : Option Int)
    (triggerData : Value) :
    Abreast (Store.Paired id spare)
      (RunLog.openRun now automationId conversationId clientId triggerData)
      (RunLog.openRun now automationId conversationId clientId triggerData) := by
  refine .bind (.unaware (unaware_need _)) fun _ => .bind (.unaware (unaware_fit _)) fun _ => ?_
  refine .bind (.unaware (unaware_fit _)) fun _ => .bind (.unaware (unaware_fit? _)) fun _ => ?_
  refine .bind (fun s t h => ?_) fun _ => .pure _
  rw [run_add, run_add, h.absent, h.nextId]
  split
  · exact .fault _
  · exact .value _ (h.insert rfl ⟨[], rfl⟩)

/-- A run is loaded in both stores, or in neither. -/
theorem abreast_load_bind {α : Type} {f : Option Run → Transaction α} (i : Int)
    (missing : Abreast (Store.Paired id spare) (f none) (f none))
    (found : ∀ r q, r.id = i → Run.Twin id spare r q →
      Abreast (Store.Paired id spare) (f (some r)) (f (some q))) :
    Abreast (Store.Paired id spare) (load Run i >>= f) (load Run i >>= f) := by
  intro s t h
  rw [StateT.run_bind, StateT.run_bind, run_load, run_load, h.absent]
  split
  · exact .fault _
  split
  · rcases h.find? i with ⟨hs, ht⟩ | ⟨r, q, hs, ht, hrq⟩ <;> rw [hs, ht]
    · exact missing s t h
    · exact found r q (Store.id_of_find? hs) hrq s t h
  · exact .fault _

/-- A step is noted in the run of an id in both stores, or in neither. -/
theorem abreast_append (now : Moment) (i : Int) (stepId kind : String) :
    Abreast (Store.Paired id spare) (RunLog.append now i stepId kind)
      (RunLog.append now i stepId kind) := by
  refine abreast_load_bind i (.pure _) fun r q hr hrq => ?_
  dsimp only
  rw [hrq.status_eq]
  split
  · exact .pure _
  rcases hrq.entries with ⟨fault, hxs, hys⟩ | ⟨xs, ys, hxs, hys, hthin, hsame⟩ <;> rw [hxs, hys]
  · exact fun _ _ _ => .fault fault
  · refine fun s t h => .value () (h.modify (fun _ => rfl)
      (fun _ _ => ⟨_, RunLog.entriesOf_list _⟩) fun p _ p' hid hpp' => ?_)
    exact hpp'.withStep hthin (fun hne => hsame fun hrid => hne (hid.trans (hr ▸ hrid))) _

theorem abreast_finish (now : Moment) (i : Int) (how : RunEnd) :
    Abreast (Store.Paired id spare) (RunLog.finish now i how) (RunLog.finish now i how) := by
  refine abreast_load_bind i (.pure _) fun r q _ hrq => ?_
  dsimp only
  rw [hrq.status_eq]
  split
  · exact .pure _
  · exact fun s t h => .value () (h.modify (fun _ => rfl)
      (fun p hopen => absurd hopen (RunLog.status_ended_ne now how p))
      fun _ _ _ _ hpp' => hpp'.ended now how)

end Transaction

/-- Twins are told apart by nothing that steps do, as long as they are a pair. -/
instance {id : Int} {spare : Value → Prop} : Store.Likeness (Store.Paired id spare) where
  deletes i table h := h.deleteRow i table
  opens := Transaction.abreast_openRun
  appends := Transaction.abreast_append
  finishes := Transaction.abreast_finish

/-! ## Notes -/

/-- Steps of a run can be noted in a store. -/
structure Store.TakesNotes (s : Store) (id : Int) : Prop where
  table : s.absent.contains .automationRuns = false
  fits : Transaction.fits id = true
  legible : s.Legible id

namespace Store

variable {id : Int} {s : Store}

/-- The run of an id is found where runs have ids of their own. -/
theorem find?_of_mem_runs (hkeys : (s.runs.map Run.id).Nodup) {r : Run} (hr : r ∈ s.runs) :
    s.find? Run r.id = some r := by
  cases hfind : s.find? Run r.id with
  | none =>
    have := List.find?_eq_none.mp hfind r hr
    simp [Row.id] at this
  | some q =>
    rw [List.inj_on_of_nodup_map hkeys (List.mem_of_find?_eq_some hfind) hr (id_of_find? hfind)]

/-- Where steps of a run cannot be noted, none of them is: whichever it is, it meets the same fault.
-/
theorem append_of_not_takesNotes (hkeys : (s.runs.map Run.id).Nodup) (h : ¬s.TakesNotes id) :
    ∃ fault, ∀ now stepId kind, (RunLog.append now id stepId kind).run s = .error fault := by
  cases htable : s.absent.contains (Row.table Run) with
  | true =>
    refine ⟨.tableMissing (Row.table Run).name, fun now stepId kind => ?_⟩
    rw [RunLog.append, StateT.run_bind, Transaction.run_load, htable]
    rfl
  | false =>
    cases hfits : Transaction.fits id with
    | false =>
      refine ⟨.integerRange, fun now stepId kind => ?_⟩
      rw [RunLog.append, StateT.run_bind, Transaction.run_load, htable, hfits]
      rfl
    | true =>
      obtain ⟨r, hr, hopen, fault, hfault⟩ : ∃ r, s.find? Run id = some r
          ∧ r.status = RunLog.running
          ∧ ∃ fault, RunLog.entriesOf r.stepsExecuted = .error fault := by
        by_contra hnone
        refine h ⟨htable, hfits, fun r hr hid hopen => ?_⟩
        cases hentries : RunLog.entriesOf r.stepsExecuted with
        | ok xs => exact ⟨xs, rfl⟩
        | error fault =>
          exact absurd ⟨r, hid ▸ find?_of_mem_runs hkeys hr, hopen, fault, hentries⟩ hnone
      refine ⟨fault, fun now stepId kind => ?_⟩
      rw [RunLog.append, StateT.run_bind, Transaction.run_load_of_fits htable hfits, hr]
      show (if r.status ≠ RunLog.running then _ else _ : Transaction Unit).run s = _
      rw [if_neg (not_not_intro hopen), hfault]
      rfl

/-- A change of runs that changes nothing. -/
theorem modify_run_id (s : Store) (i : Int) : (s.modify Run i fun r => r) = s := by
  show { s with runs := s.runs.map fun r => if r.id == i then r else r } = s
  simp

/-- A note that can be spared is made in the first of a pair alone. -/
theorem Paired.noted {spare : Value → Prop} {t : Store} (h : s.Paired id spare t)
    (htable : s.absent.contains .automationRuns = false) (hfits : Transaction.fits id = true)
    {now : Moment} {stepId kind : String} (hspare : spare (RunLog.traceEntry now stepId kind)) :
    ∃ s', (RunLog.append now id stepId kind).run s = .ok ((), s') ∧ s'.Paired id spare t := by
  cases hfind : s.find? Run id with
  | none =>
    refine ⟨s, ?_, h⟩
    rw [RunLog.append, StateT.run_bind, Transaction.run_load_of_fits htable hfits, hfind]
    rfl
  | some r =>
    by_cases hopen : r.status = RunLog.running
    · obtain ⟨xs, hxs⟩ := h.legible r (List.mem_of_find?_eq_some hfind) (id_of_find? hfind) hopen
      refine ⟨_, RunLog.run_append_of_open htable hfits hfind hopen hxs, ?_⟩
      have hpair := h.modify (i := id) (f := RunLog.withStep xs (RunLog.traceEntry now stepId kind))
        (g := fun q => q) (fun _ => rfl) (fun _ _ => ⟨_, RunLog.entriesOf_list _⟩)
        fun p hp q hid hpq => by
          obtain rfl : p = r :=
            Option.some.inj ((hid ▸ find?_of_mem_runs h.keys hp).symm.trans hfind)
          exact hpq.withSpare hid hxs hspare
      rwa [modify_run_id] at hpair
    · exact ⟨s, RunLog.run_append_of_finished htable hfits hfind hopen, h⟩

end Store

end Deskflow
