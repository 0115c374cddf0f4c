import Deskflow.Desk.Call
import Mathlib.Data.List.Permutation
import Mathlib.Order.Defs.Unbundled

/-!
# Paging through the run log

The runs of an automation are listed in pages, each of them asked for by how many runs to pass over
(`list_runs`). The listing is one order of all the runs, which leaves nothing open as their ids
differ, and a page is a stretch of it: so pages that are asked for in steps of their own size lie
side by side.

The runs are those of a log (`Logged`): each with a trace that is a list, under an id of its own.
That is all that is asked of what is stored; what opening a run, noting a step and ending a run make
of a log is one again. Rows that were written past the log, with a trace that is no list, are out of
scope here.

* `Logged.openRun`, `Logged.append`, `Logged.finish`: a log stays one.
* `run_page`, `run_page_of_unfit`: the page that is found, and when none is.
* `Call.listOf_report`: how it is shown.
* `pairwise_listed`: the order of the listing leaves nothing open.
* `flatMap_pageOf`: pages side by side.
* `pages_tile`: the result.
-/

namespace Deskflow

namespace Run

/-- A run whose trace is a list; one that has none yet counts as empty. -/
def HasTrace (r : Run) : Prop := r.stepsExecuted = .null ∨ ∃ steps, r.stepsExecuted = .list steps

/-- The entries of a run's trace. -/
def steps (r : Run) : List Value := r.stepsExecuted.listItems

/-- What is shown of a run: its columns, with a trace and data that are there. -/
def shown (r : Run) : Value :=
  .object (Record.merge (Sheet.toRecord r)
    [("trigger_data", r.triggerData.orElse (.object [])), ("steps_executed", .list r.steps)])

variable {r : Run}

theorem report_of_hasTrace (h : r.HasTrace) : r.report = .ok r.shown := by
  have hsteps : r.stepsExecuted.givenItems = .ok r.steps := by
    unfold steps
    rcases h with h | ⟨steps, h⟩ <;> rw [h]
    · rfl
    · cases steps <;> rfl
  rw [report, hsteps]
  rfl

/-- A run is shown with its id and its trace. -/
theorem get?_shown (r : Run) : ∃ fields, r.shown = .object fields
    ∧ Record.get? fields "id" = some (.int r.id)
    ∧ Record.get? fields "steps_executed" = some (.list r.steps) := by
  refine ⟨_, rfl, ?_, ?_⟩
  · simp [Record.merge, Record.get?_put_ne]
    rfl
  · simp [Record.merge]

end Run

namespace Call

/-- A list of runs is shown if all of them have a trace. -/
theorem listOf_report {runs : List Run} (h : ∀ r ∈ runs, r.HasTrace) :
    listOf Run.report runs = .ok (.list (runs.map Run.shown)) := by
  have hmap : runs.mapM Run.report = .ok (runs.map Run.shown) := by
    induction runs with
    | nil => rfl
    | cons r rest ih =>
      rw [List.mapM_cons, Run.report_of_hasTrace (h r List.mem_cons_self),
        ih fun q hq => h q (List.mem_cons_of_mem r hq)]
      rfl
  rw [listOf, hmap]
  rfl

end Call

/-! ## Pages -/

/-- A page of a list that is gone through in steps of a size. -/
def pageOf {α : Type} (size k : Nat) (xs : List α) : List α := (xs.drop (k * size)).take size

theorem flatMap_pageOf {α : Type} (size m : Nat) (xs : List α) :
    ((List.range m).flatMap fun k => pageOf size k xs) = xs.take (m * size) := by
  induction m with
  | zero => simp
  | succ m ih =>
    rw [List.range_succ, List.flatMap_append, ih, Nat.succ_mul, List.take_add]
    simp [pageOf]

namespace RunLog

open Transaction

/-- The number of runs on a page if a number of them is asked for: none stands for 50. -/
def sizeFor (limit : Int) : Nat := (max 1 (min (if limit = 0 then 50 else limit) 200)).toNat

theorem pageSize_int (limit : Int) : History.pageSize (.int limit) = .ok (sizeFor limit) := by
  unfold History.pageSize sizeFor Value.orElse Value.isGiven
  by_cases h : limit = 0 <;> simp [h, bind, Except.bind, pure, Except.pure]

theorem skipped_int (offset : Int) : skipped (.int offset) = .ok (max 0 offset) := by
  unfold skipped Value.orElse Value.isGiven
  by_cases h : offset = 0 <;> simp [h, bind, Except.bind, pure, Except.pure]

section

variable {s : Store} {a limit offset : Int} {n : Nat}

/-- Where the log is there and the numbers fit, a stretch of the listing is found. -/
theorem run_page (table : s.absent.contains .automationRuns = false) (ha : fits a = true)
    (hn : fits n = true) :
    (page (.int a) (.int limit) (.int n)).run s =
      .ok (((listed s.runs a).drop n).take (sizeFor limit), s) := by
  have hrows : (rows Run).run s = .ok (s.runs, s) := run_rows_eq_ok.mpr ⟨table, rfl, rfl⟩
  have hskipped : skipped (.int n) = .ok n := by
    rw [skipped_int, Int.max_eq_right (Int.natCast_nonneg n)]
  have hfit : (fit a).run s = .ok ((), s) := by rw [run_fit, if_pos ha]
  have hstart : (fit n).run s = .ok ((), s) := by rw [run_fit, if_pos hn]
  refine (run_bind_of_ok (run_lift_ok (pageSize_int limit) s)).trans ?_
  refine (run_bind_of_ok (run_lift_ok hskipped s)).trans ?_
  refine (run_bind_of_ok (run_lift_ok (Value.toInt_int a) s)).trans ?_
  exact (run_bind_of_ok hrows).trans ((run_bind_of_ok hfit).trans (run_bind_of_ok hstart))

/-- Numbers that no column can hold are refused. -/
theorem run_page_of_unfit (table : s.absent.contains .automationRuns = false)
    (h : fits a = false ∨ fits (max 0 offset) = false) :
    (page (.int a) (.int limit) (.int offset)).run s = .error .integerRange := by
  have hrows : (rows Run).run s = .ok (s.runs, s) := run_rows_eq_ok.mpr ⟨table, rfl, rfl⟩
  refine (run_bind_of_ok (run_lift_ok (pageSize_int limit) s)).trans ?_
  refine (run_bind_of_ok (run_lift_ok (skipped_int offset) s)).trans ?_
  refine (run_bind_of_ok (run_lift_ok (Value.toInt_int a) s)).trans ?_
  refine (run_bind_of_ok hrows).trans ?_
  cases ha : fits a with
  | false =>
    have hfit : (fit a).run s = .error .integerRange := by rw [run_fit, if_neg (by simp [ha])]
    exact run_bind_of_error hfit
  | true =>
    have hfit : (fit a).run s = .ok ((), s) := by rw [run_fit, if_pos ha]
    have hoffset : fits (max 0 offset) = false := h.resolve_left (by simp [ha])
    have hstart : (fit (max 0 offset)).run s = .error .integerRange := by
      rw [run_fit, if_neg (by simp [hoffset])]
    exact (run_bind_of_ok hfit).trans (run_bind_of_error hstart)

/-- What is passed over is not counted below zero. -/
theorem page_of_neg (automationId limit : Value) (hoffset : offset < 0) :
    page automationId limit (.int offset) = page automationId limit (.int 0) := by
  unfold page
  rw [skipped_int, skipped_int, Int.max_eq_left (Int.le_of_lt hoffset), Int.max_self]

theorem listed_perm (runs : List Run) (a : Int) :
    (listed runs a).Perm (runs.filter fun r => r.automationId == a) :=
  sortBy_perm _

/-- A run is listed before another: it began later, or at the same time and has the larger id. -/
def Before (p q : Run) : Prop :=
  Moment.isBefore q.startedAt p.startedAt = true ∨ p.startedAt = q.startedAt ∧ q.id < p.id

/-- Where ids differ, the listing leaves nothing open. -/
theorem pairwise_listed {runs : List Run} (hids : (runs.map Run.id).Nodup) (a : Int) :
    (listed runs a).Pairwise Before := by
  have hdiffer : (listed runs a).Pairwise fun p q => p.id ≠ q.id := by
    have hown : ((runs.filter fun r => r.automationId == a).map Run.id).Nodup :=
      hids.sublist (List.filter_sublist.map _)
    exact List.pairwise_map.mp (((listed_perm runs a).map Run.id).nodup_iff.mpr hown)
  refine ((listed_pairwise runs a).and hdiffer).imp fun {p q} ⟨hlists, hne⟩ => ?_
  simp only [listsBefore, Bool.or_eq_true, Bool.and_eq_true, decide_eq_true_eq] at hlists
  rcases hlists with hlater | ⟨hsame, hle⟩
  · exact .inl hlater
  · exact .inr ⟨hsame, by omega⟩

end

/-! ## Logs -/

/-- The runs of a store are as the log keeps them. -/
structure Logged (s : Store) : Prop where
  table : s.absent.contains .automationRuns = false
  traces : ∀ r ∈ s.runs, r.HasTrace
  /-- No two runs have one id. -/
  ids : (s.runs.map Run.id).Nodup

section

variable {s s' : Store} {now : Moment} {runId : Int}

/-- A log stays one if a run is changed in what follows its id, and has a trace then. -/
theorem Logged.modify (h : Logged s) {f : Run → Run} (hid : ∀ r, (f r).id = r.id)
    (htrace : ∀ r ∈ s.runs, (f r).HasTrace) : Logged (s.modify Run runId f) where
  table := h.table
  traces r hr := by
    obtain ⟨q, hq, rfl⟩ := List.mem_map.mp hr
    split
    · exact htrace q hq
    · exact h.traces q hq
  ids := by
    have hmap : (s.modify Run runId f).runs.map Run.id = s.runs.map Run.id := by
      show ((s.runs.map _).map _) = _
      rw [List.map_map]
      refine List.map_congr_left fun r _ => ?_
      rw [Function.comp]
      split
      · exact hid r
      · rfl
    exact hmap ▸ h.ids

theorem Logged.openRun (h : Logged s) {automationId conversationId id : Int}
    {clientId : Option Int} {triggerData : Value}
    (hrun : (openRun now automationId conversationId clientId triggerData).run s = .ok (id, s')) :
    Logged s' := by
  obtain ⟨rfl, -, rfl⟩ := openRun_eq_ok hrun
  let new := opened now automationId conversationId clientId triggerData (s.nextId Run)
  have hruns : (s.insert new).runs = s.runs ++ [new] := Store.rows_insert_nextId s new
  refine ⟨h.table, ?_, ?_⟩ <;> rw [hruns]
  · intro r hr
    rcases List.mem_append.mp hr with hr | hr
    · exact h.traces r hr
    · rw [List.mem_singleton.mp hr]
      exact .inr ⟨[], rfl⟩
  · rw [List.map_append, List.map_singleton, ← List.concat_eq_append]
    refine h.ids.concat fun hmem => ?_
    obtain ⟨r, hr, hid⟩ := List.mem_map.mp hmem
    exact Int.ne_of_lt (Store.id_lt_nextId (ρ := Run) hr) hid

theorem Logged.append (h : Logged s) {stepId kind : String}
    (hrun : (append now runId stepId kind).run s = .ok ((), s')) : Logged s' := by
  rcases append_eq_ok hrun with ⟨-, rfl⟩ | ⟨r, entries, -, -, -, rfl⟩
  · exact h
  · exact h.modify (fun _ => rfl) fun _ _ => .inr ⟨_, rfl⟩

theorem Logged.finish (h : Logged s) {how : RunEnd}
    (hrun : (finish now runId how).run s = .ok ((), s')) : Logged s' := by
  rcases finish_eq_ok hrun with ⟨-, rfl⟩ | ⟨r, -, -, rfl⟩
  · exact h
  · exact h.modify (fun _ => rfl) h.traces

end

/-! ## The result -/

/-- A history of the runs of an automation, and how it is gone through in pages. -/
structure Tiled (s : Store) (a limit : Int) (history : List Run) : Prop where
  /-- It has each of the runs once, -/
  perm : history.Perm (s.runs.filter fun r => r.automationId == a)
  distinct : (history.map Run.id).Nodup
  /-- the later before the earlier, and of those that began together the one with the larger id
  first. -/
  ordered : history.Pairwise Before
  /-- A page has as many runs as are asked for, but 50 if that is none, and no less than 1 and no
  more than 200. -/
  size : (sizeFor limit : Int) = max 1 (min (if limit = 0 then 50 else limit) 200)
  /-- Pages that are asked for in steps of their size are the stretches of the history, -/
  pages : ∀ now k, fits a = true → fits (k * sizeFor limit : Nat) = true →
    ((Call.runs (.int a) (.int limit) (.int (k * sizeFor limit : Nat))).perform now).run s
      = .ok (.list ((pageOf (sizeFor limit) k history).map Run.shown), s)
  /-- each run with its id and its trace. -/
  shows : ∀ r ∈ history, ∃ fields, r.shown = .object fields
    ∧ Record.get? fields "id" = some (.int r.id)
    ∧ Record.get? fields "steps_executed" = some (.list r.steps)
  /-- Side by side they make up the history, -/
  whole : ∀ m, history.length ≤ m * sizeFor limit →
    ((List.range m).flatMap fun k => pageOf (sizeFor limit) k history) = history
  /-- and after it there is nothing. -/
  after : ∀ now (offset : Nat), history.length ≤ offset → fits a = true → fits offset = true →
    ((Call.runs (.int a) (.int limit) (.int offset)).perform now).run s = .ok (.list [], s)
  /-- Only what is asked for by numbers that no column can hold is refused. -/
  refused : ∀ now offset, fits a = false ∨ fits (max 0 offset) = false →
    ((Call.runs (.int a) (.int limit) (.int offset)).perform now).run s = .error .integerRange
  /-- What is passed over is not counted below zero. -/
  start : ∀ now offset, offset < 0 →
    (Call.runs (.int a) (.int limit) (.int offset)).perform now
      = (Call.runs (.int a) (.int limit) (.int 0)).perform now

/-- **Pages side by side make up the history of an automation**, whatever the log holds and whatever
number of runs is asked for. -/
theorem pages_tile {s : Store} (h : Logged s) (a limit : Int) :
    Tiled s a limit (listed s.runs a) := by
  have traces : ∀ r ∈ listed s.runs a, r.HasTrace := fun r hr =>
    h.traces r (List.mem_of_mem_filter ((listed_perm s.runs a).mem_iff.mp hr))
  have found : ∀ (now : Moment) (n : Nat), fits a = true → fits n = true →
      ((Call.runs (.int a) (.int limit) (.int n)).perform now).run s
        = .ok (.list ((((listed s.runs a).drop n).take (sizeFor limit)).map Run.shown), s) := by
    intro now n ha hn
    rw [Call.perform, StateT.run_bind, run_page h.table ha hn]
    refine run_lift_ok (Call.listOf_report fun r hr => traces r ?_) s
    exact List.mem_of_mem_drop (List.mem_of_mem_take hr)
  exact {
    perm := listed_perm s.runs a
    distinct := by
      have hown := h.ids.sublist
        ((List.filter_sublist (p := fun r => r.automationId == a)).map Run.id)
      exact ((listed_perm s.runs a).map Run.id).nodup_iff.mpr hown
    ordered := pairwise_listed h.ids a
    size := by
      unfold sizeFor
      rw [Int.toNat_of_nonneg (by omega)]
    pages := fun now k ha hk => found now _ ha hk
    shows := fun r _ => r.get?_shown
    whole := fun m hm => by rw [flatMap_pageOf, List.take_of_length_le hm]
    after := fun now offset hafter ha hoffset => by
      rw [found now offset ha hoffset, List.drop_eq_nil_of_le hafter, List.take_nil, List.map_nil]
    refused := fun now offset hunfit => run_bind_of_error (run_page_of_unfit h.table hunfit)
    start := fun now offset hoffset => by simp only [Call.perform, page_of_neg _ _ hoffset] }

/-! ### A busy desk -/

/-- A run that is over, of an automation and with a trace. -/
def past (id automationId : Int) (startedAt : Moment) (steps : Value) : Run :=
  { id, automationId, conversationId := 1, clientId := none, status := "completed"
    triggerData := .object [], stepsExecuted := steps, error := none, startedAt := some startedAt
    completedAt := some startedAt }

/-- Four runs of an automation, two of which began together, and one of another automation. -/
def busy : Store :=
  { runs := [past 1 1 ⟨0⟩ (.list []), past 2 1 ⟨10⟩ .null, past 3 2 ⟨20⟩ (.list []),
      past 4 1 ⟨10⟩ (.list []), past 5 1 ⟨5⟩ (.list [])] }

theorem logged_busy : Logged busy where
  table := rfl
  traces := by simp [busy, past, Run.HasTrace]
  ids := by decide

/-- In pages of three the runs that began together stay in order, and none is left out. -/
theorem pages_tile_busy :
    Logged busy ∧ Tiled busy 1 3 (listed busy.runs 1)
      ∧ (pageOf 3 0 (listed busy.runs 1)).map Run.id = [4, 2, 5]
      ∧ (pageOf 3 1 (listed busy.runs 1)).map Run.id = [1] :=
  ⟨logged_busy, pages_tile logged_busy 1 3, by decide +kernel, by decide +kernel⟩

end RunLog

end Deskflow
