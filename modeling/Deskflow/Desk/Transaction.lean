import Deskflow.Desk.Store
import Deskflow.Fault

/-!
# Transactions

A transaction reads and writes the store, and either goes through as a whole or leaves no trace: a
fault carries no store with it. Tables have to be there, and integers have to fit 64 bits, when a
transaction needs them.

Models `session`, seen from outside; statement by statement it is in `Deskflow.Proofs.Session`. Out
of scope: sessions at the same time.

* `run_load`, `run_add`, `run_edit`: what the three ways to reach a row do.
* `add_id`: a new row gets the next id of its table.
-/

namespace Deskflow

/-- A change of the store that can fail. -/
abbrev Transaction := StateT Store (Except Fault)

namespace Transaction

/-- The least integer that does not fit 64 bits. -/
def wordLimit : Int := 9223372036854775808

/-- Whether an integer fits 64 bits. -/
def fits (n : Int) : Bool := -wordLimit ≤ n && n < wordLimit

/-- Refuses an integer that does not fit 64 bits. -/
def fit (n : Int) : Transaction Unit := if fits n then pure () else throw .integerRange

/-- Refuses an integer, if there is one, that does not fit 64 bits. -/
def fit? : Option Int → Transaction Unit
  | some n => fit n
  | none => pure ()

/-- Refuses to go on without a table. -/
def need (t : Table) : Transaction Unit := do
  if (← get).absent.contains t then throw (.tableMissing t.name)

/-- The rows of a table. -/
def rows (ρ : Type) [Row ρ] : Transaction (List ρ) := do
  need (Row.table ρ)
  return Row.rows (← get)

/-- The row of an id. -/
def load (ρ : Type) [Row ρ] (id : Int) : Transaction (Option ρ) := do
  need (Row.table ρ)
  fit id
  return (← get).find? ρ id

/-- Adds a row under the next id of its table, and returns the row. -/
def add {ρ : Type} [Row ρ] (row : ρ) : Transaction ρ := do
  need (Row.table ρ)
  let s ← get
  let row := Row.withId row (s.nextId ρ)
  set (s.insert row)
  return row

/-- Changes the row of an id. -/
def edit (ρ : Type) [Row ρ] (id : Int) (f : ρ → ρ) : Transaction Unit :=
  modify fun s => s.modify ρ id f

/-! ## Lemmas -/

/-- Two transactions in sequence go through where the first does and then the second. -/
theorem run_bind_eq_ok {α β : Type} {t : Transaction α} {f : α → Transaction β} {s s' : Store}
    {b : β} :
    (t >>= f).run s = .ok (b, s') ↔ ∃ a m, t.run s = .ok (a, m) ∧ (f a).run m = .ok (b, s') := by
  rw [StateT.run_bind]
  constructor
  · intro h
    cases hr : t.run s with
    | error fault => simp [hr, bind, Except.bind] at h
    | ok p => exact ⟨p.1, p.2, rfl, by simpa [hr, bind, Except.bind] using h⟩
  · rintro ⟨a, m, ha, hb⟩
    simp only [ha, bind, Except.bind]
    exact hb

/-- What is done after a transaction that goes through, -/
theorem run_bind_of_ok {α β : Type} {t : Transaction α} {f : α → Transaction β} {s m : Store} {a : α}
    (h : t.run s = .ok (a, m)) : (t >>= f).run s = (f a).run m := by
  rw [StateT.run_bind, h]
  rfl

/-- and after one that does not. -/
theorem run_bind_of_error {α β : Type} {t : Transaction α} {f : α → Transaction β} {s : Store}
    {fault : Fault} (h : t.run s = .error fault) : (t >>= f).run s = .error fault := by
  rw [StateT.run_bind, h]
  rfl

theorem run_lift_ok {α : Type} {e : Except Fault α} {a : α} (h : e = .ok a) (s : Store) :
    (liftM e : Transaction α).run s = .ok (a, s) := by
  subst h
  rfl

theorem run_lift_error {α : Type} {e : Except Fault α} {f : Fault} (h : e = .error f) (s : Store) :
    (liftM e : Transaction α).run s = .error f := by
  subst h
  rfl

theorem lift_eq_ok {α : Type} {e : Except Fault α} {s s' : Store} {a : α}
    (h : (liftM e : Transaction α).run s = .ok (a, s')) : e = .ok a ∧ s = s' := by
  cases e with
  | error f => cases h
  | ok b => cases h; exact ⟨rfl, rfl⟩

theorem fits_iff {n : Int} : fits n = true ↔ -wordLimit ≤ n ∧ n < wordLimit := by
  simp [fits]

theorem run_fit (n : Int) (s : Store) :
    (fit n).run s = if fits n then .ok ((), s) else .error .integerRange := by
  unfold fit
  split <;> rfl

theorem run_need (t : Table) (s : Store) :
    (need t).run s =
      if s.absent.contains t then .error (.tableMissing t.name) else .ok ((), s) := by
  simp only [need, StateT.run_bind, StateT.run_get]
  simp only [bind, Except.bind, pure, Except.pure]
  split <;> rfl

theorem fit_eq_ok {n : Int} {s s' : Store} {u : Unit} (h : (fit n).run s = .ok (u, s')) :
    s = s' := by
  rw [run_fit] at h
  split at h <;> cases h
  rfl

theorem fit?_eq_ok {n : Option Int} {s s' : Store} {u : Unit} (h : (fit? n).run s = .ok (u, s')) :
    s = s' := by
  cases n with
  | none => cases h; rfl
  | some n => exact fit_eq_ok h

theorem need_eq_ok {t : Table} {s s' : Store} {u : Unit} (h : (need t).run s = .ok (u, s')) :
    s = s' := by
  rw [run_need] at h
  split at h <;> cases h
  rfl

theorem run_load (ρ : Type) [Row ρ] (id : Int) (s : Store) :
    (load ρ id).run s =
      if s.absent.contains (Row.table ρ) then .error (.tableMissing (Row.table ρ).name)
      else if fits id then .ok (s.find? ρ id, s)
      else .error .integerRange := by
  simp only [load, StateT.run_bind, run_need, run_fit]
  by_cases h : s.absent.contains (Row.table ρ) = true
  · simp only [h, if_true]
    rfl
  · simp only [Bool.not_eq_true] at h
    simp only [h, Bool.false_eq_true, if_false]
    by_cases hf : fits id = true
    · simp only [hf, if_true]
      rfl
    · simp only [Bool.not_eq_true] at hf
      simp only [hf, Bool.false_eq_true, if_false]
      rfl

/-- Where its table is there and its id fits, a row is loaded. -/
theorem run_load_of_fits {ρ : Type} [Row ρ] {id : Int} {s : Store}
    (hTable : s.absent.contains (Row.table ρ) = false) (hFit : fits id = true) :
    (load ρ id).run s = .ok (s.find? ρ id, s) := by
  rw [run_load, hTable, hFit]
  rfl

theorem run_add {ρ : Type} [Row ρ] (row : ρ) (s : Store) :
    (add row).run s =
      if s.absent.contains (Row.table ρ) then .error (.tableMissing (Row.table ρ).name)
      else .ok (Row.withId row (s.nextId ρ), s.insert (Row.withId row (s.nextId ρ))) := by
  simp only [add, StateT.run_bind, run_need]
  by_cases h : s.absent.contains (Row.table ρ) = true
  · simp only [h, if_true]
    rfl
  · simp only [Bool.not_eq_true] at h
    simp only [h, Bool.false_eq_true, if_false]
    rfl

/-- Where its table is there, a row is added under the next id. -/
theorem run_add_of_table {ρ : Type} [Row ρ] {s : Store} (row : ρ)
    (hTable : s.absent.contains (Row.table ρ) = false) :
    (add row).run s =
      .ok (Row.withId row (s.nextId ρ), s.insert (Row.withId row (s.nextId ρ))) := by
  rw [run_add, hTable]
  rfl

/-- The rows of a table can be read just where it is there. -/
theorem run_rows_eq_ok {ρ : Type} [Row ρ] {s s' : Store} {rs : List ρ} :
    (rows ρ).run s = .ok (rs, s') ↔
      s.absent.contains (Row.table ρ) = false ∧ rs = Row.rows s ∧ s' = s := by
  simp only [rows, StateT.run_bind, run_need]
  cases s.absent.contains (Row.table ρ) with
  | true => simp [bind, Except.bind]
  | false =>
    constructor
    · intro h
      cases h
      exact ⟨rfl, rfl, rfl⟩
    · rintro ⟨-, rfl, rfl⟩
      rfl

/-- A row that was loaded is in the store, which stays as it is. -/
theorem run_load_eq_ok {ρ : Type} [Row ρ] {id : Int} {s s' : Store} {r : Option ρ}
    (h : (load ρ id).run s = .ok (r, s')) : r = s.find? ρ id ∧ s' = s ∧ fits id = true := by
  rw [run_load] at h
  split at h
  · cases h
  · split at h
    · rename_i hid
      cases h
      exact ⟨rfl, rfl, hid⟩
    · cases h

theorem run_edit (ρ : Type) [Row ρ] (id : Int) (f : ρ → ρ) (s : Store) :
    (edit ρ id f).run s = .ok ((), s.modify ρ id f) := rfl

theorem add_id {ρ : Type} [Row ρ] [LawfulRow ρ] {row out : ρ} {s t : Store}
    (h : (add row).run s = .ok (out, t)) : Row.id out = s.nextId ρ := by
  rw [run_add] at h
  split at h
  · simp at h
  · simp only [Except.ok.injEq, Prod.mk.injEq] at h
    rw [← h.1, LawfulRow.id_withId]

end Transaction

end Deskflow
