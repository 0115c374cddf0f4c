import Deskflow.World
import Mathlib.Order.Defs.Unbundled

/-!
# What operations keep

`Transaction.Keeps R t` and `Work.Keeps R x` say that an operation takes the store, or the world,
along a relation `R` from before to after. For a preorder both are closed under sequencing, so that
what a step of an operation keeps is kept by the whole: `Keeps.bind`.

A transaction that fails has no store after it, and an operation that fails has the world that the
fault found: so `Transaction.Keeps` speaks of transactions that go through only, and `Work.Keeps` of
every operation.
-/

namespace Deskflow

/-! ## Transactions -/

namespace Transaction

/-- Where a transaction goes through, it takes the store along a relation. -/
def Keeps {α : Type} (R : Store → Store → Prop) (t : Transaction α) : Prop :=
  ∀ s a s', t.run s = .ok (a, s') → R s s'

/-- A transaction that only reads. -/
abbrev Reads {α : Type} (t : Transaction α) : Prop := Keeps Eq t

section

variable {α β : Type} {R : Store → Store → Prop}

theorem Keeps.of_reads [Std.Refl R] {t : Transaction α} (h : Reads t) : Keeps R t := by
  intro s a s' hr
  rw [← h s a s' hr]
  exact Std.Refl.refl s

theorem Keeps.bind [IsTrans Store R] {t : Transaction α} {f : α → Transaction β}
    (ht : Keeps R t) (hf : ∀ a, Keeps R (f a)) : Keeps R (t >>= f) := fun s b s' h => by
  obtain ⟨a, m, ha, hb⟩ := run_bind_eq_ok.mp h
  exact IsTrans.trans s m s' (ht s a m ha) (hf a m b s' hb)

theorem Reads.pure (a : α) : Reads (Pure.pure a : Transaction α) := by
  intro s b s' h
  cases h
  rfl

theorem Reads.lift (e : Except Fault α) : Reads (liftM e : Transaction α) := by
  intro s b s' h
  cases e with
  | error fault => cases h
  | ok a => cases h; rfl

theorem Reads.throw (fault : Fault) : Reads (throw fault : Transaction α) := by
  intro s b s' h
  cases h

theorem Reads.get : Reads (get : Transaction Store) := by
  intro s b s' h
  cases h
  rfl

end

theorem reads_fit (n : Int) : Reads (fit n) := by
  unfold fit
  split
  · exact Reads.pure _
  · exact Reads.throw _

theorem reads_fit? (n : Option Int) : Reads (fit? n) := by
  cases n with
  | none => exact Reads.pure _
  | some n => exact reads_fit n

theorem reads_need (t : Table) : Reads (need t) := by
  refine Keeps.bind Reads.get fun s => ?_
  split
  · exact Reads.throw _
  · exact Reads.pure _

theorem reads_load (ρ : Type) [Row ρ] (id : Int) : Reads (load ρ id) :=
  Keeps.bind (reads_need _) fun _ => Keeps.bind (reads_fit id) fun _ =>
    Keeps.bind Reads.get fun _ => Reads.pure _

theorem reads_rows (ρ : Type) [Row ρ] : Reads (rows ρ) :=
  Keeps.bind (reads_need _) fun _ => Keeps.bind Reads.get fun _ => Reads.pure _

end Transaction

/-! ## Operations -/

namespace Work

/-- Two operations in sequence go through where the first does and then the second. -/
theorem runOn_bind_eq_ok {α β : Type} {x : Work α} {f : α → Work β} {w v : World} {b : β} :
    (x >>= f).runOn w = (.ok b, v)
      ↔ ∃ a m, x.runOn w = (.ok a, m) ∧ (f a).runOn m = (.ok b, v) := by
  rw [runOn_bind]
  rcases x.runOn w with ⟨fault | a, m⟩
  · simp
  · constructor
    · exact fun h => ⟨a, m, rfl, h⟩
    · rintro ⟨_, _, ha, h⟩
      cases ha
      exact h

/-- What a transaction that goes through makes of the store is all that it changes. -/
theorem runOn_query_eq_ok {α : Type} {t : Transaction α} {w v : World} {a : α} :
    (query t).runOn w = (.ok a, v) ↔
      ∃ s, t.run w.store = .ok (a, s) ∧ v = { w with store := s } := by
  rw [query, run_transact]
  cases t.run w.store with
  | error fault => simp
  | ok p =>
    constructor
    · intro h
      cases h
      exact ⟨p.2, rfl, rfl⟩
    · rintro ⟨s, h, rfl⟩
      cases h
      rfl

/-- One that fails tells its fault. -/
theorem run_of_runOn_query_error {α : Type} {t : Transaction α} {w v : World} {fault : Fault}
    (h : (query t).runOn w = (.error fault, v)) : t.run w.store = .error fault := by
  rw [query, run_transact] at h
  cases ht : t.run w.store with
  | error other =>
    rw [ht] at h
    cases h
    rfl
  | ok p =>
    rw [ht] at h
    cases h

/-- What is made of a result at the end changes nothing. -/
theorem snd_runOn_returning {α β : Type} (x : Work α) (g : α → β) (w : World) :
    ((x >>= fun a => pure (g a)).runOn w).2 = (x.runOn w).2 := by
  rw [runOn_bind]
  rcases x.runOn w with ⟨fault | a, v⟩ <;> rfl

theorem runOn_lift {α : Type} (e : Except Fault α) (w : World) :
    (liftM e : Work α).runOn w = (e, w) := rfl

/-- An operation takes the world along a relation, faults or not. -/
def Keeps {α : Type} (R : World → World → Prop) (x : Work α) : Prop := ∀ w, R w (x.runOn w).2

section

variable {α β : Type} {R : World → World → Prop}

theorem Keeps.of_runOn {x : Work α} {w v : World} {r : Except Fault α} (hx : Keeps R x)
    (h : x.runOn w = (r, v)) : R w v := by
  have hw := hx w
  rwa [h] at hw

theorem Keeps.mono {S : World → World → Prop} (h : ∀ {w v}, R w v → S w v) {x : Work α}
    (hx : Keeps R x) : Keeps S x := fun w => h (hx w)

/-- What the first of two operations does, and the second does after it, if it comes to that. -/
theorem trans_bind [IsTrans World R] {x : Work α} {f : α → Work β} {w : World}
    (hx : R w (x.runOn w).2) (hf : ∀ a v, x.runOn w = (.ok a, v) → R v ((f a).runOn v).2) :
    R w ((x >>= f).runOn w).2 := by
  rw [runOn_bind]
  rcases hr : x.runOn w with ⟨fault | a, v⟩ <;> rw [hr] at hx
  · exact hx
  · exact IsTrans.trans w v _ hx (hf a v hr)

theorem Keeps.bind [IsTrans World R] {x : Work α} {f : α → Work β} (hx : Keeps R x)
    (hf : ∀ a, Keeps R (f a)) : Keeps R (x >>= f) := fun w => trans_bind (hx w) fun a v _ => hf a v

theorem eq_of_reads {x : Work α} (hx : Keeps Eq x) {w v : World} {a : α}
    (h : x.runOn w = (.ok a, v)) : v = w := by
  have hw := hx w
  rw [h] at hw
  exact hw.symm

/-- How an operation goes that only reads at first. -/
theorem Keeps.outcome_bind {P : Except Fault β × World → Prop} {x : Work α} {f : α → Work β}
    (hx : Keeps Eq x) {w : World} (failed : ∀ fault, P (.error fault, w))
    (hf : ∀ a, x.runOn w = (.ok a, w) → P ((f a).runOn w)) : P ((x >>= f).runOn w) := by
  have hw := hx w
  rw [runOn_bind]
  rcases hr : x.runOn w with ⟨fault | a, v⟩ <;> rw [hr] at hw <;> obtain rfl : w = v := hw
  · exact failed fault
  · exact hf a hr

/-- What holds after the rest of an operation that only reads at first. -/
theorem Keeps.eq_bind {P : World → Prop} {x : Work α} {f : α → Work β} (hx : Keeps Eq x) {w : World}
    (h : P w) (hf : ∀ a, x.runOn w = (.ok a, w) → P ((f a).runOn w).2) :
    P ((x >>= f).runOn w).2 :=
  hx.outcome_bind (P := fun out => P out.2) (fun _ => h) hf

section

variable [Std.Refl R]

theorem Keeps.pure (a : α) : Keeps R (Pure.pure a : Work α) := fun w => Std.Refl.refl w

/-- What is made of a result at the end keeps everything. -/
theorem Keeps.returning [IsTrans World R] {x : Work α} (hx : Keeps R x) {g : α → β} :
    Keeps R (x >>= fun a => Pure.pure (g a)) :=
  Keeps.bind hx fun a => Keeps.pure (g a)

theorem Keeps.throw (fault : Fault) : Keeps R (throw fault : Work α) := fun w => Std.Refl.refl w

theorem Keeps.lift (e : Except Fault α) : Keeps R (liftM e : Work α) := fun w => Std.Refl.refl w

theorem Keeps.get : Keeps R (get : Work World) := fun w => Std.Refl.refl w

theorem Keeps.transact {t : Moment → Transaction α}
    (h : ∀ w a s, (t w.clock).run w.store = .ok (a, s) → R w { w with store := s }) :
    Keeps R (transact t) := by
  intro w
  rw [run_transact]
  cases hr : (t w.clock).run w.store with
  | error fault => exact Std.Refl.refl w
  | ok p => exact h w p.1 p.2 hr

/-- What only reads keeps everything. -/
theorem Keeps.reads {t : Transaction α} (h : Transaction.Reads t) : Keeps R (query t) :=
  Keeps.transact fun w a s hr => by
    cases h w.store a s hr
    exact Std.Refl.refl w

end

theorem Keeps.modify {f : World → World} (h : ∀ w, R w (f w)) : Keeps R (modify f : Work Unit) := h

theorem Keeps.attempt {x : Work α} (hx : Keeps R x) : Keeps R (attempt x) := hx

end

end Work

end Deskflow
