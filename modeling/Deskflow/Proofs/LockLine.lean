import Deskflow.Lock
import Mathlib.Data.List.Nodup

/-!
# The line for a lock

Whoever wants to work on a conversation stands in line for it (`lock_for`). The table keeps no line:
it keeps locks, which are made and dropped by a count, and tasks that say for themselves where they
are. Requests tell who should stand in line: `Queue.after` replays them on a list of guests, without
locks and counts. `Settled` says of a table that what is kept for a key is what its line makes it,
that everyone in line is at the lock that is kept for the key, and that a lock which was dropped is
free.

Out of scope: who gets in when; see `Deskflow.Proofs.LockTurns`.

* `Queue.settle_of_front`, `Queue.settle_of_told`: who comes first stays, or is gone once told to.
* `Held.settled`, `Held.handing`, `Handing.held`: a lock is held, set free, and held by the next.
* `handedOver`: the lock goes on to the first of the line that was not told to leave.
-/

namespace Deskflow

namespace Lock

/-- What is asked: a task for the lock of a key, or of a task to leave. -/
inductive Request where
  | enter (task : String) (key : Int)
  | exit (task : String)
  | fail (task : String)
  | cancel (task : String)
deriving DecidableEq, Repr

/-! ## Who should stand in line -/

/-- Someone who holds or awaits the lock of a key, and how to leave, once told. -/
structure Guest where
  name : String
  key : Int
  told : Option Ending := none
deriving DecidableEq, Repr

/-- Everyone who holds or awaits a lock, in order of arrival. -/
abbrev Queue := List Guest

namespace Queue

/-- Those who come first for a key and were told to leave are gone as soon as they are in. -/
def settle (key : Int) : Queue → Queue
  | [] => []
  | g :: rest =>
    if g.key = key then
      if g.told.isSome then settle key rest else g :: rest
    else g :: settle key rest

/-- Someone is told to leave. -/
def told (q : Queue) (name : String) (ending : Ending) : Queue :=
  q.map fun g => if g.name == name then { g with told := some ending } else g

/-- Someone is told to leave, and stays until it is their turn. -/
def tell (q : Queue) (name : String) (ending : Ending) : Queue :=
  match q.find? fun g => g.name == name with
  | none => q
  | some g => settle g.key (q.told name ending)

/-- Someone is gone, in turn or not. -/
def cancel (q : Queue) (name : String) : Queue :=
  match q.find? fun g => g.name == name with
  | none => q
  | some g => settle g.key (q.filter fun g => g.name != name)

/-- What becomes of those in line by a request. Whoever arrives stands at the end. -/
def serve (q : Queue) : Request → Queue
  | .enter name key =>
    if (q.find? fun g => g.name == name).isSome then q else q ++ [⟨name, key, none⟩]
  | .exit name => q.tell name .done
  | .fail name => q.tell name .failed
  | .cancel name => q.cancel name

/-- Who holds or awaits a lock after requests. -/
def after (requests : List Request) : Queue := requests.foldl serve []

variable {q : Queue} {key : Int} {g : Guest}

/-- Where the first for a key was not told to leave, everyone stays. -/
theorem settle_of_front
    (h : ∀ g, (q.filter fun g => g.key == key).head? = some g → g.told = none) :
    settle key q = q := by
  induction q with
  | nil => rfl
  | cons g rest ih =>
    unfold settle
    by_cases hkey : g.key = key
    · have htold : g.told = none := h g (by simp [hkey])
      simp [hkey, htold]
    · rw [if_neg hkey, ih fun g' hg' => h g' (by simpa [hkey] using hg')]

theorem filter_name_of_not_mem {name : String} (h : ∀ g ∈ q, g.name ≠ name) :
    (q.filter fun g => g.name != name) = q :=
  List.filter_eq_self.mpr fun g hg => by simpa using h g hg

/-- Where the first for a key was told to leave, it goes, and the next ones are looked at. -/
theorem settle_of_told (hnames : (q.map Guest.name).Nodup) {rest : Queue}
    (hfront : (q.filter fun g => g.key == key) = g :: rest) (htold : g.told.isSome = true) :
    settle key q = settle key (q.filter fun x => x.name != g.name) := by
  induction q with
  | nil => cases hfront
  | cons x xs ih =>
    obtain ⟨hx, hxs⟩ := List.nodup_cons.mp hnames
    have hother : ∀ y ∈ xs, y.name ≠ x.name := fun y hy hsame =>
      hx (hsame ▸ List.mem_map_of_mem hy)
    by_cases hkey : x.key = key
    · rw [List.filter_cons_of_pos (by simpa using hkey)] at hfront
      obtain ⟨rfl, -⟩ := List.cons.inj hfront
      rw [List.filter_cons_of_neg (by simp), filter_name_of_not_mem hother, settle, if_pos hkey,
        if_pos htold]
    · rw [List.filter_cons_of_neg (by simpa using hkey)] at hfront
      have hg : g ∈ xs := List.mem_of_mem_filter (hfront ▸ List.mem_cons_self)
      rw [List.filter_cons_of_pos (by simpa using (hother g hg).symm), settle, if_neg hkey, settle,
        if_neg hkey, ih hxs hfront]

/-- It does not matter how those are told to leave that are gone. -/
theorem filter_told (q : Queue) (name : String) (ending : Ending) :
    ((q.told name ending).filter fun g => g.name != name) = q.filter fun g => g.name != name := by
  unfold told
  induction q with
  | nil => rfl
  | cons g rest ih =>
    by_cases hname : g.name = name
    · simpa [hname] using ih
    · simpa [hname] using ih

end Queue

namespace Table

/-- Serves a request. -/
def serve (t : Table) : Request → Table × List Notice
  | .enter task key => t.enter task key
  | .exit task => t.tell task .done
  | .fail task => t.tell task .failed
  | .cancel task => t.cancel task

/-- The tasks that hold or await the lock of a key, in order of arrival. -/
def line (t : Table) (key : Int) : List Task := t.tasks.filter fun k => k.key == key

/-- The names of the tasks that await the lock of a key. -/
def waiting (t : Table) (key : Int) : List String :=
  ((t.line key).filter fun k => !k.inside).map Task.name

end Table

/-- A task as a guest. -/
def Task.guest (k : Task) : Guest := ⟨k.name, k.key, k.told⟩

namespace Table

/-- Everyone in the table, in order of arrival. -/
def guests (t : Table) : Queue := t.tasks.map Task.guest

/-- The count that is kept of a line; of an empty one none is. -/
def countOf (n : Nat) : Option Nat := if n = 0 then none else some n

/-- For an empty line no lock is kept. For any other line one is: its first task is inside, the
others wait in order of arrival, and it is the one that each of them is at. -/
def Holds (t : Table) (key : Int) : List Task → Prop
  | [] => t.locks.lookup key = none
  | first :: rest => ∃ n, t.locks.lookup key = some n
      ∧ t.made[n]? = some ⟨some first.name, rest.map Task.name⟩ ∧ ∀ k ∈ first :: rest, k.lock = n

/-- The first of a line is inside, and was not told to leave; the others wait. -/
def InTurn : List Task → Prop
  | [] => True
  | first :: rest => first.inside = true ∧ first.told = none ∧ ∀ k ∈ rest, k.inside = false

/-- What is kept for a key is what its line makes it. -/
structure Kept (t : Table) (key : Int) : Prop where
  count : t.holders.lookup key = countOf (t.line key).length
  lock : t.Holds key (t.line key)
  turn : InTurn (t.line key)

/-- What is kept for every key is what its line makes it, keys have locks of their own, and a lock
that is kept for no key is free. -/
structure Settled (t : Table) : Prop where
  names : (t.tasks.map Task.name).Nodup
  kept : ∀ key, t.Kept key
  own : ∀ a b n, t.locks.lookup a = some n → t.locks.lookup b = some n → a = b
  dropped : ∀ n lock, t.made[n]? = some lock → (∀ key, t.locks.lookup key ≠ some n) → lock = {}

/-- The lock of a key is held by the first of its line. What is kept for other keys is what their
lines make it. -/
structure Held (t : Table) (key : Int) (n : Nat) (first : Task) (rest : List Task) : Prop where
  names : (t.tasks.map Task.name).Nodup
  line : t.line key = first :: rest
  others : ∀ other, other ≠ key → t.Kept other
  count : t.holders.lookup key = countOf (rest.length + 1)
  found : t.locks.lookup key = some n
  lock : t.made[n]? = some ⟨some first.name, rest.map Task.name⟩
  here : ∀ k ∈ first :: rest, k.lock = n
  inside : first.inside = true
  outside : ∀ k ∈ rest, k.inside = false
  own : ∀ a b m, t.locks.lookup a = some m → t.locks.lookup b = some m → a = b
  dropped : ∀ m lock, t.made[m]? = some lock → (∀ a, t.locks.lookup a ≠ some m) → lock = {}

/-- A lock is to be handed over: nobody in the line of its key is inside. It is that of no other
key, and kept only if there is a line. -/
structure Handing (t : Table) (key : Int) (n : Nat) : Prop where
  names : (t.tasks.map Task.name).Nodup
  others : ∀ other, other ≠ key → t.Kept other ∧ t.locks.lookup other ≠ some n
  count : t.holders.lookup key = countOf (t.line key).length
  found : t.locks.lookup key = if t.line key = [] then none else some n
  made : n < t.made.length
  here : ∀ k ∈ t.line key, k.lock = n
  outside : ∀ k ∈ t.line key, k.inside = false
  own : ∀ a b m, t.locks.lookup a = some m → t.locks.lookup b = some m → a = b
  dropped : ∀ m lock, m ≠ n → t.made[m]? = some lock → (∀ a, t.locks.lookup a ≠ some m) → lock = {}

/-! ## Lines -/

section

variable {t : Table} {name : String} {key other : Int}

theorem mem_line {k : Task} : k ∈ t.line key ↔ k ∈ t.tasks ∧ k.key = key := by
  simp [line]

/-- Tasks go by their names. -/
theorem eq_of_name (h : (t.tasks.map Task.name).Nodup) {k l : Task} (hk : k ∈ t.tasks)
    (hl : l ∈ t.tasks) (hname : k.name = l.name) : k = l :=
  List.inj_on_of_nodup_map h hk hl hname

theorem find?_of_mem (h : (t.tasks.map Task.name).Nodup) {k : Task} (hk : k ∈ t.tasks) :
    t.find? k.name = some k := by
  cases hf : t.find? k.name with
  | none =>
    have := List.find?_eq_none.mp hf k hk
    simp at this
  | some l =>
    have hl : l.name = k.name := by simpa using List.find?_some hf
    rw [eq_of_name h (List.mem_of_find?_eq_some hf) hk hl]

theorem mem_of_find? {k : Task} (h : t.find? name = some k) : k ∈ t.tasks ∧ k.name = name :=
  ⟨List.mem_of_find?_eq_some h, by simpa using List.find?_some h⟩

theorem tasks_forget : (t.forget name key).tasks = t.tasks.filter fun k => k.name != name := by
  unfold forget
  dsimp only
  split <;> rfl

theorem made_forget : (t.forget name key).made = t.made := by
  unfold forget
  dsimp only
  split <;> rfl

theorem line_forget :
    (t.forget name key).line other = (t.line other).filter fun k => k.name != name := by
  rw [line, tasks_forget, line, List.filter_filter, List.filter_filter]
  congr 1
  funext k
  exact Bool.and_comm _ _

theorem lookup_unbind_self {α : Type} (entries : List (Int × α)) (key : Int) :
    (unbind entries key).lookup key = none := by
  rw [List.lookup_eq_none_iff]
  intro e he
  have := (List.mem_filter.1 he).2
  simpa [bne, beq_eq_false_iff_ne, ne_comm] using this

/-- What is kept for other keys stays when a task is forgotten. -/
theorem forget_ne (h : other ≠ key) :
    (t.forget name key).holders.lookup other = t.holders.lookup other
      ∧ (t.forget name key).locks.lookup other = t.locks.lookup other := by
  unfold forget
  dsimp only
  split
  · exact ⟨lookup_unbind_ne _ h, lookup_unbind_ne _ h⟩
  · exact ⟨lookup_bind_ne _ _ h, rfl⟩

/-- No lock is kept for a key anew when a task is forgotten. -/
theorem lookup_of_forget {n : Nat} (h : (t.forget name key).locks.lookup other = some n) :
    t.locks.lookup other = some n := by
  by_cases hother : other = key
  · subst hother
    unfold forget at h
    dsimp only at h
    split at h
    · rw [lookup_unbind_self] at h
      cases h
    · exact h
  · exact (forget_ne hother).2 ▸ h

/-- The count goes down by one when a task is forgotten, and the lock goes with the last one. -/
theorem forget_self {n : Nat} (h : t.holders.lookup key = countOf (n + 1)) (name : String) :
    (t.forget name key).holders.lookup key = countOf n
      ∧ (t.forget name key).locks.lookup key = if n = 0 then none else t.locks.lookup key := by
  have hn : (t.holders.lookup key).getD 0 - 1 = n := by simp [h, countOf]
  unfold forget
  dsimp only
  rw [hn]
  by_cases h0 : n = 0
  · simp [h0, countOf, lookup_unbind_self]
  · simp [h0, countOf]

theorem line_modifyTask {f : Task → Task} (hf : ∀ k, (f k).key = k.key) :
    (t.modifyTask name f).line other
      = (t.line other).map fun k => if k.name == name then f k else k := by
  simp only [line, modifyTask, List.filter_map]
  congr 2
  funext k
  simp only [Function.comp]
  split
  · rw [hf]
  · rfl

theorem names_modifyTask {f : Task → Task} (hf : ∀ k, (f k).name = k.name) :
    (t.modifyTask name f).tasks.map Task.name = t.tasks.map Task.name := by
  simp only [modifyTask, List.map_map]
  refine List.map_congr_left fun k _ => ?_
  simp only [Function.comp]
  split
  · exact hf k
  · rfl

/-- What is done to a task leaves lines alone in which it does not stand. -/
theorem map_of_not_mem {f : Task → Task} {ks : List Task} (h : ∀ k ∈ ks, k.name ≠ name) :
    (ks.map fun k => if k.name == name then f k else k) = ks := by
  refine (List.map_congr_left fun k hk => ?_).trans (List.map_id ks)
  simp [h k hk]

theorem filter_of_not_mem {ks : List Task} (h : ∀ k ∈ ks, k.name ≠ name) :
    (ks.filter fun k => k.name != name) = ks := by
  refine List.filter_eq_self.mpr fun k hk => ?_
  simpa using h k hk

/-- A task stands in the line of its key only. -/
theorem name_ne_of_line (h : (t.tasks.map Task.name).Nodup) {k : Task} (hk : k ∈ t.line key)
    (hne : other ≠ key) : ∀ l ∈ t.line other, l.name ≠ k.name := by
  intro l hl hname
  obtain ⟨hl, hlkey⟩ := mem_line.mp hl
  obtain ⟨hk, hkkey⟩ := mem_line.mp hk
  rw [eq_of_name h hl hk hname] at hlkey
  exact hne (hlkey.symm.trans hkkey)

theorem mem_line_self {k : Task} (h : k ∈ t.tasks) : k ∈ t.line k.key := mem_line.mpr ⟨h, rfl⟩

/-- Behind the first of a line stand others. -/
theorem name_ne_of_rest (h : (t.tasks.map Task.name).Nodup) {first : Task} {rest : List Task}
    (hline : t.line key = first :: rest) : ∀ l ∈ rest, l.name ≠ first.name := by
  have hsub : ((t.line key).map Task.name).Nodup := h.sublist (List.filter_sublist.map _)
  rw [hline, List.map_cons, List.nodup_cons] at hsub
  intro l hl hname
  exact hsub.1 (hname ▸ List.mem_map_of_mem hl)

end

/-! ## Guests -/

section

variable {t : Table} {name : String} {key : Int}

theorem guests_line (t : Table) (key : Int) :
    (t.guests.filter fun g => g.key == key) = (t.line key).map Task.guest := by
  rw [guests, line, List.filter_map]
  rfl

theorem names_guests (t : Table) : t.guests.map Guest.name = t.tasks.map Task.name := by
  rw [guests, List.map_map]
  rfl

theorem find?_guests (t : Table) (name : String) :
    (t.guests.find? fun g => g.name == name) = (t.find? name).map Task.guest := by
  rw [guests, List.find?_map]
  rfl

theorem guests_forget :
    (t.forget name key).guests = t.guests.filter fun g => g.name != name := by
  rw [guests, tasks_forget, guests, List.filter_map]
  rfl

end

/-! ## Handing over -/

/-- The tasks that got in, by name. -/
def entrants (notices : List Notice) : List String :=
  notices.filterMap fun
    | .entered task => some task
    | .left _ _ => none

section

variable {t u : Table} {key : Int} {n : Nat} {first : Task} {rest : List Task}

/-- What is kept for a key is what its line makes it as long as both stay as they are. -/
theorem Kept.congr {other : Int} (h : t.Kept other) (hline : u.line other = t.line other)
    (hcount : u.holders.lookup other = t.holders.lookup other)
    (hfound : u.locks.lookup other = t.locks.lookup other)
    (hmade : ∀ m, t.locks.lookup other = some m → u.made[m]? = t.made[m]?) : u.Kept other where
  count := by rw [hcount, hline, h.count]
  lock := by
    have hlock := h.lock
    rw [hline]
    cases hcase : t.line other with
    | nil =>
      rw [hcase] at hlock
      exact hfound.trans hlock
    | cons first rest =>
      rw [hcase] at hlock
      obtain ⟨m, hm, hlock, hhere⟩ := hlock
      exact ⟨m, hfound.trans hm, (hmade m hm).trans hlock, hhere⟩
  turn := hline ▸ h.turn

/-- The lock of a line is held by the first one, who was not told to leave. -/
theorem Settled.held (h : t.Settled) (hline : t.line key = first :: rest) :
    ∃ n, t.Held key n first rest ∧ first.told = none := by
  obtain ⟨hcount, hlock, hturn⟩ := h.kept key
  rw [hline] at hcount hlock hturn
  obtain ⟨n, hfound, hmade, hhere⟩ := hlock
  exact ⟨n, ⟨h.names, hline, fun other _ => h.kept other, hcount, hfound, hmade, hhere, hturn.1,
    hturn.2.2, h.own, h.dropped⟩, hturn.2.1⟩

/-- Where the first of the line was not told to leave, it stays, and no task can move. -/
theorem Held.settled (h : t.Held key n first rest) (htold : first.told = none) : t.Settled where
  names := h.names
  kept other := by
    by_cases hother : other = key
    · subst hother
      refine ⟨?_, ?_, ?_⟩
      · rw [h.line]
        exact h.count
      · rw [h.line]
        exact ⟨n, h.found, h.lock, h.here⟩
      · rw [h.line]
        exact ⟨h.inside, htold, h.outside⟩
    · exact h.others other hother
  own := h.own
  dropped := h.dropped

theorem Held.waiting (h : t.Held key n first rest) : t.waiting key = rest.map Task.name := by
  have hrest : rest.filter (fun k => !k.inside) = rest :=
    List.filter_eq_self.mpr fun k hk => by simp [h.outside k hk]
  simp [Table.waiting, h.line, h.inside, hrest]

/-- The first of a line is forgotten, and the next one is to be let in. -/
theorem Held.handing (h : t.Held key n first rest) :
    (t.forget first.name key).Handing key n ∧ (t.forget first.name key).line key = rest := by
  have hfirst : first ∈ t.line key := h.line ▸ List.mem_cons_self
  have hline : (t.forget first.name key).line key = rest := by
    rw [line_forget, h.line, List.filter_cons_of_neg (by simp),
      filter_of_not_mem (name_ne_of_rest h.names h.line)]
  obtain ⟨hcount, hfound⟩ := forget_self h.count first.name
  refine ⟨⟨?_, fun other hne => ⟨?_, fun hother => ?_⟩, ?_, ?_, ?_, ?_, ?_, ?_, ?_⟩, hline⟩
  · rw [tasks_forget]
    exact h.names.sublist (List.filter_sublist.map _)
  · refine (h.others other hne).congr ?_ (forget_ne hne).1 (forget_ne hne).2 fun m _ => ?_
    · rw [line_forget, filter_of_not_mem (name_ne_of_line h.names hfirst hne)]
    · rw [made_forget]
  · exact hne (h.own other key n (lookup_of_forget hother) h.found)
  · rw [hline, hcount]
  · rw [hfound, hline, h.found]
    simp
  · rw [made_forget]
    exact (List.getElem?_eq_some_iff.mp h.lock).1
  · exact hline ▸ fun k hk => h.here k (List.mem_cons_of_mem first hk)
  · exact hline ▸ h.outside
  · exact fun a b m ha hb => h.own a b m (lookup_of_forget ha) (lookup_of_forget hb)
  · intro m lock hne hmade hfree
    rw [made_forget] at hmade
    refine h.dropped m lock hmade fun a ha => ?_
    by_cases hkey : a = key
    · exact hne (Option.some.inj (ha.symm.trans (hkey ▸ h.found)))
    · exact hfree a ((forget_ne hkey).2.trans ha)

theorem names_letIn (h : (t.tasks.map Task.name).Nodup) (n : Nat) (name : String)
    (others : List String) : ((t.letIn n name others).tasks.map Task.name).Nodup := by
  have : (t.letIn n name others).tasks.map Task.name = t.tasks.map Task.name :=
    names_modifyTask fun _ => rfl
  exact this ▸ h

/-- Who is let in is a guest as before. -/
theorem guests_letIn (t : Table) (n : Nat) (name : String) (others : List String) :
    (t.letIn n name others).guests = t.guests := by
  have : (t.letIn n name others).guests = (t.tasks.map fun k =>
      if k.name == name then { k with inside := true } else k).map Task.guest := rfl
  rw [this, List.map_map, guests]
  refine List.map_congr_left fun k _ => ?_
  simp only [Function.comp]
  split <;> rfl

theorem line_letIn_self (h : (t.tasks.map Task.name).Nodup) (hline : t.line key = first :: rest)
    (n : Nat) (others : List String) :
    (t.letIn n first.name others).line key = { first with inside := true } :: rest := by
  have hmap : (t.letIn n first.name others).line key
      = (t.line key).map fun k => if k.name == first.name then { k with inside := true } else k :=
    line_modifyTask fun _ => rfl
  rw [hmap, hline, List.map_cons, map_of_not_mem (name_ne_of_rest h hline)]
  simp

theorem line_letIn_ne (h : (t.tasks.map Task.name).Nodup) (hline : t.line key = first :: rest)
    (n : Nat) (others : List String) {other : Int} (hne : other ≠ key) :
    (t.letIn n first.name others).line other = t.line other := by
  have hmap : (t.letIn n first.name others).line other
      = (t.line other).map fun k => if k.name == first.name then { k with inside := true } else k :=
    line_modifyTask fun _ => rfl
  rw [hmap, map_of_not_mem (name_ne_of_line h (hline ▸ List.mem_cons_self) hne)]

/-- A lock is handed over to the first of its line: whoever stands in line stays there. -/
theorem Handing.held (h : t.Handing key n) (hline : t.line key = first :: rest) :
    (t.letIn n first.name (rest.map Task.name)).Held key n { first with inside := true } rest where
  names := names_letIn h.names n _ _
  line := line_letIn_self h.names hline n _
  others other hne := by
    obtain ⟨hkept, hother⟩ := h.others other hne
    refine hkept.congr (line_letIn_ne h.names hline n _ hne) rfl rfl fun m hm => ?_
    exact made_setLock_ne fun hmn => hother (hmn ▸ hm)
  count := h.count.trans (by rw [hline]; rfl)
  found := h.found.trans (if_neg (by simp [hline]))
  lock := made_setLock_self h.made
  here k hk := by
    rcases List.mem_cons.mp hk with rfl | hk
    · exact h.here first (hline ▸ List.mem_cons_self)
    · exact h.here k (hline ▸ List.mem_cons_of_mem first hk)
  inside := rfl
  outside k hk := h.outside k (hline ▸ List.mem_cons_of_mem first hk)
  own := h.own
  dropped m lock hmade hfree := by
    have hfound : t.locks.lookup key = some n := h.found.trans (if_neg (by simp [hline]))
    have hne : m ≠ n := fun hmn => hfree key (hmn ▸ hfound)
    exact h.dropped m lock hne ((made_setLock_ne hne).symm.trans hmade) hfree

/-- Where nobody is in line, the lock is free from then on. -/
theorem Handing.settled (h : t.Handing key n) (hline : t.line key = []) :
    (t.setLock n {}).Settled where
  names := h.names
  kept other := by
    by_cases hkey : other = key
    · subst hkey
      have hline' : (t.setLock n {}).line other = [] := hline
      refine ⟨h.count, ?_, ?_⟩
      · rw [hline']
        exact h.found.trans (if_pos hline)
      · rw [hline']
        trivial
    · obtain ⟨hkept, hother⟩ := h.others other hkey
      exact hkept.congr rfl rfl rfl fun m hm => made_setLock_ne fun hmn => hother (hmn ▸ hm)
  own := h.own
  dropped m lock hmade hfree := by
    by_cases hmn : m = n
    · subst hmn
      exact (Option.some.inj ((made_setLock_self h.made).symm.trans hmade)).symm
    · exact h.dropped m lock hmn ((made_setLock_ne hmn).symm.trans hmade) hfree

theorem Held.find? (h : t.Held key n first rest) : t.find? first.name = some first :=
  find?_of_mem h.names (mem_line.mp (h.line ▸ List.mem_cons_self)).1

/-- Letting in changes the one that is let in, and nobody else. -/
theorem mem_tasks_letIn (h : (t.tasks.map Task.name).Nodup) (hline : t.line key = first :: rest)
    {others : List String} {k : Task} (hk : k ∈ (t.letIn n first.name others).tasks) :
    k ∈ t.tasks ∨ k = { first with inside := true } := by
  obtain ⟨l, hl, rfl⟩ := List.mem_map.mp hk
  split
  · rename_i hname
    have hfirst : first ∈ t.tasks := (mem_line.mp (hline ▸ List.mem_cons_self)).1
    exact .inr (eq_of_name h hl hfirst (by simpa using hname) ▸ rfl)
  · exact .inl hl

/-- A task of a key is among those that got in. -/
def GotIn (notices : List Notice) (key : Int) (k : Task) : Prop :=
  k.name ∈ entrants notices ∧ k.key = key

/-- A task that was not told to leave keeps the lock. -/
theorem handOver_of_untold {name : String} {names : List String}
    (h : ((t.letIn n name names).find? name).bind Task.told = none) :
    handOver key n (name :: names) t = (t.letIn n name names, [.entered name]) := by
  simp only [handOver, h]

/-- A task that was told to leave hands the lock on. -/
theorem handOver_of_told {name : String} {names : List String} {ending : Ending}
    (h : ((t.letIn n name names).find? name).bind Task.told = some ending) :
    handOver key n (name :: names) t =
      ((handOver key n names ((t.letIn n name names).forget name key)).1,
        .entered name :: .left name ending
          :: (handOver key n names ((t.letIn n name names).forget name key)).2) := by
  simp only [handOver, h]

/-- A lock was handed over: no task can move, those in line that had been told to leave are gone, up
to the first that had not, and the others stand as before. -/
structure HandedOver (t : Table) (key : Int) (names : List String) (out : Table × List Notice) :
    Prop where
  settled : out.1.Settled
  ne : ∀ other, other ≠ key → out.1.line other = t.line other
  entrants : entrants out.2 ++ out.1.waiting key = names
  tasks : ∀ k ∈ out.1.tasks, k ∈ t.tasks ∨ GotIn out.2 key k
  guests : out.1.guests = Queue.settle key t.guests

/-- **The lock goes on to the first of the line that was not told to leave**, and those before it
get in and leave. -/
theorem handedOver (key : Int) (n : Nat) (names : List String) (t : Table) (h : t.Handing key n)
    (hnames : (t.line key).map Task.name = names) :
    HandedOver t key names (handOver key n names t) := by
  induction names generalizing t with
  | nil =>
    have hline : t.line key = [] := List.map_eq_nil_iff.mp hnames
    refine ⟨h.settled hline, fun _ _ => rfl, ?_, fun _ hk => .inl hk, ?_⟩
    · show (Table.waiting (t.setLock n {}) key) = []
      rw [waiting, show (t.setLock n {}).line key = [] from hline]
      rfl
    · show t.guests = _
      refine (Queue.settle_of_front fun g hg => ?_).symm
      rw [guests_line, hline] at hg
      cases hg
  | cons name others ih =>
    obtain ⟨first, rest, hline, rfl, rfl⟩ := List.map_eq_cons_iff.mp hnames
    have hheld := h.held hline
    have hkey : first.key = key := (mem_line.mp (hline ▸ List.mem_cons_self)).2
    have htold : ((t.letIn n first.name (rest.map Task.name)).find? first.name).bind Task.told
        = first.told := by rw [hheld.find?, Option.bind_some]
    have hfront : (t.guests.filter fun g => g.key == key)
        = first.guest :: rest.map Task.guest := by rw [guests_line, hline, List.map_cons]
    cases hending : first.told with
    | none =>
      rw [handOver_of_untold (htold.trans hending)]
      refine ⟨hheld.settled hending, fun _ => line_letIn_ne h.names hline n _, ?_, fun k hk => ?_,
        ?_⟩
      · show first.name :: Table.waiting _ key = _
        rw [hheld.waiting]
      · rcases mem_tasks_letIn h.names hline hk with hk | rfl
        · exact .inl hk
        · exact .inr ⟨by simp [Table.entrants], hkey⟩
      · rw [guests_letIn, Queue.settle_of_front]
        intro g hg
        rw [hfront] at hg
        exact Option.some.inj hg ▸ hending
    | some ending =>
      rw [handOver_of_told (htold.trans hending)]
      obtain ⟨hhanding, hleft⟩ := hheld.handing
      obtain ⟨hsettled, hlines, hwaiting, htasks, hguests⟩ := ih _ hhanding (congrArg _ hleft)
      refine ⟨hsettled, fun other hother => (hlines other hother).trans ?_, ?_, fun k hk => ?_, ?_⟩
      · rw [line_forget, line_letIn_ne h.names hline n _ hother]
        have hfirst : first ∈ t.line key := hline ▸ List.mem_cons_self
        have hnames : ∀ l ∈ t.line other, l.name ≠ first.name :=
          name_ne_of_line h.names hfirst hother
        exact filter_of_not_mem hnames
      · exact congrArg (first.name :: ·) hwaiting
      · rcases htasks k hk with hk | ⟨hk, hkey⟩
        · rw [tasks_forget] at hk
          rcases mem_tasks_letIn h.names hline (List.mem_of_mem_filter hk) with hk | rfl
          · exact .inl hk
          · exact .inr ⟨by simp [Table.entrants], hkey⟩
        · exact .inr ⟨List.mem_cons_of_mem first.name hk, hkey⟩
      · refine hguests.trans ?_
        rw [guests_forget, guests_letIn]
        refine (Queue.settle_of_told (names_guests t ▸ h.names) hfront ?_).symm
        simp [Task.guest, hending]

end

end Table

end Lock

end Deskflow
