import Deskflow.Proofs.LockLine

/-!
# Taking turns

Whatever is asked of the locks of conversations (`lock_for`), in any order, tasks take turns: a
request is served until no task can move, and then every line is in front of its lock and those are
in it who should be.

The register puts on record who arrives and who gets in. A name may come back once its task is gone,
so it is visits that are told apart, by the number of their arrival.

Out of scope: the moments between two tasks' moves, and what a task does while it is inside.

* `serves_serve`: every request leaves the table settled, with those in line who should be, and who
  gets in waited longest.
* `agrees_attend`: the register keeps agreeing with the table.
* `serves_in_turn`: the result, for any requests.
-/

namespace Deskflow

namespace Lock

namespace Table

/-! ## Requests -/

/-- How a request is served: the table is settled, with the guests that there should be; no line but
one is touched, and in that one who got in and who waits then were waiting before, in the same
order, or have just arrived. -/
structure Serves (t : Table) (arriving : List String) (queue : Queue) (key : Int)
    (out : Table × List Notice) : Prop where
  settled : out.1.Settled
  guests : out.1.guests = queue
  ne : ∀ other, other ≠ key → out.1.waiting other = t.waiting other
  sublist : (entrants out.2 ++ out.1.waiting key).Sublist (t.waiting key ++ arriving)
  insiders : ∀ k ∈ out.1.tasks, k.inside = true → k ∈ t.tasks ∨ GotIn out.2 key k

section

variable {t u : Table} {name : String} {key : Int} {n : Nat} {first k : Task} {rest : List Task}

/-- A request of which nothing comes. -/
theorem Serves.nothing (h : t.Settled) (key : Int) : Serves t [] t.guests key (t, []) where
  settled := h
  guests := rfl
  ne _ _ := rfl
  sublist := by simp [entrants]
  insiders _ hk _ := .inl hk

theorem waiting_congr {other : Int} (h : u.line other = t.line other) :
    u.waiting other = t.waiting other := by
  simp [waiting, h]

/-- In a settled table nobody who comes first was told to leave. -/
theorem Settled.settle (h : t.Settled) (key : Int) : Queue.settle key t.guests = t.guests := by
  refine Queue.settle_of_front fun g hg => ?_
  have hturn := (h.kept key).turn
  rw [guests_line] at hg
  cases hline : t.line key with
  | nil =>
    rw [hline] at hg
    cases hg
  | cons first rest =>
    rw [hline] at hg hturn
    exact Option.some.inj hg ▸ hturn.2.1

/-- Whoever is in a settled table stands in line in front of a lock. -/
theorem Settled.front (h : t.Settled) (hk : k ∈ t.tasks) :
    ∃ n first rest, t.Held k.key n first rest ∧ first.told = none ∧ k ∈ first :: rest := by
  have hmem := mem_line_self hk
  obtain ⟨first, rest, hline⟩ := List.exists_cons_of_ne_nil (List.ne_nil_of_mem hmem)
  obtain ⟨n, hheld, htold⟩ := h.held hline
  exact ⟨n, first, rest, hheld, htold, hline ▸ hmem⟩

/-- Whoever is inside is the first. -/
theorem Held.eq_first (h : t.Held key n first rest) (hk : k ∈ first :: rest)
    (hin : k.inside = true) : k = first := by
  rcases List.mem_cons.mp hk with rfl | hk
  · rfl
  · rw [h.outside k hk] at hin
    cases hin

/-- Whoever waits stands behind the first. -/
theorem Held.mem_rest (h : t.Held key n first rest) (hk : k ∈ first :: rest)
    (hout : k.inside = false) : k ∈ rest := by
  rcases List.mem_cons.mp hk with rfl | hk
  · rw [h.inside] at hout
    cases hout
  · exact hk

theorem Held.lockAt (h : t.Held key n first rest) :
    t.lockAt n = ⟨some first.name, rest.map Task.name⟩ := by
  rw [Table.lockAt, h.lock, Option.getD_some]

/-- Whoever leaves is gone, and the lock goes on. -/
theorem serves_leave (h : t.Settled) (hk : k ∈ t.tasks) (hin : k.inside = true)
    (ending : Ending) :
    Serves t [] (Queue.settle k.key (t.guests.filter fun g => g.name != k.name)) k.key
      (t.leave k ending) := by
  obtain ⟨n, first, rest, hheld, -, hmem⟩ := h.front hk
  obtain rfl := hheld.eq_first hmem hin
  obtain ⟨hhanding, hleft⟩ := hheld.handing
  obtain ⟨hsettled, hlines, hwaiting, htasks, hguests⟩ :=
    handedOver k.key n (rest.map Task.name) _ hhanding (congrArg _ hleft)
  have hout : t.leave k ending = ((handOver k.key n (rest.map Task.name) (t.forget k.name k.key)).1,
      .left k.name ending
        :: (handOver k.key n (rest.map Task.name) (t.forget k.name k.key)).2) := by
    rw [leave, hheld.here k hmem, hheld.lockAt]
  rw [hout]
  refine ⟨hsettled, hguests.trans (congrArg _ guests_forget), fun other hne => ?_, ?_,
    fun l hl _ => ?_⟩
  · refine waiting_congr ((hlines other hne).trans ?_)
    rw [line_forget, filter_of_not_mem (name_ne_of_line h.names (mem_line_self hk) hne)]
  · show (entrants (handOver k.key n _ _).2 ++ _).Sublist _
    rw [hwaiting, List.append_nil, hheld.waiting]
  · rcases htasks l hl with hl | hl
    · rw [tasks_forget] at hl
      exact .inl (List.mem_of_mem_filter hl)
    · exact .inr hl

theorem names_told (t : Table) (name : String) (ending : Ending) :
    (t.modifyTask name fun k => { k with told := some ending }).tasks.map Task.name
      = t.tasks.map Task.name :=
  names_modifyTask fun _ => rfl

theorem line_told (t : Table) (name : String) (ending : Ending) (other : Int) :
    (t.modifyTask name fun k => { k with told := some ending }).line other
      = (t.line other).map fun k => if k.name == name then { k with told := some ending } else k :=
  line_modifyTask fun _ => rfl

theorem guests_told (t : Table) (name : String) (ending : Ending) :
    (t.modifyTask name fun k => { k with told := some ending }).guests
      = t.guests.told name ending := by
  simp only [guests, Queue.told, modifyTask, List.map_map]
  refine List.map_congr_left fun k _ => ?_
  simp only [Function.comp]
  by_cases hname : k.name = name <;> simp [Task.guest, hname]

/-- A task that waits is told to leave: it keeps its place. -/
theorem Held.told (h : t.Held k.key n first rest) (hk : k ∈ rest) (ending : Ending) :
    (t.modifyTask k.name fun k => { k with told := some ending }).Held k.key n first
      (rest.map fun l => if l.name == k.name then { l with told := some ending } else l) := by
  have hline : k ∈ t.line k.key := h.line ▸ List.mem_cons_of_mem first hk
  have hfirst : first.name ≠ k.name := (name_ne_of_rest h.names h.line k hk).symm
  refine ⟨?_, ?_, fun other hne => ?_, ?_, h.found, ?_, ?_, h.inside, ?_, h.own, h.dropped⟩
  · rw [names_told]
    exact h.names
  · simp [line_told, h.line, hfirst]
  · refine (h.others other hne).congr ?_ rfl rfl fun _ _ => rfl
    rw [line_told, map_of_not_mem (name_ne_of_line h.names hline hne)]
  · rw [List.length_map]
    exact h.count
  · rw [List.map_map, List.map_congr_left fun l _ => ?_]
    · exact h.lock
    · simp only [Function.comp]
      split <;> rfl
  · intro l hl
    rcases List.mem_cons.mp hl with rfl | hl
    · exact h.here l List.mem_cons_self
    · obtain ⟨m, hm, rfl⟩ := List.mem_map.mp hl
      have := h.here m (List.mem_cons_of_mem first hm)
      split <;> exact this
  · intro l hl
    obtain ⟨m, hm, rfl⟩ := List.mem_map.mp hl
    have := h.outside m hm
    split <;> exact this

theorem serves_told (h : t.Settled) (hk : k ∈ t.tasks) (hout : k.inside = false)
    (ending : Ending) :
    Serves t [] (t.guests.told k.name ending) k.key
      (t.modifyTask k.name fun k => { k with told := some ending }, []) := by
  obtain ⟨n, first, rest, hheld, huntold, hmem⟩ := h.front hk
  have hrest := hheld.mem_rest hmem hout
  have htold := hheld.told hrest ending
  refine ⟨htold.settled huntold, guests_told t k.name ending, fun other hne => ?_, ?_,
    fun l hl hin => ?_⟩
  · refine waiting_congr ((line_told t k.name ending other).trans ?_)
    exact map_of_not_mem (name_ne_of_line h.names (mem_line_self hk) hne)
  · rw [htold.waiting, hheld.waiting, List.append_nil, List.map_map]
    refine (List.map_congr_left fun l _ => ?_) ▸ List.Sublist.refl _
    simp only [Function.comp]
    split <;> rfl
  · obtain ⟨m, hm, rfl⟩ := List.mem_map.mp hl
    split at hin
    · rename_i hsame
      rw [eq_of_name h.names hm hk (by simpa using hsame), hout] at hin
      cases hin
    · rename_i hother
      simpa [hother] using .inl hm

/-- A task is told to leave, and does so at once if it is inside. -/
theorem serves_tell (h : t.Settled) (name : String) (ending : Ending) :
    ∃ key, Serves t [] (t.guests.tell name ending) key (t.tell name ending) := by
  unfold tell Queue.tell
  rw [find?_guests]
  cases hf : t.find? name with
  | none => exact ⟨0, .nothing h 0⟩
  | some k =>
    obtain ⟨hk, rfl⟩ := mem_of_find? hf
    refine ⟨k.key, ?_⟩
    simp only [Option.map_some]
    split
    · rename_i hin
      -- Whoever is inside comes first: as soon as it is told to leave, it is gone.
      obtain ⟨n, first, rest, hheld, -, hmem⟩ := h.front hk
      obtain rfl := hheld.eq_first hmem hin
      have hnames : ((t.guests.told k.name ending).map Guest.name).Nodup := by
        rw [← guests_told, names_guests, names_told]
        exact h.names
      have hfront : ∃ others, ((t.guests.told k.name ending).filter fun g => g.key == k.key)
          = { k.guest with told := some ending } :: others := by
        rw [← guests_told, guests_line, line_told, hheld.line]
        simp [Task.guest]
      obtain ⟨others, hfront⟩ := hfront
      have hsettle := (Queue.settle_of_told hnames hfront rfl).trans
        (congrArg (Queue.settle k.key) (Queue.filter_told t.guests k.name ending))
      exact hsettle.symm ▸ serves_leave h hk hin ending
    · rename_i hout
      have hserves := serves_told h hk (by simpa using hout) ending
      have hsettle := hserves.settled.settle k.key
      rw [hserves.guests] at hsettle
      exact hsettle.symm ▸ hserves

/-- One task is taken out of those behind the first of a line. -/
theorem length_filter_of_mem (h : (t.tasks.map Task.name).Nodup)
    (hline : t.line key = first :: rest) (hk : k ∈ rest) :
    (rest.filter fun l => l.name != k.name).length + 1 = rest.length := by
  have hsub : rest.Sublist t.tasks :=
    (List.sublist_cons_self first rest).trans (hline ▸ List.filter_sublist)
  have hsame : (rest.filter fun l => l.name != k.name) = rest.filter fun l => l != k := by
    refine List.filter_congr fun l hl => ?_
    rw [Bool.eq_iff_iff, bne_iff_ne, bne_iff_ne, not_iff_not]
    exact ⟨fun e => eq_of_name h (hsub.subset hl) (hsub.subset hk) e, fun e => e ▸ rfl⟩
  rw [hsame, ← List.Nodup.erase_eq_filter (h.of_map.sublist hsub), List.length_erase_of_mem hk]
  have := List.length_pos_of_mem hk
  omega

/-- A task that waits no longer does: the others keep their places. -/
theorem Held.giveUp (h : t.Held k.key n first rest) (hk : k ∈ rest) :
    (t.giveUp k).Held k.key n first (rest.filter fun l => l.name != k.name) := by
  have hline : k ∈ t.line k.key := h.line ▸ List.mem_cons_of_mem first hk
  have hfirst : first.name ≠ k.name := (name_ne_of_rest h.names h.line k hk).symm
  have hlen := length_filter_of_mem h.names h.line hk
  have hmade : n < t.made.length := (List.getElem?_eq_some_iff.mp h.lock).1
  have hout : t.giveUp k = (t.setLock n ⟨some first.name,
      (rest.map Task.name).filter (· != k.name)⟩).forget k.name k.key := by
    rw [Table.giveUp, h.here k (List.mem_cons_of_mem first hk), h.lockAt]
  rw [hout]
  generalize hu : t.setLock n _ = u
  have hcount : u.holders.lookup k.key = countOf (rest.length + 1) := hu ▸ h.count
  obtain ⟨hholders, hlocks⟩ := forget_self hcount k.name
  have hfound : (u.forget k.name k.key).locks.lookup k.key = some n := by
    rw [hlocks, if_neg (by omega), ← hu]
    exact h.found
  have hother : ∀ {m}, m ≠ n → (u.forget k.name k.key).made[m]? = t.made[m]? := fun hne => by
    rw [made_forget, ← hu, made_setLock_ne hne]
  refine ⟨?_, ?_, fun other hne => ?_, ?_, hfound, ?_, ?_, h.inside, ?_, ?_, ?_⟩
  · rw [tasks_forget, ← hu]
    exact h.names.sublist (List.filter_sublist.map _)
  · have hsame : u.line k.key = first :: rest := hu ▸ h.line
    rw [line_forget, hsame, List.filter_cons_of_pos (by simpa using hfirst)]
  · refine (h.others other hne).congr ?_ ?_ ?_ fun m hm => hother fun hmn => ?_
    · rw [line_forget, ← hu]
      exact filter_of_not_mem (name_ne_of_line h.names hline hne)
    · rw [(forget_ne hne).1, ← hu]
      rfl
    · rw [(forget_ne hne).2, ← hu]
      rfl
    · exact hne (h.own other k.key n (hmn ▸ hm) h.found)
  · rw [hholders, hlen]
  · rw [made_forget, ← hu, made_setLock_self hmade, List.filter_map]
    rfl
  · intro l hl
    refine h.here l ?_
    rcases List.mem_cons.mp hl with rfl | hl
    · exact List.mem_cons_self
    · exact List.mem_cons_of_mem first (List.mem_of_mem_filter hl)
  · exact fun l hl => h.outside l (List.mem_of_mem_filter hl)
  · intro a b m ha hb
    have ha := lookup_of_forget ha
    have hb := lookup_of_forget hb
    subst hu
    exact h.own a b m ha hb
  · intro m lock hlock hfree
    have hmn : m ≠ n := fun hmn => hfree k.key (hmn ▸ hfound)
    refine h.dropped m lock (hother hmn ▸ hlock) fun a ha => ?_
    by_cases hkey : a = k.key
    · exact hmn (Option.some.inj (ha.symm.trans (hkey ▸ h.found)))
    · refine hfree a ((forget_ne hkey).2.trans ?_)
      rw [← hu]
      exact ha

theorem serves_giveUp (h : t.Settled) (hk : k ∈ t.tasks) (hout : k.inside = false) :
    Serves t [] (t.guests.filter fun g => g.name != k.name) k.key
      (t.giveUp k, [.left k.name .cancelled]) := by
  obtain ⟨n, first, rest, hheld, huntold, hmem⟩ := h.front hk
  have hgone := hheld.giveUp (hheld.mem_rest hmem hout)
  refine ⟨hgone.settled huntold, guests_forget, fun other hne => waiting_congr ?_, ?_,
    fun l hl _ => .inl ?_⟩
  · refine line_forget.trans ?_
    exact filter_of_not_mem (name_ne_of_line h.names (mem_line_self hk) hne)
  · rw [hgone.waiting, hheld.waiting, List.append_nil]
    exact List.filter_sublist.map _
  · have hl : l ∈ (t.giveUp k).tasks := hl
    rw [Table.giveUp, tasks_forget] at hl
    exact List.mem_of_mem_filter hl

/-- A task is cancelled, and gone at once. -/
theorem serves_cancel (h : t.Settled) (name : String) :
    ∃ key, Serves t [] (t.guests.cancel name) key (t.cancel name) := by
  unfold cancel Queue.cancel
  rw [find?_guests]
  cases hf : t.find? name with
  | none => exact ⟨0, .nothing h 0⟩
  | some k =>
    obtain ⟨hk, rfl⟩ := mem_of_find? hf
    refine ⟨k.key, ?_⟩
    simp only [Option.map_some]
    split
    · rename_i hin
      exact serves_leave h hk hin .cancelled
    · rename_i hout
      have hserves := serves_giveUp h hk (by simpa using hout)
      have hsettle := hserves.settled.settle k.key
      rw [hserves.guests] at hsettle
      exact hsettle.symm ▸ hserves

/-! ## Arrivals -/

/-- A new task stands at the end of the line of its key. -/
theorem line_join (t : Table) (k : Task) (other : Int) :
    (t.join k).line other = t.line other ++ if k.key = other then [k] else [] := by
  by_cases hk : k.key = other <;> simp [line, join, hk]

theorem line_join_self (t : Table) (k : Task) : (t.join k).line k.key = t.line k.key ++ [k] := by
  rw [line_join, if_pos rfl]

theorem line_join_ne (t : Table) {other : Int} (h : other ≠ k.key) :
    (t.join k).line other = t.line other := by
  rw [line_join, if_neg h.symm, List.append_nil]

theorem guests_join (t : Table) (k : Task) : (t.join k).guests = t.guests ++ [k.guest] := by
  rw [guests, join, List.map_append]
  rfl

theorem names_join (h : (t.tasks.map Task.name).Nodup) (hnew : t.find? k.name = none) :
    ((t.join k).tasks.map Task.name).Nodup := by
  rw [join, List.map_append, List.nodup_append]
  refine ⟨h, by simp, fun a ha b hb => ?_⟩
  obtain ⟨l, hl, rfl⟩ := List.mem_map.mp ha
  obtain rfl : b = k.name := by simpa using hb
  simpa using List.find?_eq_none.mp hnew l hl

/-- A new task is counted. -/
theorem count_join (k : Task) (h : t.holders.lookup k.key = countOf n) :
    (t.join k).holders.lookup k.key = countOf (n + 1) := by
  have hn : (t.holders.lookup k.key).getD 0 = n := by
    rw [h, countOf]
    split <;> simp_all
  rw [join, lookup_bind_self, hn]
  rfl

/-- The lock that is kept for a key was made. -/
theorem Settled.made (h : t.Settled) (hfound : t.locks.lookup key = some n) :
    n < t.made.length := by
  have hlock := (h.kept key).lock
  cases hline : t.line key with
  | nil =>
    rw [hline] at hlock
    exact absurd (hlock.symm.trans hfound) (by simp)
  | cons first rest =>
    rw [hline] at hlock
    obtain ⟨m, hm, hmade, -⟩ := hlock
    obtain rfl := Option.some.inj (hm.symm.trans hfound)
    exact (List.getElem?_eq_some_iff.mp hmade).1

/-- Where nobody stands in line, a lock is made for a new task, which is let in. -/
theorem enter_of_nil (h : t.Settled) (hnew : t.find? name = none) (hline : t.line key = []) :
    t.enter name key = (Table.join
      { t with made := t.made ++ [⟨some name, []⟩], locks := bind t.locks key t.made.length }
      ⟨name, key, t.made.length, true, none⟩, [.entered name]) := by
  have hlock : t.locks.lookup key = none := by
    have := (h.kept key).lock
    rwa [hline] at this
  simp [enter, hnew, lockFor, hlock, Table.lockAt, setLock]

/-- Where somebody stands in line, a new task waits at the same lock. -/
theorem enter_of_cons (h : t.Held key n first rest) (hnew : t.find? name = none) :
    t.enter name key = ((t.setLock n ⟨some first.name, rest.map Task.name ++ [name]⟩).join
      ⟨name, key, n, false, none⟩, []) := by
  simp [enter, hnew, lockFor, h.found, h.lockAt]

/-- The new task has the new lock. -/
theorem Settled.held_join (h : t.Settled) (hnew : t.find? name = none) (hline : t.line key = []) :
    (Table.join
      { t with made := t.made ++ [⟨some name, []⟩], locks := bind t.locks key t.made.length }
      ⟨name, key, t.made.length, true, none⟩).Held key t.made.length
        ⟨name, key, t.made.length, true, none⟩ [] := by
  have hcount : t.holders.lookup key = countOf 0 := by
    rw [(h.kept key).count, hline, List.length_nil]
  refine ⟨names_join h.names hnew, ?_, fun other hne => ?_,
    count_join ⟨name, key, t.made.length, true, none⟩ hcount, lookup_bind_self _ _ _,
    List.getElem?_concat_length, ?_, rfl, by simp, ?_, ?_⟩
  · rw [line_join_self]
    exact congrArg (· ++ _) hline
  · refine (h.kept other).congr (line_join_ne _ hne) (lookup_bind_ne _ _ hne)
      (lookup_bind_ne _ _ hne) fun m hm => ?_
    exact List.getElem?_append_left (h.made hm)
  · simp
  · intro a b m ha hb
    replace ha : (bind t.locks key t.made.length).lookup a = some m := ha
    replace hb : (bind t.locks key t.made.length).lookup b = some m := hb
    -- The number of the new lock is that of no lock that was kept before.
    have hself : ∀ c, c ≠ key → (bind t.locks key t.made.length).lookup c = some m →
        t.locks.lookup c = some m ∧ m ≠ t.made.length := fun c hc hm => by
      rw [lookup_bind_ne _ _ hc] at hm
      exact ⟨hm, Nat.ne_of_lt (h.made hm)⟩
    by_cases hakey : a = key <;> by_cases hbkey : b = key
    · rw [hakey, hbkey]
    · rw [hakey, lookup_bind_self] at ha
      exact absurd (Option.some.inj ha).symm (hself b hbkey hb).2
    · rw [hbkey, lookup_bind_self] at hb
      exact absurd (Option.some.inj hb).symm (hself a hakey ha).2
    · exact h.own a b m (hself a hakey ha).1 (hself b hbkey hb).1
  · intro m lock hmade hfree
    replace hmade : (t.made ++ [⟨some name, []⟩])[m]? = some lock := hmade
    have hne : m ≠ t.made.length := fun e => hfree key (e ▸ lookup_bind_self _ _ _)
    have hlt : m < t.made.length := by
      have := (List.getElem?_eq_some_iff.mp hmade).1
      rw [List.length_append, List.length_singleton] at this
      omega
    rw [List.getElem?_append_left hlt] at hmade
    refine h.dropped m lock hmade fun a ha => ?_
    by_cases hkey : a = key
    · have hnone : t.locks.lookup key = none := by
        have := (h.kept key).lock
        rwa [hline] at this
      exact absurd (hnone.symm.trans (hkey ▸ ha)) (by simp)
    · exact hfree a ((lookup_bind_ne _ _ hkey).trans ha)

/-- The new task stands behind the others. -/
theorem Held.join (h : t.Held key n first rest) (hnew : t.find? name = none) :
    ((t.setLock n ⟨some first.name, rest.map Task.name ++ [name]⟩).join
      ⟨name, key, n, false, none⟩).Held key n first (rest ++ [⟨name, key, n, false, none⟩]) := by
  have hmade : n < t.made.length := (List.getElem?_eq_some_iff.mp h.lock).1
  refine ⟨names_join h.names hnew, ?_, fun other hne => ?_, ?_, h.found, ?_, ?_, h.inside, ?_,
    h.own, ?_⟩
  · rw [line_join_self]
    exact congrArg (· ++ _) h.line
  · refine (h.others other hne).congr (line_join_ne _ hne) (lookup_bind_ne _ _ hne) rfl
      fun m hm => made_setLock_ne fun hmn => ?_
    exact hne (h.own other key n (hmn ▸ hm) h.found)
  · rw [List.length_append]
    exact count_join ⟨name, key, n, false, none⟩ h.count
  · rw [List.map_append]
    exact made_setLock_self hmade
  · intro l hl
    rw [← List.cons_append] at hl
    rcases List.mem_append.mp hl with hl | hl
    · exact h.here l hl
    · rw [List.mem_singleton.mp hl]
  · intro l hl
    rcases List.mem_append.mp hl with hl | hl
    · exact h.outside l hl
    · rw [List.mem_singleton.mp hl]
  · intro m lock hlock hfree
    have hmn : m ≠ n := fun e => hfree key (e ▸ h.found)
    exact h.dropped m lock ((made_setLock_ne hmn).symm.trans hlock) hfree

/-- A task that arrives is let in at once, or stands at the end of the line. -/
theorem serves_enter (h : t.Settled) (hnew : t.find? name = none) (key : Int) :
    Serves t [name] (t.guests ++ [⟨name, key, none⟩]) key (t.enter name key) := by
  cases hline : t.line key with
  | nil =>
    rw [enter_of_nil h hnew hline]
    have hheld := h.held_join hnew hline
    refine ⟨hheld.settled rfl, guests_join _ _, fun other hne => waiting_congr (line_join_ne _ hne),
      ?_, fun k hk _ => ?_⟩
    · simp [hheld.waiting, entrants]
    · rcases List.mem_append.mp hk with hk | hk
      · exact .inl hk
      · obtain rfl := List.mem_singleton.mp hk
        exact .inr ⟨by simp [entrants], rfl⟩
  | cons first rest =>
    obtain ⟨n, hheld, huntold⟩ := h.held hline
    rw [enter_of_cons hheld hnew]
    have hjoin := hheld.join hnew
    refine ⟨hjoin.settled huntold, guests_join _ _,
      fun other hne => waiting_congr (line_join_ne _ hne), ?_, fun k hk hin => ?_⟩
    · simp [hjoin.waiting, hheld.waiting, entrants]
    · rcases List.mem_append.mp hk with hk | hk
      · exact .inl hk
      · rw [List.mem_singleton.mp hk] at hin
        cases hin

/-- The name of a task that arrives by a request. -/
def arriving (t : Table) : Request → List String
  | .enter name _ => if (t.find? name).isSome then [] else [name]
  | _ => []

/-- **Every request leaves the table settled**, with the guests that there should be, and who gets
in comes off the front of those who wait. -/
theorem serves_serve (h : t.Settled) (q : Request) :
    ∃ key, Serves t (t.arriving q) (t.guests.serve q) key (t.serve q) ∧
      ∀ name other, q = .enter name other → other = key := by
  cases q with
  | enter name key =>
    refine ⟨key, ?_, fun _ _ e => by cases e; rfl⟩
    cases hf : t.find? name with
    | none => simpa [arriving, Queue.serve, serve, find?_guests, hf] using serves_enter h hf key
    | some k =>
      simpa [arriving, Queue.serve, serve, enter, find?_guests, hf] using Serves.nothing h key
  | exit name =>
    obtain ⟨key, hs⟩ := serves_tell h name .done
    exact ⟨key, hs, fun _ _ e => by cases e⟩
  | fail name =>
    obtain ⟨key, hs⟩ := serves_tell h name .failed
    exact ⟨key, hs, fun _ _ e => by cases e⟩
  | cancel name =>
    obtain ⟨key, hs⟩ := serves_cancel h name
    exact ⟨key, hs, fun _ _ e => by cases e⟩

end

end Table

/-! ## The register -/

/-- A visit of a task to a key, by the number of its arrival. -/
structure Visit where
  number : Nat
  task : String
  key : Int
deriving DecidableEq, Repr

/-- The visits in order of arrival, and those that got in, in the order in which they did. -/
structure Register where
  arrived : List Visit := []
  entered : List Visit := []
deriving DecidableEq, Repr

namespace Register

/-- The latest visit of a name. -/
def latest? (r : Register) (task : String) : Option Visit :=
  r.arrived.reverse.find? fun v => v.task == task

/-- The register with a new arrival. -/
def arrive (r : Register) (task : String) (key : Int) : Register :=
  { r with arrived := r.arrived ++ [⟨r.arrived.length, task, key⟩] }

/-- The register with those that got in. -/
def note (r : Register) (notices : List Notice) : Register :=
  { r with entered := r.entered ++ (Table.entrants notices).filterMap r.latest? }

theorem latest?_arrive_self (r : Register) (task : String) (key : Int) :
    (r.arrive task key).latest? task = some ⟨r.arrived.length, task, key⟩ := by
  simp [latest?, arrive]

theorem latest?_arrive_ne (r : Register) {task other : String} (key : Int) (h : other ≠ task) :
    (r.arrive task key).latest? other = r.latest? other := by
  simp [latest?, arrive, h.symm]

end Register

/-- Serves a request and puts on record who arrived by it and who got in. -/
def attend (state : Table × Register) (q : Request) : Table × Register :=
  let register :=
    match q with
    | .enter task key =>
      if (state.1.find? task).isSome then state.2 else state.2.arrive task key
    | _ => state.2
  ((state.1.serve q).1, register.note (state.1.serve q).2)

/-- The table and the register after requests, from an empty table on. -/
def attendAll (requests : List Request) : Table × Register := requests.foldl attend ({}, {})

/-- The register agrees with the table: arrivals are numbered, whoever is inside is on record, and
of every key those who got in and after them those who wait stand in order of arrival. -/
structure Agrees (t : Table) (r : Register) : Prop where
  numbers : r.arrived.map Visit.number = List.range r.arrived.length
  insiders : ∀ k ∈ t.tasks, k.inside = true →
    ∃ v ∈ r.entered, r.latest? k.name = some v ∧ v.key = k.key
  turns : ∀ key, ∃ ws : List Visit, ws.map Visit.task = t.waiting key
    ∧ (∀ v ∈ ws, r.latest? v.task = some v)
    ∧ (r.entered.filter (fun v => v.key == key) ++ ws).Sublist
        (r.arrived.filter fun v => v.key == key)

section

variable {t u : Table} {r : Register}

theorem mem_tasks_of_waiting {key : Int} {name : String} (h : name ∈ t.waiting key) :
    ∃ k ∈ t.tasks, k.name = name := by
  obtain ⟨k, hk, rfl⟩ := List.mem_map.mp h
  exact ⟨k, (Table.mem_line.mp (List.mem_of_mem_filter hk)).1, rfl⟩

/-- What is known of a register before those are noted that get in by a request: `arriving` are
the names that have just arrived at the key. -/
structure Expects (t : Table) (arriving : List String) (key : Int) (r : Register) : Prop where
  numbers : r.arrived.map Visit.number = List.range r.arrived.length
  insiders : ∀ k ∈ t.tasks, k.inside = true →
    ∃ v ∈ r.entered, r.latest? k.name = some v ∧ v.key = k.key
  turns : ∀ other, ∃ ws : List Visit,
    ws.map Visit.task = t.waiting other ++ (if other = key then arriving else [])
    ∧ (∀ v ∈ ws, r.latest? v.task = some v)
    ∧ (r.entered.filter (fun v => v.key == other) ++ ws).Sublist
        (r.arrived.filter fun v => v.key == other)

theorem Agrees.expects (h : Agrees t r) (key : Int) : Expects t [] key r where
  numbers := h.numbers
  insiders := h.insiders
  turns other := by simpa using h.turns other

/-- A new arrival stands behind those who wait. -/
theorem Agrees.arrive (h : Agrees t r) {name : String} (hnew : t.find? name = none) (key : Int) :
    Expects t [name] key (r.arrive name key) := by
  have hne : ∀ k ∈ t.tasks, k.name ≠ name := fun k hk => by
    simpa using List.find?_eq_none.mp hnew k hk
  refine ⟨?_, fun k hk hin => ?_, fun other => ?_⟩
  · simp [Register.arrive, h.numbers, List.range_succ]
  · rw [Register.latest?_arrive_ne r key (hne k hk)]
    exact h.insiders k hk hin
  · obtain ⟨ws, hws, hlatest, hsub⟩ := h.turns other
    have hold : ∀ v ∈ ws, (r.arrive name key).latest? v.task = some v := by
      intro v hv
      obtain ⟨k, hk, hname⟩ := mem_tasks_of_waiting (hws ▸ List.mem_map_of_mem hv)
      rw [Register.latest?_arrive_ne r key (hname ▸ hne k hk)]
      exact hlatest v hv
    by_cases hother : other = key
    · subst hother
      refine ⟨ws ++ [⟨r.arrived.length, name, other⟩], by simp [hws], fun v hv => ?_, ?_⟩
      · rcases List.mem_append.mp hv with hv | hv
        · exact hold v hv
        · rw [List.mem_singleton.mp hv]
          exact Register.latest?_arrive_self r name other
      · rw [← List.append_assoc]
        simpa [Register.arrive] using hsub.append (List.Sublist.refl _)
    · exact ⟨ws, by simp [hws, hother], hold, by simpa [Register.arrive, Ne.symm hother] using hsub⟩

/-- Those who get in come off the front of those who wait. -/
theorem Expects.note {arriving : List String} {queue : Queue} {key : Int}
    {out : Table × List Notice} (h : Expects t arriving key r)
    (hs : t.Serves arriving queue key out) :
    Agrees out.1 (r.note out.2) := by
  obtain ⟨ws, hws, hlatest, hsub⟩ := h.turns key
  rw [if_pos rfl] at hws
  -- The visits that are left of those who waited: first those who get in, then those who wait on.
  obtain ⟨kept, hkept, hnames⟩ := List.sublist_map_iff.mp (hws ▸ hs.sublist)
  obtain ⟨ins, outs, rfl, hins, houts⟩ := List.map_eq_append_iff.mp hnames.symm
  have hkey : ∀ v ∈ ws, v.key = key := fun v hv => by
    have hmem := hsub.subset (List.mem_append_right _ hv)
    simpa using (List.mem_filter.mp hmem).2
  have hentered : (Table.entrants out.2).filterMap r.latest? = ins := by
    rw [← hins, List.filterMap_map]
    refine (List.filterMap_congr fun v hv => ?_).trans (List.filterMap_some)
    exact hlatest v (hkept.subset (List.mem_append_left _ hv))
  have hnote : r.note out.2 = { r with entered := r.entered ++ ins } := by
    rw [Register.note, hentered]
  rw [hnote]
  refine ⟨h.numbers, fun k hk hin => ?_, fun other => ?_⟩
  · rcases hs.insiders k hk hin with hk | ⟨hk, hkk⟩
    · obtain ⟨v, hv, hrest⟩ := h.insiders k hk hin
      exact ⟨v, List.mem_append_left _ hv, hrest⟩
    · obtain ⟨v, hv, hname⟩ := List.mem_map.mp (hins ▸ hk)
      have hmem := hkept.subset (List.mem_append_left outs hv)
      exact ⟨v, List.mem_append_right _ hv, hname ▸ hlatest v hmem, (hkey v hmem).trans hkk.symm⟩
  · by_cases hother : other = key
    · subst hother
      refine ⟨outs, houts, fun v hv => hlatest v (hkept.subset (List.mem_append_right _ hv)), ?_⟩
      have hfilter : ins.filter (fun v => v.key == other) = ins :=
        List.filter_eq_self.mpr fun v hv => by
          simpa using hkey v (hkept.subset (List.mem_append_left _ hv))
      rw [List.filter_append, hfilter, List.append_assoc]
      exact ((List.Sublist.refl _).append hkept).trans hsub
    · obtain ⟨vs, hvs, hvlatest, hvsub⟩ := h.turns other
      refine ⟨vs, ?_, hvlatest, ?_⟩
      · rw [hs.ne other hother, hvs, if_neg hother, List.append_nil]
      · have hfilter : ins.filter (fun v => v.key == other) = [] :=
          List.filter_eq_nil_iff.mpr fun v hv => by
            simpa using fun e => hother
              (e.symm.trans (hkey v (hkept.subset (List.mem_append_left _ hv))))
        rw [List.filter_append, hfilter, List.append_nil]
        exact hvsub

/-- **One request keeps everything in order**, and brings those into line who should be. -/
theorem agrees_attend (ht : t.Settled) (hr : Agrees t r) (q : Request) :
    (attend (t, r) q).1.Settled ∧ Agrees (attend (t, r) q).1 (attend (t, r) q).2
      ∧ (attend (t, r) q).1.guests = t.guests.serve q := by
  obtain ⟨key, hs, hkey⟩ := Table.serves_serve ht q
  refine ⟨hs.settled, ?_, hs.guests⟩
  cases q with
  | enter name other =>
    obtain rfl := hkey name other rfl
    cases hf : t.find? name with
    | none =>
      have := (hr.arrive hf other).note (by simpa [Table.arriving, hf] using hs)
      simpa [attend, hf] using this
    | some k =>
      have := (hr.expects other).note (by simpa [Table.arriving, hf] using hs)
      simpa [attend, hf] using this
  | exit name => exact (hr.expects key).note hs
  | fail name => exact (hr.expects key).note hs
  | cancel name => exact (hr.expects key).note hs

theorem settled_empty : ({} : Table).Settled where
  names := List.nodup_nil
  kept _ := ⟨rfl, rfl, trivial⟩
  own _ _ _ h := by cases h
  dropped _ _ h := by cases h

/-- The table and the register agree after any requests, and in line are those who should be. -/
theorem agrees_attendAll (requests : List Request) :
    (attendAll requests).1.Settled ∧ Agrees (attendAll requests).1 (attendAll requests).2
      ∧ (attendAll requests).1.guests = Queue.after requests := by
  have hempty : Agrees {} {} := ⟨rfl, by simp, fun _ => ⟨[], rfl, by simp, by simp⟩⟩
  suffices h : ∀ (qs : List Request) (s : Table × Register), s.1.Settled → Agrees s.1 s.2 →
      (qs.foldl attend s).1.Settled ∧ Agrees (qs.foldl attend s).1 (qs.foldl attend s).2
        ∧ (qs.foldl attend s).1.guests = qs.foldl Queue.serve s.1.guests from
    h requests ({}, {}) settled_empty hempty
  intro qs
  induction qs with
  | nil => exact fun s hs hr => ⟨hs, hr, rfl⟩
  | cons q qs ih =>
    intro s hs hr
    obtain ⟨hs', hr', hguests⟩ := agrees_attend hs hr q
    have := ih (attend s q) hs' hr'
    rwa [hguests] at this

end

/-! ## The result -/

/-- How the lock of a key is held when no task can move, and those in line should be as `queue` has
it. -/
structure Fair (t : Table) (r : Register) (queue : Queue) (key : Int) : Prop where
  /-- In line are those who should be, in order of arrival. -/
  line : (t.line key).map Task.guest = queue.filter fun g => g.key == key
  /-- The first of the line is inside, and the others wait. -/
  front : ∀ first rest, t.line key = first :: rest →
    first.inside = true ∧ ∀ k ∈ rest, k.inside = false
  /-- One task at most is inside. -/
  exclusive : ((t.line key).filter Task.inside).length ≤ 1
  /-- The count is that of the tasks inside or waiting, and there is one only if there are any. -/
  counted : t.holders.lookup key
    = if (t.line key).length = 0 then none else some (t.line key).length
  /-- There is a lock exactly as long as there are tasks inside or waiting. -/
  locked : (t.locks.lookup key).isSome = true ↔ 0 < (t.line key).length
  /-- The lock that is kept is the one that everyone in line is at: the first is inside, and the
  others wait at it in order of arrival. -/
  held : ∀ first rest, t.line key = first :: rest → ∃ n, t.locks.lookup key = some n
    ∧ t.made[n]? = some ⟨some first.name, rest.map Task.name⟩ ∧ ∀ k ∈ t.line key, k.lock = n
  /-- It is the lock of no other key. -/
  own : ∀ other n, t.locks.lookup key = some n → t.locks.lookup other = some n → other = key
  /-- At a lock that was dropped nobody is inside or waits. -/
  dropped : ∀ n lock, t.made[n]? = some lock → (∀ other, t.locks.lookup other ≠ some n) →
    lock = {} ∧ ∀ k ∈ t.line key, k.lock ≠ n
  /-- Who waits, waits for somebody. -/
  occupied : (∃ k ∈ t.line key, k.inside = false) → ∃ k ∈ t.line key, k.inside = true
  /-- Nobody who is inside was told to leave: no task can move. -/
  resting : ∀ k ∈ t.line key, k.inside = true → k.told = none
  /-- Who is inside is on record as having got in. -/
  recorded : ∀ k ∈ t.line key, k.inside = true →
    ∃ v ∈ r.entered, r.latest? k.name = some v ∧ v.key = key
  /-- Tasks get in in order of arrival. -/
  ordered : ((r.entered.filter fun v => v.key == key).map Visit.number).Pairwise (· < ·)
  /-- Those who wait arrived after all that got in, and wait in order of arrival. -/
  queued : ∃ ws : List Visit, ws.map Visit.task = t.waiting key
    ∧ (r.entered.filter (fun v => v.key == key) ++ ws).Sublist
        (r.arrived.filter fun v => v.key == key)

/-- **Tasks take turns.** Whatever is asked, in any order, of any tasks and keys: when no task can
move, those are in line for a key who should be, the first of them is inside its lock and the others
wait at the same lock, what is kept for the key is what they make it, and tasks got in as they
arrived. -/
theorem serves_in_turn (requests : List Request) (key : Int) :
    Fair (attendAll requests).1 (attendAll requests).2 (Queue.after requests) key := by
  obtain ⟨hsettled, hagrees, hguests⟩ := agrees_attendAll requests
  generalize (attendAll requests).1 = t at hsettled hagrees hguests ⊢
  generalize (attendAll requests).2 = r at hagrees ⊢
  obtain ⟨hcount, hlock, hturn⟩ := hsettled.kept key
  obtain ⟨ws, hws, -, hsub⟩ := hagrees.turns key
  have hnumbers : (r.arrived.map Visit.number).Pairwise (· < ·) :=
    hagrees.numbers ▸ List.pairwise_lt_range
  have line : (t.line key).map Task.guest = (Queue.after requests).filter fun g => g.key == key :=
    hguests ▸ (Table.guests_line t key).symm
  have own : ∀ other n, t.locks.lookup key = some n → t.locks.lookup other = some n →
      other = key := fun other n hkey hother => hsettled.own other key n hother hkey
  have recorded : ∀ k ∈ t.line key, k.inside = true →
      ∃ v ∈ r.entered, r.latest? k.name = some v ∧ v.key = key := by
    intro k hk hin
    obtain ⟨hmem, hkey⟩ := Table.mem_line.mp hk
    obtain ⟨v, hv, hlatest, hvisit⟩ := hagrees.insiders k hmem hin
    exact ⟨v, hv, hlatest, hvisit.trans hkey⟩
  have ordered : ((r.entered.filter fun v => v.key == key).map Visit.number).Pairwise (· < ·) := by
    have hentered := (List.sublist_append_left _ ws).trans hsub
    exact hnumbers.sublist ((hentered.trans List.filter_sublist).map Visit.number)
  cases hline : t.line key with
  | nil =>
    rw [hline] at hcount hlock
    have hnone : t.locks.lookup key = none := hlock
    exact
      { line
        front := by simp [hline]
        exclusive := by simp [hline]
        counted := by simpa [hline, Table.countOf] using hcount
        locked := by simp [hline, hnone]
        held := by simp [hline]
        own
        dropped := fun n lock hmade hfree => ⟨hsettled.dropped n lock hmade hfree, by simp [hline]⟩
        occupied := by simp [hline]
        resting := by simp [hline]
        recorded
        ordered
        queued := ⟨ws, hws, hsub⟩ }
  | cons first rest =>
    rw [hline] at hcount hlock hturn
    obtain ⟨n, hfound, hmade, hhere⟩ := hlock
    obtain ⟨hin, htold, hrest⟩ := hturn
    have honly : rest.filter Task.inside = [] :=
      List.filter_eq_nil_iff.mpr fun k hk => by simp [hrest k hk]
    exact
      { line
        front := fun f others h => by
          obtain ⟨rfl, rfl⟩ := List.cons.inj (hline.symm.trans h)
          exact ⟨hin, hrest⟩
        exclusive := by simp [hline, hin, honly]
        counted := by simpa [hline, Table.countOf] using hcount
        locked := by simp [hline, hfound]
        held := fun f others h => by
          obtain ⟨rfl, rfl⟩ := List.cons.inj (hline.symm.trans h)
          exact ⟨n, hfound, hmade, hline.symm ▸ hhere⟩
        own
        dropped := fun m lock hm hfree => by
          refine ⟨hsettled.dropped m lock hm hfree, fun k hk hkm => hfree key ?_⟩
          rw [hfound, ← hhere k (hline ▸ hk), hkm]
        occupied := fun _ => ⟨first, by simp [hline], hin⟩
        resting := fun k hk hkin => by
          rw [hline] at hk
          rcases List.mem_cons.mp hk with rfl | hk
          · exact htold
          · rw [hrest k hk] at hkin
            cases hkin
        recorded
        ordered
        queued := ⟨ws, hws, hsub⟩ }

/-- In an office of three, one waits and gives up, one is told to leave while it waits and leaves as
soon as it is in, and with the last one the lock is dropped: whoever comes then has another lock,
the second one that was made for the key. -/
theorem serves_in_turn_office :
    let requests : List Request := [.enter "a" 7, .enter "b" 7, .enter "c" 7, .exit "c",
      .cancel "b", .enter "b" 8, .fail "a", .enter "d" 7, .enter "a" 7]
    Fair (attendAll requests).1 (attendAll requests).2 (Queue.after requests) 7
      ∧ (attendAll requests).2.entered
          = [⟨0, "a", 7⟩, ⟨3, "b", 8⟩, ⟨2, "c", 7⟩, ⟨4, "d", 7⟩]
      ∧ Queue.after requests = [⟨"b", 8, none⟩, ⟨"d", 7, none⟩, ⟨"a", 7, none⟩]
      ∧ (attendAll requests).1.made = [{}, ⟨some "b", []⟩, ⟨some "d", ["a"]⟩]
      ∧ (attendAll requests).1.locks = [(8, 1), (7, 2)]
      ∧ (attendAll requests).1.holders = [(8, 1), (7, 2)] :=
  ⟨serves_in_turn _ 7, by decide, by decide, by decide, by decide, by decide⟩

end Lock

end Deskflow
