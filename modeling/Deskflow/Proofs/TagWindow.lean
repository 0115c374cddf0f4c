import Deskflow.Proofs.ResumeGuard

/-!
# The tag window

A tag automation is passed over if it fired for the same change in the same conversation within the
tag window. Whether it did is looked up in one record for all conversations, which is also where a
firing is put down, and where what is out of date is dropped: each time it is asked. This file
relates the record to what was asked before, over all that the engine does.

A `Look` is one time that the record is asked. A history of looks is any sequence of them with
anything in between that leaves the record alone and does not turn the stopwatch back (`Watched`):
so it does not matter whether an event comes from outside or from a change of tags that a run makes,
which conversations the looks are about, or how long a run sleeps in between. How long ago a firing
was is told by the readings (`Stopwatch.isRecent`).

The record is asked by `_recently_fired`.

* `Watched.remembers`: the record holds the firings that are younger than the window.
* `Watched.lawful`: so a look is passed over exactly if there is such a firing.
* `verdicts_of_lawful`: what becomes of the looks for one change is told by their times alone.
* `makes_handle`: the looks of everything the engine does make up a history.
* `keeps_window`: the result.
-/

namespace Deskflow

/-! ## Where a history is split -/

section

variable {α : Type} {xs before after : List α} {a : α}

/-- What holds at every point of a history with one more at its end. -/
theorem forall_split_concat {P : List α → α → Prop} :
    (∀ before x after, xs ++ [a] = before ++ x :: after → P before x) ↔
      (∀ before x after, xs = before ++ x :: after → P before x) ∧ P xs a := by
  constructor
  · exact fun h => ⟨fun before x after hsplit => h before x (after ++ [a]) (by simp [hsplit]),
      h xs a [] rfl⟩
  · rintro ⟨h, hlast⟩ before x after hsplit
    rcases List.eq_nil_or_concat after with rfl | ⟨after', last, rfl⟩
    · obtain ⟨rfl, hx⟩ := List.append_inj' hsplit rfl
      cases hx
      exact hlast
    · rw [List.concat_eq_append, ← List.cons_append, ← List.append_assoc] at hsplit
      exact h before x after' (List.append_inj' hsplit rfl).1

/-- A point of what is kept of a history is one of the history. -/
theorem split_of_filter {p : α → Bool} (h : xs.filter p = before ++ a :: after) :
    ∃ earlier later, xs = earlier ++ a :: later ∧ before = earlier.filter p ∧ p a = true := by
  obtain ⟨front, back, rfl, rfl, hback⟩ := List.filter_eq_append_iff.mp h
  obtain ⟨dropped, later, rfl, hdropped, ha, -⟩ := List.filter_eq_cons_iff.mp hback
  refine ⟨front ++ dropped, later, by simp, ?_, ha⟩
  rw [List.filter_append, List.filter_eq_nil_iff.mpr hdropped, List.append_nil]

end

/-- One time that it is asked whether an automation fired for a change within the tag window. -/
structure Look where
  key : FiringKey
  time : Binary64
  /-- It did, and the automation is passed over. -/
  skipped : Bool
deriving DecidableEq, Repr

namespace Look

/-- An earlier look let the automation through, for the same change and less than the window ago. -/
def Repeats (window : Int) (past : List Look) (l : Look) : Prop :=
  ∃ e ∈ past, e.skipped = false ∧ e.key = l.key ∧ Stopwatch.isRecent window l.time e.time = true

/-- **The law of the window**: what repeats a firing is passed over, and nothing else is. -/
def Lawful (window : Int) (looks : List Look) : Prop :=
  ∀ before l after, looks = before ++ l :: after →
    (l.skipped = true ↔ l.Repeats window before)

/-- The firings that come of looks. -/
def firings (looks : List Look) : List (FiringKey × Binary64) :=
  (looks.filter fun l => !l.skipped).map fun l => (l.key, l.time)

theorem firings_append (xs ys : List Look) : firings (xs ++ ys) = firings xs ++ firings ys := by
  simp [firings]

theorem mem_firings {looks : List Look} {key : FiringKey} {time : Binary64} :
    (key, time) ∈ firings looks ↔
      ∃ l ∈ looks, l.skipped = false ∧ l.key = key ∧ l.time = time := by
  simp [firings, and_assoc]

theorem Lawful.snoc {window : Int} {looks : List Look} (h : Lawful window looks) {l : Look}
    (hl : l.skipped = true ↔ l.Repeats window looks) : Lawful window (looks ++ [l]) :=
  forall_split_concat.mpr ⟨h, hl⟩

/-- The law holds among some of the looks alone, if no firing is left out for a change that one of
them is about. -/
theorem Lawful.filter {window : Int} {looks : List Look} (h : Lawful window looks)
    {kept : Look → Bool}
    (hkept : ∀ e l, kept l = true → e.key = l.key → e.skipped = false → kept e = true) :
    Lawful window (looks.filter kept) := by
  intro before l after hsplit
  obtain ⟨earlier, later, rfl, rfl, hl⟩ := split_of_filter hsplit
  rw [h earlier l later rfl]
  constructor
  · rintro ⟨e, he, hlet, hkey, hwithin⟩
    exact ⟨e, List.mem_filter.mpr ⟨he, hkept e l hl hkey hlet⟩, hlet, hkey, hwithin⟩
  · rintro ⟨e, he, hrest⟩
    exact ⟨e, (List.mem_filter.mp he).1, hrest⟩

/-- Without a window nothing is a repetition, if looks are made one after another. -/
theorem not_repeats_of_closed {window : Int} (hclosed : window ≤ 0) {past : List Look} {l : Look}
    (hpast : ∀ e ∈ past, e.time.units ≤ l.time.units) : ¬l.Repeats window past := by
  rintro ⟨e, he, -, -, hwithin⟩
  rw [Stopwatch.not_isRecent hclosed (hpast e he)] at hwithin
  cases hwithin

theorem Lawful.never {window : Int} {looks : List Look} (h : Lawful window looks)
    (ordered : looks.Pairwise fun e l => e.time.units ≤ l.time.units) (hclosed : window ≤ 0) :
    ∀ l ∈ looks, l.skipped = false := by
  intro l hl
  obtain ⟨before, after, rfl⟩ := List.append_of_mem hl
  refine Bool.eq_false_iff.mpr fun hskipped => ?_
  refine not_repeats_of_closed hclosed (fun e he => ?_) ((h before l after rfl).mp hskipped)
  exact (List.pairwise_append.mp ordered).2.2 e he l List.mem_cons_self

/-- Two firings for the same change lie at least the window apart. -/
theorem Lawful.apart {window : Int} {looks : List Look} (h : Lawful window looks) :
    looks.Pairwise fun e l => e.skipped = false → l.skipped = false → e.key = l.key →
      Stopwatch.isRecent window l.time e.time = false := by
  rw [List.pairwise_iff_getElem]
  intro i j hi hj hij hlet hlet' hkey
  refine Bool.eq_false_iff.mpr fun hwithin => ?_
  have hsplit : looks = looks.take j ++ looks[j] :: looks.drop (j + 1) := by
    rw [← List.drop_eq_getElem_cons hj, List.take_append_drop]
  have hearlier : looks[i] ∈ looks.take j := List.mem_take_iff_getElem.mpr ⟨i, by omega, rfl⟩
  have hskipped := (h _ _ _ hsplit).mpr ⟨looks[i], hearlier, hlet, hkey, hwithin⟩
  rw [hlet'] at hskipped
  cases hskipped

/-! ## The looks for one change -/

/-- What becomes of the looks for one change that are made at some readings, if `last` is when the
automation fired last. -/
def verdicts (window : Int) : Option Binary64 → List Binary64 → List Bool
  | _, [] => []
  | last, time :: rest =>
    let skipped := last.any fun t => Stopwatch.isRecent window time t
    skipped :: verdicts window (if skipped then last else some time) rest

/-- When the last firing was that came of looks. -/
def lastFiring (looks : List Look) : Option Binary64 :=
  (looks.filter fun l => !l.skipped).getLast?.map time

theorem lastFiring_snoc (looks : List Look) (l : Look) :
    lastFiring (looks ++ [l]) = if l.skipped then lastFiring looks else some l.time := by
  cases hl : l.skipped <;> simp [lastFiring, hl]

/-- Among looks for one change, one that repeats a firing repeats the last. -/
theorem repeats_iff {window : Int} {looks : List Look} {l : Look}
    (ordered : looks.Pairwise fun e l => e.time.units ≤ l.time.units)
    (own : ∀ e ∈ looks, e.key = l.key) :
    l.Repeats window looks ↔
      (lastFiring looks).any (fun t => Stopwatch.isRecent window l.time t) = true := by
  unfold lastFiring Repeats
  have hsorted := ordered.sublist (List.filter_sublist (p := fun l => !l.skipped))
  cases hlast : (looks.filter fun l => !l.skipped).getLast? with
  | none =>
    have hnone := List.getLast?_eq_none_iff.mp hlast
    refine iff_of_false ?_ (by simp)
    rintro ⟨e, he, hlet, -⟩
    have : e ∈ looks.filter fun l => !l.skipped := List.mem_filter.mpr ⟨he, by simp [hlet]⟩
    simp [hnone] at this
  | some m =>
    obtain ⟨earlier, hsplit⟩ := List.getLast?_eq_some_iff.mp hlast
    rw [hsplit] at hsorted
    simp only [Option.map_some, Option.any_some]
    constructor
    · rintro ⟨e, he, hlet, -, hwithin⟩
      have hmem : e ∈ earlier ++ [m] := hsplit ▸ List.mem_filter.mpr ⟨he, by simp [hlet]⟩
      refine Stopwatch.isRecent_of_later ?_ hwithin
      rcases List.mem_append.mp hmem with hmem | hmem
      · exact (List.pairwise_append.mp hsorted).2.2 e hmem m (List.mem_singleton.mpr rfl)
      · exact Int.le_of_eq (congrArg (fun x => x.time.units) (List.mem_singleton.mp hmem))
    · intro hwithin
      have hmem : m ∈ looks.filter fun l => !l.skipped := by simp [hsplit]
      obtain ⟨hm, hlet⟩ := List.mem_filter.mp hmem
      exact ⟨m, hm, by simpa using hlet, own m hm, hwithin⟩

theorem verdicts_of_append {window : Int} {key : FiringKey} :
    ∀ rest before : List Look, Lawful window (before ++ rest) →
      (before ++ rest).Pairwise (fun e l => e.time.units ≤ l.time.units) →
      (∀ l ∈ before ++ rest, l.key = key) →
        rest.map skipped = verdicts window (lastFiring before) (rest.map time)
  | [], _, _, _, _ => rfl
  | l :: rest, before, h, ordered, own => by
    have hskipped := h before l rest rfl
    rw [repeats_iff (List.pairwise_append.mp ordered).1 fun e he => by
        rw [own e (List.mem_append_left _ he), own l (by simp)],
      ← Bool.eq_iff_iff] at hskipped
    have hrest := verdicts_of_append rest (before ++ [l]) (by simpa using h)
      (by simpa using ordered) (by simpa using own)
    rw [lastFiring_snoc] at hrest
    rw [List.map_cons, List.map_cons, verdicts, ← hskipped, hrest]

/-- **What becomes of the looks for one change is told by their times alone**: neither the looks for
other changes nor what was passed over matters to it. -/
theorem verdicts_of_lawful {window : Int} {looks : List Look} (h : Lawful window looks)
    (ordered : looks.Pairwise fun e l => e.time.units ≤ l.time.units) (key : FiringKey) :
    (looks.filter fun l => l.key = key).map skipped
      = verdicts window none ((looks.filter fun l => l.key = key).map time) := by
  have hown : Lawful window (looks.filter fun l => l.key = key) :=
    h.filter fun e l hl hkey _ => by simpa [hkey] using hl
  have hkeys : ∀ l ∈ looks.filter fun l => l.key = key, l.key = key :=
    fun l hl => by simpa using (List.mem_filter.mp hl).2
  exact verdicts_of_append _ [] hown (ordered.sublist List.filter_sublist) hkeys

end Look

namespace Engine

open Work World

/-! ## Histories of looks -/

/-- What a firing is for: the automation, the conversation, the kind of the change, and the tags, in
whatever order. -/
theorem firingKey_eq_firingKey_iff {a b : Int} {e f : Event} :
    firingKey a e = firingKey b f ↔
      a = b ∧ e.conversationId = f.conversationId ∧ e.kind = f.kind ∧ e.tagIds.Perm f.tagIds := by
  simp only [firingKey, FiringKey.mk.injEq, sortBy_int_eq_iff_perm]

/-- The look that an event is for an automation. -/
def lookAt (settings : Settings) (automationId : Int) (event : Event) (w : World) : Look :=
  { key := firingKey automationId event
    time := w.reading
    skipped := match ((recentlyFired settings automationId event).runOn w).1 with
      | .ok fired => fired
      | .error _ => false }

/-- The record of firings stays as it is, and the stopwatch is not turned back. -/
structure Unasked (w v : World) : Prop where
  firings : v.memory.firings = w.memory.firings
  later : w.reading.units ≤ v.reading.units

instance : Std.Refl Unasked := ⟨fun _ => ⟨rfl, Int.le_refl _⟩⟩

instance : IsTrans World Unasked := ⟨fun _ _ _ h k =>
  ⟨k.firings.trans h.firings, Int.le_trans h.later k.later⟩⟩

/-- The worlds that looks lead to: the record is empty at first, and between looks it stays as it
is. -/
inductive Watched (settings : Settings) : World → List Look → Prop
  | start {w : World} (empty : w.memory.firings = []) : Watched settings w []
  | look {w : World} {looks : List Look} (h : Watched settings w looks) (automationId : Int)
      (event : Event) :
      Watched settings ((recentlyFired settings automationId event).runOn w).2
        (looks ++ [lookAt settings automationId event w])
  | meanwhile {w v : World} {looks : List Look} (h : Watched settings w looks)
      (unasked : Unasked w v) : Watched settings v looks

section

variable {settings : Settings} {w v : World} {looks : List Look}

theorem within_append {α : Type} (seconds : Int) (now : Binary64) (xs ys : List (α × Binary64)) :
    within seconds now (xs ++ ys) = within seconds now xs ++ within seconds now ys :=
  List.filter_append xs ys

/-- What is out of date stays so. -/
theorem within_within {α : Type} {seconds : Int} {now later : Binary64}
    (h : now.units ≤ later.units) (entries : List (α × Binary64)) :
    within seconds later (within seconds now entries) = within seconds later entries := by
  unfold within
  rw [List.filter_filter]
  refine List.filter_congr fun e _ => ?_
  exact Bool.and_eq_left_iff_imp.mpr (Stopwatch.isRecent_of_earlier h)

/-- What the record holds of looks: the firings that are younger than the window, if there is
one. -/
structure Remembers (settings : Settings) (w : World) (looks : List Look) : Prop where
  record : 0 < settings.tagWindow →
    within settings.tagWindow w.reading w.memory.firings
      = within settings.tagWindow w.reading (Look.firings looks)
  past : ∀ l ∈ looks, l.time.units ≤ w.reading.units

theorem Remembers.unasked (h : Remembers settings w looks) (k : Unasked w v) :
    Remembers settings v looks where
  record hopen := by
    rw [k.firings, ← within_within k.later, h.record hopen, within_within k.later]
  past l hl := Int.le_trans (h.past l hl) k.later

/-- How the record is asked, if there is a window. -/
theorem runOn_recentlyFired_of_open (hopen : 0 < settings.tagWindow) (automationId : Int)
    (event : Event) (w : World) :
    (recentlyFired settings automationId event).runOn w =
      let young := within settings.tagWindow w.reading w.memory.firings
      let key := firingKey automationId event
      let fired := young.any fun e => e.1 = key
      (.ok fired, { w with memory := { w.memory with
        firings := if fired then young else young ++ [(key, w.reading)] } }) := by
  unfold recentlyFired
  rw [if_neg (by omega)]
  rfl

theorem lookAt_of_closed (hclosed : settings.tagWindow ≤ 0) (automationId : Int) (event : Event)
    (w : World) :
    lookAt settings automationId event w = ⟨firingKey automationId event, w.reading, false⟩ := by
  rw [lookAt, recentlyFired_of_closed hclosed]

theorem lookAt_of_open (hopen : 0 < settings.tagWindow) (automationId : Int) (event : Event)
    (w : World) :
    lookAt settings automationId event w = ⟨firingKey automationId event, w.reading,
      (within settings.tagWindow w.reading w.memory.firings).any
        fun e => e.1 = firingKey automationId event⟩ := by
  rw [lookAt, runOn_recentlyFired_of_open hopen]

/-- **A look is passed over exactly if it repeats a firing.** -/
theorem Remembers.skipped_iff (h : Remembers settings w looks) (automationId : Int)
    (event : Event) :
    (lookAt settings automationId event w).skipped = true ↔
      (lookAt settings automationId event w).Repeats settings.tagWindow looks := by
  by_cases hopen : 0 < settings.tagWindow
  · rw [lookAt_of_open hopen, h.record hopen]
    simp only [List.any_eq_true, decide_eq_true_eq, Look.Repeats]
    constructor
    · rintro ⟨⟨_, time⟩, hmem, rfl⟩
      obtain ⟨hfiring, hwithin⟩ := List.mem_filter.mp hmem
      obtain ⟨e, he, hlet, hkey, rfl⟩ := Look.mem_firings.mp hfiring
      exact ⟨e, he, hlet, hkey, by simpa using hwithin⟩
    · rintro ⟨e, he, hlet, hkey, hwithin⟩
      refine ⟨(e.key, e.time), List.mem_filter.mpr ⟨?_, by simpa using hwithin⟩, hkey⟩
      exact Look.mem_firings.mpr ⟨e, he, hlet, rfl, rfl⟩
  · rw [lookAt_of_closed (by omega)]
    exact iff_of_false (by simp) (Look.not_repeats_of_closed (by omega) h.past)

theorem Remembers.look (h : Remembers settings w looks) (automationId : Int) (event : Event) :
    Remembers settings ((recentlyFired settings automationId event).runOn w).2
      (looks ++ [lookAt settings automationId event w]) := by
  have hreading : ((recentlyFired settings automationId event).runOn w).2.reading = w.reading := by
    obtain ⟨fired, firings, hfired⟩ := runOn_recentlyFired settings automationId event w
    rw [hfired]
    rfl
  refine ⟨fun hopen => ?_, fun l hl => ?_⟩
  · rw [hreading, lookAt_of_open hopen, runOn_recentlyFired_of_open hopen, Look.firings_append,
      within_append, ← h.record hopen]
    have hnow := (Stopwatch.isRecent_self_iff w.reading).mpr hopen
    dsimp only
    cases (within settings.tagWindow w.reading w.memory.firings).any
        fun e => e.1 = firingKey automationId event with
    | true => simp [Look.firings, within]
    | false => simp [Look.firings, within, hnow]
  · rw [hreading]
    rcases List.mem_append.mp hl with hl | hl
    · exact h.past l hl
    · obtain rfl := List.mem_singleton.mp hl
      exact Int.le_refl _

theorem Watched.remembers (h : Watched settings w looks) : Remembers settings w looks := by
  induction h with
  | start empty => exact ⟨fun _ => by rw [empty]; rfl, by simp⟩
  | look _ automationId event ih => exact ih.look automationId event
  | meanwhile _ unasked ih => exact ih.unasked unasked

/-- **Every history of looks keeps the law of the window.** -/
theorem Watched.lawful (h : Watched settings w looks) : Look.Lawful settings.tagWindow looks := by
  induction h with
  | start _ =>
    intro before l after hsplit
    simp at hsplit
  | look hpast automationId event ih =>
    exact ih.snoc (hpast.remembers.skipped_iff automationId event)
  | meanwhile _ _ ih => exact ih

/-- Looks are made one after another. -/
theorem Watched.ordered (h : Watched settings w looks) :
    looks.Pairwise fun e l => e.time.units ≤ l.time.units := by
  induction h with
  | start _ => exact List.Pairwise.nil
  | look hpast automationId event ih =>
    refine List.pairwise_append.mpr ⟨ih, List.pairwise_singleton _ _, fun e he l hl => ?_⟩
    obtain rfl := List.mem_singleton.mp hl
    exact hpast.remembers.past e he
  | meanwhile _ _ ih => exact ih

end

/-! ## The looks of the engine -/

/-- What comes after an operation that goes through. -/
def looksAfter {α : Type} (x : Work α) (looks : α → World → List Look) (w : World) : List Look :=
  match x.runOn w with
  | (.ok a, v) => looks a v
  | (.error _, _) => []

/-- What an operation that makes these looks makes of a history is one. -/
def Makes (settings : Settings) {α : Type} (x : Work α) (looks : World → List Look) : Prop :=
  ∀ w past, Watched settings w past → Watched settings (x.runOn w).2 (past ++ looks w)

/-- No looks. -/
def unseen : World → List Look := fun _ => []

section

variable {settings : Settings} {α β : Type} {x : Work α} {looks : World → List Look}

theorem Makes.of_keeps (hx : Work.Keeps Unasked x) : Makes settings x unseen := fun w past h => by
  rw [unseen, List.append_nil]
  exact h.meanwhile (hx w)

/-- What an operation makes of a history and then, if it goes through, another one. -/
theorem Makes.bind_of_results {f : α → Work β} {more : α → World → List Look}
    (hx : Makes settings x looks)
    (hf : ∀ a w v, x.runOn w = (.ok a, v) →
      ∀ past, Watched settings v past → Watched settings ((f a).runOn v).2 (past ++ more a v)) :
    Makes settings (x >>= f) fun w => looks w ++ looksAfter x more w := by
  intro w past h
  have hw := hx w past h
  unfold looksAfter
  rw [runOn_bind]
  rcases hr : x.runOn w with ⟨fault | a, v⟩ <;> rw [hr] at hw
  · simpa [hr] using hw
  · simpa [hr] using hf a w v hr _ hw

theorem Makes.bind {f : α → Work β} {more : α → World → List Look} (hx : Makes settings x looks)
    (hf : ∀ a, Makes settings (f a) (more a)) :
    Makes settings (x >>= f) fun w => looks w ++ looksAfter x more w :=
  hx.bind_of_results fun a _ v _ => hf a v

/-- An operation makes the looks of what comes after its first part, if that makes none. -/
theorem Makes.bind_of_keeps {f : α → Work β} {more : α → World → List Look}
    (hx : Work.Keeps Unasked x) (hf : ∀ a, Makes settings (f a) (more a)) :
    Makes settings (x >>= f) (looksAfter x more) :=
  (Makes.of_keeps hx).bind hf

/-- An operation makes no looks after its first part, if the rest makes none. -/
theorem Makes.before_keeps {f : α → Work β} (hx : Makes settings x looks)
    (hf : ∀ a, Work.Keeps Unasked (f a)) : Makes settings (x >>= f) looks := by
  intro w past h
  have hw := hx w past h
  rw [runOn_bind]
  rcases hr : x.runOn w with ⟨fault | a, v⟩ <;> rw [hr] at hw
  · exact hw
  · exact hw.meanwhile (hf a v)

theorem makes_recentlyFired (automationId : Int) (event : Event) :
    Makes settings (recentlyFired settings automationId event)
      fun w => [lookAt settings automationId event w] :=
  fun _ _ h => h.look automationId event

end

/-! ### Tag events -/

section

variable {settings : Settings} {onTags : TagHandler} {event : Event}

theorem unasked_of_aside {w v : World} (h : Aside w v) : Unasked w v :=
  ⟨congrArg Memory.firings h.memory, h.later⟩

theorem keeps_execute_quiet (flow : Flow) (c : Int) (data : Value)
    (instead : Option (List Step)) :
    Work.Keeps Unasked (execute settings quiet flow c data instead) :=
  keeps_execute (fun _ _ => ⟨rfl, Int.le_refl _⟩) (fun _ _ => ⟨rfl, Int.le_refl _⟩)
    (.of_aside settings unasked_of_aside)
    (fun _ _ _ => keeps_awaitCondition fun _ _ _ _ _ => ⟨rfl, Int.le_refl _⟩)
    (fun kind => keeps_quiet kind _) flow data instead

/-- For a tag event, an automation is looked at once: whatever its run does, the record is not asked
again. -/
theorem makes_fire_quiet (hkind : event.kind.isTagEvent = true) (flow : Flow) :
    Makes settings (fire settings quiet event flow)
      fun w => [lookAt settings flow.automation.id event w] := by
  unfold fire
  rw [if_pos hkind]
  refine (makes_recentlyFired _ _).before_keeps fun fired => ?_
  split
  · exact Work.Keeps.pure _
  · intro w
    have h : Work.Keeps Unasked (execute settings quiet flow event.conversationId
      (.object event.triggerData) none) := keeps_execute_quiet flow _ _ none
    replace h := h { w with memory := { w.memory with tagGuard := true } }
    exact ⟨h.firings, h.later⟩

/-- The looks made when flows are gone through, from those made for each. -/
def alongFlows (settings : Settings) (onTags : TagHandler) (event : Event)
    (looks : Flow → World → List Look) : List Flow → World → List Look
  | [], _ => []
  | flow :: rest, w => looks flow w ++ looksAfter (fire settings onTags event flow)
      (fun _ => alongFlows settings onTags event looks rest) w

theorem makes_fireAll {looks : Flow → World → List Look}
    (hfire : ∀ flow, Makes settings (fire settings onTags event flow) (looks flow)) :
    ∀ flows, Makes settings (fireAll settings onTags event flows)
      (alongFlows settings onTags event looks flows)
  | [] => Makes.of_keeps (Work.Keeps.pure _)
  | flow :: rest => (hfire flow).bind fun _ =>
      (makes_fireAll hfire rest).before_keeps fun _ => Work.Keeps.pure _

/-- The looks made when an event is dispatched, from those made for each flow. -/
def alongMatching (settings : Settings) (onTags : TagHandler) (event : Event)
    (looks : Flow → World → List Look) : World → List Look :=
  looksAfter (query (Flow.matching event)) (alongFlows settings onTags event looks)

theorem makes_dispatchWith {looks : Flow → World → List Look}
    (hfire : ∀ flow, Makes settings (fire settings onTags event flow) (looks flow)) :
    Makes settings (dispatchWith settings onTags event)
      (alongMatching settings onTags event looks) :=
  .bind_of_keeps (.reads (Transaction.reads_matching event)) (makes_fireAll hfire)

/-- The looks that a change of tags sets off which a run makes: none where the guard is up. -/
def looksOfChange (settings : Settings) (event : Event) (w : World) : List Look :=
  if w.memory.tagGuard then []
  else alongMatching settings quiet event
    (fun flow w => [lookAt settings flow.automation.id event w]) w

theorem makes_chained {kind : EventKind} (hkind : kind.isTagEvent = true) (c channel : Int)
    (tags : List Int) :
    Makes settings (chained settings kind c channel tags)
      (looksOfChange settings
        { kind, conversationId := c, channelId := channel, tagIds := tags }) := by
  intro w past h
  unfold looksOfChange
  cases hguard : w.memory.tagGuard with
  | true =>
    have hnothing : (chained settings kind c channel tags).runOn w = (.ok (), w) := by
      unfold chained
      rw [runOn_bind]
      show (if w.memory.tagGuard = true then _ else _ : Work Unit).runOn w = _
      rw [if_pos hguard]
      rfl
    rw [hnothing]
    simpa using h
  | false =>
    rw [snd_runOn_chained hguard]
    exact makes_dispatchWith (makes_fire_quiet hkind) w past h

end

/-! ### Runs -/

section

variable {settings : Settings}

/-- The looks of what a beat plays: those of the event that its change of tags is. -/
def looksOfPlay (settings : Settings) (ctx : Context) (b : Beat) : World → List Look :=
  match b.change? with
  | none => unseen
  | some (kind, targets) => looksAfter (retag ctx kind targets) fun
    | none => unseen
    | some e => looksOfChange settings e

/-- The looks of a beat. -/
def looksOfBeat (settings : Settings) (ctx : Context) (b : Beat) : World → List Look :=
  looksAfter (begin ctx b.head) fun _ => looksOfPlay settings ctx b

/-- The looks of a run that goes along beats. -/
def looksOfBeats (settings : Settings) (ctx : Context) : List Beat → World → List Look
  | [], _ => []
  | b :: rest, w => looksOfBeat settings ctx b w
      ++ looksAfter (runBeat settings (chained settings) ctx b) (fun
        | .suspended => unseen
        | .goesOn => looksOfBeats settings ctx rest) w

/-- The looks of an execution. -/
def looksOfExecution (settings : Settings) (flow : Flow) (c : Int) (data : Value)
    (instead : Option (List Step)) : World → List Look :=
  looksAfter (query (Thread.load? c)) fun
    | none => unseen
    | some thread =>
      looksAfter (transact fun now => RunLog.openRun now flow.automation.id thread.conversation.id
        thread.conversation.clientId data) fun runId =>
          match plan flow instead with
          | .ok steps => looksOfBeats settings ⟨flow.automation.id, runId, thread.conversation.id⟩
            (beats none steps)
          | .error _ => unseen

theorem keeps_unasked_begin (ctx : Context) (head : StepHead) :
    Work.Keeps Unasked (begin ctx head) :=
  keeps_begin ctx head fun _ _ _ => ⟨rfl, Int.le_refl _⟩

theorem makes_playBeat (ctx : Context) (b : Beat) :
    Makes settings (playBeat settings (chained settings) ctx b) (looksOfPlay settings ctx b) := by
  have work : Stepwork settings ctx.conversationId Unasked := .of_aside settings unasked_of_aside
  unfold looksOfPlay
  cases hb : b.change? with
  | none =>
    rw [playBeat_of_no_change (chained settings) quiet ctx hb]
    exact .of_keeps (keeps_playBeat work
      (fun _ _ => keeps_awaitCondition fun _ _ _ _ _ => ⟨rfl, Int.le_refl _⟩)
      (fun kind _ => keeps_quiet kind _) b)
  | some change =>
    obtain ⟨kind, targets⟩ := change
    have hkind := isTagEvent_of_change hb
    rw [playBeat_of_change _ ctx hb, changeTags_eq_retag]
    have hretag : Work.Keeps Unasked (retag ctx kind targets) := work.retag rfl hkind targets
    refine Makes.before_keeps ?_ fun _ => Work.Keeps.pure _
    refine (Makes.of_keeps hretag).bind_of_results fun found w v hfound past h => ?_
    cases found with
    | none => exact Makes.of_keeps (Work.Keeps.pure _) v past h
    | some e =>
      obtain ⟨kind', c, channel, messageId, messageText, tags⟩ := e
      obtain ⟨rfl, rfl, rfl, rfl⟩ : kind' = kind ∧ c = ctx.conversationId ∧ messageId = none
          ∧ messageText = none := by
        simpa using retag_eq_some hfound
      exact makes_chained hkind _ channel tags v past h

theorem makes_runBeat (ctx : Context) (b : Beat) :
    Makes settings (runBeat settings (chained settings) ctx b) (looksOfBeat settings ctx b) :=
  .bind_of_keeps (keeps_unasked_begin ctx b.head) fun _ => makes_playBeat ctx b

theorem makes_runBeats (ctx : Context) :
    ∀ beats, Makes settings (runBeats settings (chained settings) ctx beats)
      (looksOfBeats settings ctx beats)
  | [] => .of_keeps (Work.Keeps.pure _)
  | b :: rest => (makes_runBeat ctx b).bind fun progress => by
    cases progress with
    | suspended => exact .of_keeps (Work.Keeps.pure _)
    | goesOn => exact makes_runBeats ctx rest

theorem Makes.attempt {α : Type} {x : Work α} {looks : World → List Look}
    (hx : Makes settings x looks) : Makes settings (attempt x) looks := hx

/-- Once a run is opened, its steps are carried out, and it is ended. -/
theorem makes_runOf (ctx : Context) (steps : List Step) :
    Makes settings (do
        endRun ctx.runId (← attempt (runSteps settings (chained settings) ctx none steps))
        return some ctx.runId)
      (looksOfBeats settings ctx (beats none steps)) := by
  rw [runSteps_eq_runBeats]
  refine (makes_runBeats ctx _).attempt.before_keeps fun r => ?_
  exact Work.Keeps.returning (keeps_endRun ctx.runId r (fun _ _ _ => ⟨rfl, Int.le_refl _⟩)
    fun _ _ => ⟨rfl, Int.le_refl _⟩)

theorem makes_execute (flow : Flow) (c : Int) (data : Value) (instead : Option (List Step)) :
    Makes settings (execute settings (chained settings) flow c data instead)
      (looksOfExecution settings flow c data instead) := by
  unfold execute looksOfExecution
  refine .bind_of_keeps (.reads (Transaction.reads_loadThread c)) fun found => ?_
  cases found with
  | none => exact .of_keeps (Work.Keeps.pure _)
  | some thread =>
    refine .bind_of_keeps (Work.Keeps.transact fun _ _ _ _ => ⟨rfl, Int.le_refl _⟩) fun runId => ?_
    cases instead with
    | some steps => exact makes_runOf ⟨flow.automation.id, runId, thread.conversation.id⟩ steps
    | none =>
      cases hsteps : flow.steps with
      | error fault =>
        simp only [plan, hsteps]
        exact .of_keeps (Work.Keeps.throw fault)
      | ok steps =>
        simp only [plan, hsteps]
        exact makes_runOf ⟨flow.automation.id, runId, thread.conversation.id⟩ steps

end

/-! ### Everything the engine does -/

section

variable (settings : Settings)

/-- The looks for a flow that an event is for: one for a tag event, and for any other event those of
its run. -/
def looksOfFire (event : Event) (flow : Flow) (w : World) : List Look :=
  if event.kind.isTagEvent then [lookAt settings flow.automation.id event w]
  else looksOfExecution settings flow event.conversationId (.object event.triggerData) none w

/-- The looks of an event. -/
def looksOfDispatch (event : Event) : World → List Look :=
  alongMatching settings (chained settings) event (looksOfFire settings event)

/-- The looks of a run that goes on from a suspension, if one does. -/
def looksOfResume (c : Int) : World → List Look :=
  looksAfter (query (Slot.take c)) fun
    | none => unseen
    | some t => looksAfter (ripe? c t) fun
      | none => unseen
      | some (flow, remaining) =>
        looksOfExecution settings flow c (.object (resumeData t)) (some remaining)

/-- The looks of the events that a message is. -/
def looksOfMessage (r : Receipt) : World → List Look :=
  if r.isNewConversation then fun w =>
    looksOfDispatch settings (eventOf .newConversation r) w
      ++ looksAfter (dispatch settings (eventOf .newConversation r))
        (fun _ => looksOfDispatch settings (eventOf .incomingMessage r)) w
  else looksOfDispatch settings (eventOf .incomingMessage r)

/-- The looks of a message that came in. -/
def looksOfIncoming (r : Receipt) : World → List Look :=
  if r.duplicate then unseen
  else fun w => looksOfResume settings r.conversationId w
    ++ looksAfter (resume settings r.conversationId)
      (fun _ => if isSilent r then unseen else looksOfMessage settings r) w

/-- The looks of what can come to the engine. -/
def looksOfOccurrence : Occurrence → World → List Look
  | .dispatched event => looksOfDispatch settings event
  | .triggered kind c tags => looksAfter (query (Thread.load? c)) fun
    | none => unseen
    | some thread => looksOfDispatch settings
      { kind
        conversationId := thread.conversation.id
        channelId := thread.conversation.channelId
        tagIds := tags }
  | .cameIn r => looksOfIncoming settings r
  | .lookedAt c => looksOfResume settings c

end

section

variable {settings : Settings}

theorem makes_fire (event : Event) (flow : Flow) :
    Makes settings (fire settings (chained settings) event flow)
      (looksOfFire settings event flow) := by
  unfold looksOfFire
  by_cases hkind : event.kind.isTagEvent = true
  · simp only [hkind, if_true]
    rw [← reentrant_quiet, fire_reentrant quiet hkind]
    exact makes_fire_quiet hkind flow
  · simp only [hkind]
    unfold fire
    rw [if_neg hkind]
    exact makes_execute flow _ _ none

theorem makes_dispatch (event : Event) :
    Makes settings (dispatch settings event) (looksOfDispatch settings event) :=
  makes_dispatchWith (makes_fire event)

theorem makes_resume (c : Int) :
    Makes settings (resume settings c) (looksOfResume settings c) := by
  rw [resume_eq_ripe?]
  refine .bind_of_keeps (Work.Keeps.transact fun _ _ _ _ => ⟨rfl, Int.le_refl _⟩) fun taken => ?_
  cases taken with
  | none => exact .of_keeps (Work.Keeps.pure _)
  | some t =>
    have hripe : Work.Keeps Unasked (ripe? c t) :=
      (keeps_ripe? c t).mono fun h => h ▸ Std.Refl.refl _
    refine .bind_of_keeps hripe fun found => ?_
    cases found with
    | none => exact .of_keeps (Work.Keeps.pure _)
    | some p => exact makes_execute p.1 c _ (some p.2)

theorem makes_handleIncoming (r : Receipt) :
    Makes settings (handleIncoming settings r) (looksOfIncoming settings r) := by
  unfold handleIncoming looksOfIncoming
  split
  · exact .of_keeps (Work.Keeps.pure _)
  refine (makes_resume r.conversationId).bind fun resumed => ?_
  dsimp only
  split
  · exact .of_keeps (Work.Keeps.pure _)
  unfold looksOfMessage
  have hincoming : Makes settings (dispatch settings (eventOf .incomingMessage r)) _ :=
    makes_dispatch (eventOf .incomingMessage r)
  split
  · exact (makes_dispatch _).bind fun _ => hincoming.before_keeps fun _ => Work.Keeps.pure _
  · exact hincoming.before_keeps fun _ => Work.Keeps.pure _

/-- **The looks of everything the engine does make up a history.** -/
theorem makes_handle (o : Occurrence) :
    Makes settings (o.handle settings) (looksOfOccurrence settings o) := by
  cases o with
  | dispatched event => exact (makes_dispatch event).before_keeps fun _ => Work.Keeps.pure _
  | triggered kind c tags =>
    refine Makes.before_keeps ?_ fun _ => Work.Keeps.pure _
    refine .bind_of_keeps (.reads (Transaction.reads_loadThread c)) fun found => ?_
    cases found with
    | none => exact .of_keeps (Work.Keeps.pure _)
    | some thread => exact makes_dispatch _
  | cameIn r => exact (makes_handleIncoming r).before_keeps fun _ => Work.Keeps.pure _
  | lookedAt c => exact (makes_resume c).before_keeps fun _ => Work.Keeps.pure _

/-! ## The result -/

/-- How it goes when a tag event is for an automation: a look is taken, and the automation is passed
over, where nothing but the record changes, or it is carried out with the guard up. -/
theorem runOn_fire (onTags : TagHandler) (event : Event) (hkind : event.kind.isTagEvent = true)
    (flow : Flow) (w : World) :
    ∃ firings, (fire settings onTags event flow).runOn w =
      if (lookAt settings flow.automation.id event w).skipped then
        (.ok none, { w with memory := { w.memory with firings } })
      else (guarded (execute settings onTags flow event.conversationId
        (.object event.triggerData) none)).runOn
          { w with memory := { w.memory with firings } } := by
  obtain ⟨fired, firings, hfired⟩ :=
    runOn_recentlyFired settings flow.automation.id event w
  refine ⟨firings, ?_⟩
  unfold fire lookAt
  rw [if_pos hkind, runOn_bind, hfired]
  cases fired <;> rfl

/-- A history of looks keeps to the tag window. -/
structure KeepsWindow (settings : Settings) (w : World) (looks : List Look) : Prop where
  /-- An automation is passed over exactly if it fired for the same change less than the window
  ago, -/
  lawful : Look.Lawful settings.tagWindow looks
  /-- so that two firings for one change lie at least the window apart. -/
  apart : looks.Pairwise fun e l => e.skipped = false → l.skipped = false → e.key = l.key →
    Stopwatch.isRecent settings.tagWindow l.time e.time = false
  /-- Neither the looks for other changes nor what was passed over matters to it. -/
  alone : ∀ key, (looks.filter fun l => l.key = key).map Look.skipped
    = Look.verdicts settings.tagWindow none ((looks.filter fun l => l.key = key).map Look.time)
  /-- Without a window nothing is passed over. -/
  never : settings.tagWindow ≤ 0 → ∀ l ∈ looks, l.skipped = false
  /-- A tag event that is for an automation takes a look, be it from outside or chained. If that
  passes it over, nothing else happens, and otherwise it is carried out. -/
  fires : ∀ onTags : TagHandler, ∀ event : Event, event.kind.isTagEvent = true → ∀ flow : Flow,
    ∃ firings, (fire settings onTags event flow).runOn w =
      if (lookAt settings flow.automation.id event w).skipped then
        (.ok none, { w with memory := { w.memory with firings } })
      else (guarded (execute settings onTags flow event.conversationId
        (.object event.triggerData) none)).runOn { w with memory := { w.memory with firings } }
  /-- A look that is taken is about what the stopwatch reads then, and looks are for the same change
  if they are for the same automation, conversation and kind, and the same tags in any order. -/
  same : ∀ a b : Int, ∀ e f : Event, ∀ v : World,
    (lookAt settings a e w).time = w.reading ∧
      ((lookAt settings a e w).key = (lookAt settings b f v).key ↔
        a = b ∧ e.conversationId = f.conversationId ∧ e.kind = f.kind ∧ e.tagIds.Perm f.tagIds)
  /-- The record can be asked at any reading that is not before this one, which goes on with the
  history, -/
  asked : ∀ a e now, ∀ h : now.isFinite = true, w.reading.units ≤ now.units →
    Watched settings ((recentlyFired settings a e).runOn { w with stopwatch := .stoppedAt now h }).2
      (looks ++ [lookAt settings a e { w with stopwatch := .stoppedAt now h }])
  /-- and so does what the engine does next, with all of its looks. -/
  handled : ∀ o : Occurrence,
    Watched settings ((o.handle settings).runOn w).2 (looks ++ looksOfOccurrence settings o w)

/-- **The engine keeps to the tag window**, over any history of looks. -/
theorem keeps_window {w : World} {looks : List Look} (h : Watched settings w looks) :
    KeepsWindow settings w looks where
  lawful := h.lawful
  apart := h.lawful.apart
  alone := Look.verdicts_of_lawful h.lawful h.ordered
  never := h.lawful.never h.ordered
  fires onTags event hkind flow := runOn_fire onTags event hkind flow w
  same _ _ _ _ _ := ⟨rfl, firingKey_eq_firingKey_iff⟩
  asked a e now hfinite hlater := by
    have hunasked : Unasked w { w with stopwatch := .stoppedAt now hfinite } := ⟨rfl, hlater⟩
    exact (h.meanwhile hunasked).look a e
  handled o := makes_handle o w looks h

end

/-! ### Four invitations -/

/-- Some seconds pass. -/
def passed (seconds : Int) (w : World) : World :=
  { w with clock := w.clock.advance (seconds * Moment.second) }

theorem unasked_passed {seconds : Int} (h : 0 ≤ seconds) (w : World) :
    Unasked w (passed seconds w) :=
  ⟨rfl, (aside_wait h w).later⟩

/-- The club with its doors open: nothing is done for a tag that is given. The clock has run for a
little over two seconds. -/
def openHouse : World :=
  { club with
    store := { club.store with steps := [] }
    clock := Moment.start.advance 2002973 }

/-- Tag 5 is given, and some seconds pass. -/
def invited (seconds : Int) (w : World) : World :=
  passed seconds (((Occurrence.dispatched invitation).handle {}).runOn w).2

/-- What is looked at when the tag is given four times, and then ten, thirty and thirty-one seconds
after the first time. -/
def glances : List Look :=
  looksOfOccurrence {} (.dispatched invitation) openHouse
    ++ looksOfOccurrence {} (.dispatched invitation) (invited 10 openHouse)
    ++ looksOfOccurrence {} (.dispatched invitation) (invited 20 (invited 10 openHouse))
    ++ looksOfOccurrence {} (.dispatched invitation)
      (invited 1 (invited 20 (invited 10 openHouse)))

/-- The second and the third time come within the window of thirty seconds, the third one only
because its reading, 32.002973, is rounded down. -/
theorem keeps_window_club :
    ∃ w, KeepsWindow {} w glances ∧ glances.map Look.skipped = [false, true, true, false] := by
  have hstart : Watched {} openHouse [] := .start rfl
  have hfirst := ((keeps_window hstart).handled (.dispatched invitation)).meanwhile
    (unasked_passed (show (0 : Int) ≤ 10 by decide) _)
  have hsecond := ((keeps_window hfirst).handled (.dispatched invitation)).meanwhile
    (unasked_passed (show (0 : Int) ≤ 20 by decide) _)
  have hthird := ((keeps_window hsecond).handled (.dispatched invitation)).meanwhile
    (unasked_passed (show (0 : Int) ≤ 1 by decide) _)
  have hfourth := (keeps_window hthird).handled (.dispatched invitation)
  exact ⟨_, keeps_window hfourth, by decide +kernel⟩

end Engine

end Deskflow
