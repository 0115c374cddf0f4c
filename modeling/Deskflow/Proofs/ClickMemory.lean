import Deskflow.Proofs.ButtonTakedown
import Deskflow.Proofs.TagWindow
import Mathlib.Data.List.Induction

/-!
# Clicks that come in again

One click can come in more than once. Each has an id, and the ids of those that were handled are
remembered for five minutes. What is out of date is dropped from the memory only when it is asked,
and only a click that is handled is put down there: one that is passed over does not make the memory
last longer.

A `Sighting` is one time that the memory is asked about a click. A history of sightings is any
sequence of them with anything in between that leaves the memory alone and does not turn the
stopwatch back (`Sighted`). That is so of everything else that comes in to the desk
(`unclicked_handle`), and each click that comes in is one sighting (`Sighted.inbox`).

The memory is asked by `is_duplicate_callback`.

* `Sighted.recalls`: the memory holds what was handled within the window.
* `Sighted.lawful`: so a click is passed over exactly if it was handled within the window.
* `Sighting.Lawful.unique`: what becomes of sightings is told by their ids and times.
* `remembers_clicks`: the result.
-/

namespace Deskflow

namespace Click

open Work Engine World

/-- One time that it is asked whether a click was seen. -/
structure Sighting where
  id : String
  time : Binary64
  /-- It was, and the click is passed over. -/
  seen : Bool
deriving DecidableEq, Repr

namespace Sighting

/-- The same click was handled before, and that was less than the window ago. A click without an id
repeats nothing. -/
def Repeats (past : List Sighting) (s : Sighting) : Prop :=
  s.id ≠ "" ∧ ∃ e ∈ past, e.seen = false ∧ e.id = s.id
    ∧ Stopwatch.isRecent window s.time e.time = true

/-- **The law of clicks**: what repeats a click that was handled is passed over, and nothing else
is. -/
def Lawful (sightings : List Sighting) : Prop :=
  ∀ before s after, sightings = before ++ s :: after → (s.seen = true ↔ s.Repeats before)

/-- The clicks that are handled and can be told from others, with the times. -/
def handled (sightings : List Sighting) : List (String × Binary64) :=
  (sightings.filter fun s => s.id ≠ "" && !s.seen).map fun s => (s.id, s.time)

theorem handled_append (xs ys : List Sighting) : handled (xs ++ ys) = handled xs ++ handled ys := by
  simp [handled]

theorem mem_handled {sightings : List Sighting} {id : String} {time : Binary64} (hid : id ≠ "") :
    (id, time) ∈ handled sightings ↔
      ∃ s ∈ sightings, s.seen = false ∧ s.id = id ∧ s.time = time := by
  simp only [handled, List.mem_map, List.mem_filter, Bool.and_eq_true, decide_eq_true_eq,
    Bool.not_eq_true', Prod.mk.injEq]
  constructor
  · rintro ⟨s, ⟨hs, -, hseen⟩, rfl, rfl⟩
    exact ⟨s, hs, hseen, rfl, rfl⟩
  · rintro ⟨s, hs, hseen, rfl, rfl⟩
    exact ⟨s, ⟨hs, hid, hseen⟩, rfl, rfl⟩

theorem lawful_nil : Lawful [] := by
  intro before s after hsplit
  simp at hsplit

theorem lawful_concat {sightings : List Sighting} {s : Sighting} :
    Lawful (sightings ++ [s]) ↔ Lawful sightings ∧ (s.seen = true ↔ s.Repeats sightings) := by
  unfold Lawful
  exact forall_split_concat

/-- The law holds among some of the sightings alone, if nothing is left out that was handled. -/
theorem Lawful.filter {sightings : List Sighting} (h : Lawful sightings) {kept : Sighting → Bool}
    (hkept : ∀ e s, kept s = true → e.id = s.id → e.seen = false → kept e = true) :
    Lawful (sightings.filter kept) := by
  intro before s after hsplit
  obtain ⟨earlier, later, rfl, rfl, hs⟩ := split_of_filter hsplit
  rw [h earlier s later rfl]
  refine and_congr_right fun _ => exists_congr fun e => ?_
  rw [List.mem_filter, and_assoc]
  refine and_congr_right fun _ => ⟨fun ⟨hseen, hid, hwithin⟩ => ?_, fun ⟨_, he⟩ => he⟩
  exact ⟨hkept e s hs hid hseen, hseen, hid, hwithin⟩

/-- **What becomes of sightings is told by their ids and times**, if the law holds. -/
theorem Lawful.unique : ∀ {xs ys : List Sighting}, Lawful xs → Lawful ys →
    xs.map (fun s => (s.id, s.time)) = ys.map (fun s => (s.id, s.time)) → xs = ys := by
  intro xs
  induction xs using List.reverseRecOn with
  | nil =>
    intro ys _ _ hsame
    simpa using hsame.symm
  | append_singleton xs x ih =>
    intro ys hxs hys hsame
    obtain rfl | ⟨ys, y, rfl⟩ := List.eq_nil_or_concat ys
    · simp at hsame
    rw [List.concat_eq_append] at hys hsame
    obtain ⟨hxs, hx⟩ := lawful_concat.mp hxs
    obtain ⟨hys, hy⟩ := lawful_concat.mp hys
    simp only [List.map_append, List.map_cons, List.map_nil] at hsame
    obtain ⟨hinit, hlast⟩ := List.append_inj' hsame rfl
    obtain rfl := ih hxs hys hinit
    obtain ⟨id, time, seen⟩ := x
    obtain ⟨id', time', seen'⟩ := y
    obtain ⟨rfl, rfl⟩ : id = id' ∧ time = time' := by simpa using hlast
    obtain rfl : seen = seen' := Bool.eq_iff_iff.mpr (hx.trans hy.symm)
    rw [List.concat_eq_append]

/-- **A click is handled at most once within the window.** -/
theorem Lawful.apart {sightings : List Sighting} (h : Lawful sightings) :
    sightings.Pairwise fun e s => e.seen = false → s.seen = false → e.id = s.id → s.id ≠ "" →
      Stopwatch.isRecent window s.time e.time = false := by
  induction sightings using List.reverseRecOn with
  | nil => exact List.Pairwise.nil
  | append_singleton earlier s ih =>
    obtain ⟨hearlier, hs⟩ := lawful_concat.mp h
    refine List.pairwise_append.mpr ⟨ih hearlier, List.pairwise_singleton _ _, ?_⟩
    rintro e he _ hlast hhandled hfresh hid hne
    obtain rfl := List.mem_singleton.mp hlast
    refine Bool.eq_false_iff.mpr fun hwithin => ?_
    exact Bool.eq_false_iff.mp hfresh (hs.mpr ⟨hne, e, he, hhandled, hid, hwithin⟩)

end Sighting

/-! ## Histories of sightings -/

/-- The sighting that a click is. -/
def sightingOf (id : String) (w : World) : Sighting :=
  { id
    time := w.reading
    seen := match ((isDuplicate id).runOn w).1 with
      | .ok seen => seen
      | .error _ => false }

/-- The memory for clicks stays as it is, and the stopwatch is not turned back. -/
structure Unclicked (w v : World) : Prop where
  clicks : v.memory.clicks = w.memory.clicks
  later : w.reading.units ≤ v.reading.units

instance : Std.Refl Unclicked := ⟨fun _ => ⟨rfl, Int.le_refl _⟩⟩

instance : IsTrans World Unclicked := ⟨fun _ _ _ h k =>
  ⟨k.clicks.trans h.clicks, Int.le_trans h.later k.later⟩⟩

/-- The worlds that sightings lead to: nothing is remembered at first, and between sightings the
memory stays as it is. -/
inductive Sighted : World → List Sighting → Prop
  | start {w : World} (empty : w.memory.clicks = []) : Sighted w []
  | sight {w : World} {sightings : List Sighting} (h : Sighted w sightings) (id : String) :
      Sighted ((isDuplicate id).runOn w).2 (sightings ++ [sightingOf id w])
  | meanwhile {w v : World} {sightings : List Sighting} (h : Sighted w sightings)
      (unclicked : Unclicked w v) : Sighted v sightings

section

variable {w v : World} {sightings : List Sighting} {id : String}

/-- How the memory is asked about a click with an id. -/
theorem runOn_isDuplicate_of_ne (hid : id ≠ "") (w : World) :
    (isDuplicate id).runOn w =
      let young := within window w.reading w.memory.clicks
      let seen := young.any fun e => e.1 = id
      (.ok seen, { w with memory := { w.memory with
        clicks := if seen then young else young ++ [(id, w.reading)] } }) := by
  unfold isDuplicate
  rw [if_neg hid]
  rfl

theorem sightingOf_of_ne (hid : id ≠ "") (w : World) :
    sightingOf id w =
      ⟨id, w.reading, (within window w.reading w.memory.clicks).any fun e => e.1 = id⟩ := by
  rw [sightingOf, runOn_isDuplicate_of_ne hid]

/-- What is remembered of sightings: the clicks that were handled within the window, each once. -/
structure Recalls (w : World) (sightings : List Sighting) : Prop where
  recent : within window w.reading w.memory.clicks
    = within window w.reading (Sighting.handled sightings)
  distinct : (w.memory.clicks.map Prod.fst).Nodup
  past : ∀ s ∈ sightings, s.time.units ≤ w.reading.units

theorem Recalls.unclicked (h : Recalls w sightings) (k : Unclicked w v) : Recalls v sightings where
  recent := by rw [k.clicks, ← within_within k.later, h.recent, within_within k.later]
  distinct := k.clicks ▸ h.distinct
  past s hs := Int.le_trans (h.past s hs) k.later

/-- **A click is passed over exactly if it repeats one that was handled.** -/
theorem Recalls.seen_iff (h : Recalls w sightings) (id : String) :
    (sightingOf id w).seen = true ↔ (sightingOf id w).Repeats sightings := by
  by_cases hid : id = ""
  · subst hid
    exact iff_of_false (by rw [sightingOf, runOn_isDuplicate_of_empty]; simp) fun hs => hs.1 rfl
  · rw [sightingOf_of_ne hid, h.recent]
    simp only [List.any_eq_true, decide_eq_true_eq, Sighting.Repeats, ne_eq, hid, not_false_iff,
      true_and]
    constructor
    · rintro ⟨⟨_, time⟩, hmem, rfl⟩
      obtain ⟨hhandled, hwithin⟩ := List.mem_filter.mp hmem
      obtain ⟨e, he, hseen, heid, rfl⟩ := (Sighting.mem_handled hid).mp hhandled
      exact ⟨e, he, hseen, heid, by simpa using hwithin⟩
    · rintro ⟨e, he, hseen, rfl, hwithin⟩
      refine ⟨(e.id, e.time), List.mem_filter.mpr ⟨?_, by simpa using hwithin⟩, rfl⟩
      exact (Sighting.mem_handled hid).mpr ⟨e, he, hseen, rfl, rfl⟩

/-- What is remembered once a click has come in, without anything that is out of date. -/
theorem Recalls.clicks (h : Recalls w sightings) (hid : id ≠ "") :
    ((isDuplicate id).runOn w).2.memory.clicks
      = within window w.reading (Sighting.handled (sightings ++ [sightingOf id w])) := by
  rw [sightingOf_of_ne hid, runOn_isDuplicate_of_ne hid, Sighting.handled_append, within_append,
    ← h.recent]
  have hnow : Stopwatch.isRecent window w.reading w.reading = true :=
    (Stopwatch.isRecent_self_iff w.reading).mpr (by decide)
  dsimp only
  cases (within window w.reading w.memory.clicks).any fun e => e.1 = id with
  | true => simp [Sighting.handled, within]
  | false => simp [Sighting.handled, within, hid, hnow]

theorem Recalls.distinct_after (h : Recalls w sightings) (hid : id ≠ "") :
    (((isDuplicate id).runOn w).2.memory.clicks.map Prod.fst).Nodup := by
  have hyoung : ((within window w.reading w.memory.clicks).map Prod.fst).Nodup :=
    h.distinct.sublist (List.filter_sublist.map _)
  rw [runOn_isDuplicate_of_ne hid]
  dsimp only
  split
  · exact hyoung
  · rename_i hfresh
    rw [List.map_append, List.map_cons, List.map_nil, ← List.concat_eq_append]
    refine hyoung.concat fun hmem => hfresh ?_
    obtain ⟨e, he, rfl⟩ := List.mem_map.mp hmem
    exact List.any_eq_true.mpr ⟨e, he, by simp⟩

theorem Recalls.sight (h : Recalls w sightings) (id : String) :
    Recalls ((isDuplicate id).runOn w).2 (sightings ++ [sightingOf id w]) := by
  by_cases hid : id = ""
  · subst hid
    rw [sightingOf, runOn_isDuplicate_of_empty]
    refine ⟨?_, h.distinct, ?_⟩
    · rw [h.recent, Sighting.handled_append]
      simp [Sighting.handled]
    · simpa [or_imp, forall_and] using h.past
  · have hreading : ((isDuplicate id).runOn w).2.reading = w.reading := by
      rw [runOn_isDuplicate_of_ne hid]
      rfl
    refine ⟨?_, h.distinct_after hid, ?_⟩
    · rw [hreading, h.clicks hid, within_within (Int.le_refl _)]
    · rw [hreading]
      simpa [or_imp, forall_and, sightingOf] using h.past

theorem Sighted.recalls (h : Sighted w sightings) : Recalls w sightings := by
  induction h with
  | start empty => exact ⟨by rw [empty]; rfl, by simp [empty], by simp⟩
  | sight _ id ih => exact ih.sight id
  | meanwhile _ unclicked ih => exact ih.unclicked unclicked

/-- **Every history of sightings keeps the law of clicks.** -/
theorem Sighted.lawful (h : Sighted w sightings) : Sighting.Lawful sightings := by
  induction h with
  | start _ => exact Sighting.lawful_nil
  | sight hpast id ih => exact Sighting.lawful_concat.mpr ⟨ih, hpast.recalls.seen_iff id⟩
  | meanwhile _ _ ih => exact ih

end

/-! ## What comes in -/

section

variable {settings : Settings} {w : World} {sightings : List Sighting}

theorem unclicked_of_aside {w v : World} (h : Aside w v) : Unclicked w v :=
  ⟨congrArg Memory.clicks h.memory, h.later⟩

theorem unclicked_transact {α : Type} (t : Moment → Transaction α) :
    Work.Keeps Unclicked (transact t) :=
  Work.Keeps.transact fun _ _ _ _ => ⟨rfl, Int.le_refl _⟩

theorem unclicked_execute {onTags : TagHandler} {c : Int}
    (handled : ∀ kind channel tags, Work.Keeps Unclicked (onTags kind c channel tags))
    (flow : Flow) (data : Value) (instead : Option (List Step)) :
    Work.Keeps Unclicked (execute settings onTags flow c data instead) :=
  keeps_execute (fun _ _ => ⟨rfl, Int.le_refl _⟩) (fun _ _ => ⟨rfl, Int.le_refl _⟩)
    (.of_aside settings unclicked_of_aside)
    (fun _ _ _ => keeps_awaitCondition fun _ _ _ _ _ => ⟨rfl, Int.le_refl _⟩) handled flow data
    instead

theorem unclicked_dispatchWith {onTags : TagHandler} {event : Event}
    (handled : ∀ kind channel tags,
      Work.Keeps Unclicked (onTags kind event.conversationId channel tags)) :
    Work.Keeps Unclicked (dispatchWith settings onTags event) :=
  keeps_dispatchWith (fun _ _ hm => ⟨hm, Int.le_refl _⟩) fun flow =>
    unclicked_execute handled flow _ none

theorem unclicked_chained (kind : EventKind) (c channel : Int) (tags : List Int) :
    Work.Keeps Unclicked (chained settings kind c channel tags) :=
  keeps_chained (fun _ _ => unclicked_dispatchWith fun kind => keeps_quiet kind _) kind channel
    tags

theorem unclicked_resume (c : Int) : Work.Keeps Unclicked (resume settings c) := fun w =>
  resume_induct (P := Unclicked w) (fun _ _ => Std.Refl.refl w)
    (fun _ _ _ => ⟨rfl, Int.le_refl _⟩) fun t s flow remaining _ => by
      have htaken : Unclicked w { w with store := s } := ⟨rfl, Int.le_refl _⟩
      refine IsTrans.trans _ _ _ htaken ?_
      exact unclicked_execute (fun kind => unclicked_chained kind c) flow _ (some remaining) _

/-- Nothing that comes to the engine asks about clicks. -/
theorem unclicked_handle (o : Occurrence) : Work.Keeps Unclicked (o.handle settings) :=
  Engine.keeps_handle o (fun _ _ => unclicked_dispatchWith fun kind => unclicked_chained kind _)
    (unclicked_resume _)

end

end Click

namespace Inbox

open Work Click

/-- The sightings that an update is: one if it is a click with data, whoever clicked. -/
def sightingsOf (u : Update) (w : World) : List Sighting :=
  match u with
  | .press p => ((p.data.filter (· ≠ "")).map fun _ => sightingOf p.id w).toList
  | _ => []

section

variable {settings : Settings} {token : String} {w : World} {sightings : List Sighting}

theorem unclicked_answer (alert : Option String) : Work.Keeps Unclicked (answer token alert) :=
  fun w => by
    rw [answer, runOn_request]
    exact ⟨rfl, Int.le_refl _⟩

theorem unclicked_click (c : Int) (p : Press) (data : String) :
    Work.Keeps Unclicked (click settings token c p data) := by
  have hhandled : Work.Keeps Unclicked (Click.handle settings c data) :=
    Click.keeps_handle (Engine.Stepwork.of_aside settings unclicked_of_aside).toClickwork data
  refine Work.Keeps.bind (Work.Keeps.attempt hhandled) fun r => ?_
  cases r with
  | error fault => exact unclicked_answer _
  | ok result =>
    refine Work.Keeps.bind (unclicked_answer none) fun _ => ?_
    split
    · intro w
      rw [snd_runOn_hideButtons]
      exact ⟨rfl, Int.le_refl _⟩
    · exact Work.Keeps.pure _

theorem unclicked_takeIn (m : Inbound) : Work.Keeps Unclicked (takeIn settings m) := by
  refine Work.Keeps.bind (unclicked_transact _) fun r => ?_
  split
  · exact Work.Keeps.pure _
  · exact unclicked_handle (.cameIn r)

theorem unclicked_handleMessage (l : Letter) :
    Work.Keeps Unclicked (handleMessage settings token l) := by
  unfold handleMessage
  split
  · exact Work.Keeps.pure _
  split
  · split
    · exact Work.Keeps.pure _
    refine Work.Keeps.bind (unclicked_transact _) fun channel => ?_
    cases channel with
    | none => exact Work.Keeps.pure _
    | some channel => exact Work.Keeps.returning (Work.Keeps.attempt (unclicked_takeIn _))
  · exact Work.Keeps.pure _

theorem unclicked_takeEdit (channel : Channel) (sender : Sender) (l : Letter) :
    Work.Keeps Unclicked (takeEdit channel sender l) := by
  refine Work.Keeps.bind (unclicked_transact _) fun conversation => ?_
  cases conversation with
  | none => exact Work.Keeps.pure _
  | some conversation => exact Work.Keeps.returning (unclicked_transact _)

theorem unclicked_handleEdit (l : Letter) : Work.Keeps Unclicked (handleEdit token l) := by
  unfold handleEdit
  split
  · exact Work.Keeps.pure _
  split
  · refine Work.Keeps.bind (unclicked_transact _) fun channel => ?_
    cases channel with
    | none => exact Work.Keeps.pure _
    | some channel => exact Work.Keeps.returning (Work.Keeps.attempt (unclicked_takeEdit _ _ _))
  · exact Work.Keeps.pure _

/-- What is done about a click once it is known whether it was seen. -/
def follow (settings : Settings) (token : String) (p : Press) (data : String) : Bool → Work Unit
  | true => answer token none
  | false => do
    let some channel ← channelOf token | answer token none
    let some conversation ← query (Thread.find? channel.id p.sender.id) | answer token none
    click settings token conversation.id p data

theorem unclicked_follow (p : Press) (data : String) (seen : Bool) :
    Work.Keeps Unclicked (follow settings token p data seen) := by
  cases seen with
  | true => exact unclicked_answer none
  | false =>
    refine Work.Keeps.bind (unclicked_transact _) fun channel => ?_
    cases channel with
    | none => exact unclicked_answer none
    | some channel =>
      refine Work.Keeps.bind (unclicked_transact _) fun conversation => ?_
      cases conversation with
      | none => exact unclicked_answer none
      | some conversation => exact unclicked_click _ _ _

/-- A click with data is looked up, and then the rest follows. -/
theorem runOn_handle_press {p : Press} {data : String} (hdata : p.data = some data)
    (hne : data ≠ "") (w : World) :
    (handle settings token (.press p)).runOn w =
      (follow settings token p data (sightingOf p.id w).seen).runOn
        ((isDuplicate p.id).runOn w).2 := by
  have hfilter : p.data.filter (· ≠ "") = some data := by
    rw [hdata, Option.filter_some, if_pos (by simpa using hne)]
  have hdone : handle settings token (.press p) = handlePress settings token p := rfl
  obtain ⟨seen, v, hseen, -, -⟩ := runOn_isDuplicate p.id w
  rw [hdone, handlePress, hfilter, sightingOf]
  dsimp only
  rw [runOn_bind, hseen]
  cases seen with
  | true =>
    dsimp only
    rw [if_pos rfl, bind_pure_unit]
    rfl
  | false => rfl

/-- What comes in goes on with a history of sightings. -/
theorem sighted_handle (h : Sighted w sightings) (u : Update) :
    Sighted ((handle settings token u).runOn w).2 (sightings ++ sightingsOf u w) := by
  cases u with
  | message l =>
    rw [sightingsOf, List.append_nil]
    · exact h.meanwhile (unclicked_handleMessage l w)
    · simp
  | edit l =>
    rw [sightingsOf, List.append_nil]
    · exact h.meanwhile (unclicked_handleEdit l w)
    · simp
  | other =>
    rw [sightingsOf, List.append_nil]
    · exact h
    · simp
  | press p =>
    rw [sightingsOf]
    cases hdata : p.data.filter (· ≠ "") with
    | none =>
      have hdone : handle settings token (.press p) = handlePress settings token p := rfl
      rw [hdone, handlePress, hdata, Option.map_none, Option.toList_none, List.append_nil]
      exact h
    | some data =>
      obtain ⟨hsome, hne⟩ := Option.filter_eq_some_iff.mp hdata
      rw [runOn_handle_press hsome (by simpa using hne)]
      exact (h.sight p.id).meanwhile (unclicked_follow p data _ _)

end

end Inbox

/-! ## The result -/

namespace Click

open Work Engine

/-- Clicks that were handled are remembered for the window. -/
structure RemembersClicks (w : World) (sightings : List Sighting) : Prop where
  /-- A click is passed over exactly if one with its id was handled less than the window ago; one
  without an id never is. -/
  lawful : Sighting.Lawful sightings
  /-- So what is handled with one id lies at least the window apart. -/
  apart : sightings.Pairwise fun e s => e.seen = false → s.seen = false → e.id = s.id → s.id ≠ "" →
    Stopwatch.isRecent window s.time e.time = false
  /-- Other ids never matter: in every history with these times for an id the same becomes of it. -/
  alone : ∀ v others, Sighted v others → ∀ id,
    (sightings.filter fun s => s.id = id).map Sighting.time
        = (others.filter fun s => s.id = id).map Sighting.time →
      (sightings.filter fun s => s.id = id) = others.filter fun s => s.id = id
  /-- Nor does what was passed over: the law holds without any of it. -/
  repeats : ∀ kept : Sighting → Bool, (∀ s, s.seen = false → kept s = true) →
    Sighting.Lawful (sightings.filter kept)
  /-- The next click with an id leaves in the memory what was handled within the window, and changes
  nothing else. -/
  named : ∀ id, id ≠ "" → (isDuplicate id).runOn w =
    (.ok (sightingOf id w).seen, { w with memory := { w.memory with
      clicks := within window w.reading (Sighting.handled (sightings ++ [sightingOf id w])) } })
  /-- Each id is there once. -/
  distinct : ∀ id, id ≠ "" →
    ((within window w.reading (Sighting.handled (sightings ++ [sightingOf id w]))).map
      Prod.fst).Nodup
  /-- A click without an id changes nothing. -/
  unnamed : (isDuplicate "").runOn w = (.ok false, w)
  /-- The memory can be asked at any reading that is not before this one, which goes on with the
  history, -/
  asked : ∀ id now, ∀ h : now.isFinite = true, w.reading.units ≤ now.units →
    Sighted ((isDuplicate id).runOn { w with stopwatch := .stoppedAt now h }).2
      (sightings ++ [sightingOf id { w with stopwatch := .stoppedAt now h }])
  /-- as does whatever comes in to the desk, -/
  inbox : ∀ settings token u, Sighted ((Inbox.handle settings token u).runOn w).2
    (sightings ++ Inbox.sightingsOf u w)
  /-- and so do the events that are put to the engine. -/
  engine : ∀ settings (o : Occurrence), Sighted ((o.handle settings).runOn w).2 sightings
  /-- A click that is passed over is answered, and no more. -/
  answered : ∀ settings token (p : Press) data, p.data = some data → data ≠ "" →
    (sightingOf p.id w).seen = true →
      (Inbox.handle settings token (.press p)).runOn w
        = (Inbox.answer token none).runOn ((isDuplicate p.id).runOn w).2

/-- **The ids of clicks are remembered**, over any history of sightings. -/
theorem remembers_clicks {w : World} {sightings : List Sighting} (h : Sighted w sightings) :
    RemembersClicks w sightings where
  lawful := h.lawful
  apart := h.lawful.apart
  alone v others hothers id htimes := by
    have hown {xs : List Sighting} (hxs : Sighting.Lawful xs) :
        Sighting.Lawful (xs.filter fun s => s.id = id) :=
      hxs.filter fun e s hs hid _ => by simpa [hid] using hs
    have hids (xs : List Sighting) :
        (xs.filter fun s => s.id = id).map (fun s => (s.id, s.time))
          = ((xs.filter fun s => s.id = id).map Sighting.time).map (Prod.mk id) := by
      rw [List.map_map]
      refine List.map_congr_left fun s hs => ?_
      rw [Function.comp, of_decide_eq_true (List.mem_filter.mp hs).2]
    refine (hown h.lawful).unique (hown hothers.lawful) ?_
    rw [hids, hids, htimes]
  repeats kept hkept := h.lawful.filter fun e _ _ _ hseen => hkept e hseen
  named id hid := by
    rw [← h.recalls.clicks hid, sightingOf_of_ne hid, runOn_isDuplicate_of_ne hid]
  distinct id hid := h.recalls.clicks hid ▸ h.recalls.distinct_after hid
  unnamed := runOn_isDuplicate_of_empty w
  asked id now hfinite hlater := by
    have hunclicked : Unclicked w { w with stopwatch := .stoppedAt now hfinite } := ⟨rfl, hlater⟩
    exact (h.meanwhile hunclicked).sight id
  inbox _ _ u := Inbox.sighted_handle h u
  engine _ o := h.meanwhile (unclicked_handle o w)
  answered settings token p data hdata hne hseen := by
    rw [Inbox.runOn_handle_press hdata hne, hseen]
    rfl

/-! ### Three times the same click -/

theorem unclicked_passed {seconds : Int} (hseconds : 0 ≤ seconds) (w : World) :
    Unclicked w (passed seconds w) :=
  ⟨rfl, (aside_wait hseconds w).later⟩

/-- Ada's click comes in again just before the window ends, and once more when it ends: the one is
passed over and does not make the memory last, and the other is handled. -/
theorem remembers_clicks_helpline :
    ∃ w sightings, RemembersClicks w sightings
      ∧ sightings.map Sighting.time = [.ofQuotient 0 1, .ofQuotient 299 1, .ofQuotient 300 1]
      ∧ sightings.map Sighting.seen = [false, true, false]
      ∧ w.requests.map Request.method
        = ["sendMessage", "answerCallbackQuery", "editMessageReplyMarkup", "answerCallbackQuery",
          "sendMessage", "answerCallbackQuery", "editMessageReplyMarkup"] := by
  have hstart : Sighted (helplineRefusing []) [] := .start rfl
  have hfirst := ((remembers_clicks hstart).inbox {} "1:a" (.press (touch "9"))).meanwhile
    (unclicked_passed (show (0 : Int) ≤ 299 by decide) _)
  have hsecond := ((remembers_clicks hfirst).inbox {} "1:a" (.press (touch "9"))).meanwhile
    (unclicked_passed (show (0 : Int) ≤ 1 by decide) _)
  have hthird := (remembers_clicks hsecond).inbox {} "1:a" (.press (touch "9"))
  refine ⟨_, _, remembers_clicks hthird, ?_, ?_, ?_⟩
  all_goals decide +kernel

end Click

end Deskflow
