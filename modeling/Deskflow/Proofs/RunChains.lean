import Deskflow.Proofs.StepKeys
import Deskflow.Proofs.RunLedger
import Deskflow.Proofs.RunTrace
import Mathlib.Data.List.Dedup
import Mathlib.Data.List.Perm.Subperm

/-!
# Runs one after another

A run that goes on from another one sets out behind the step of the top level at which the other
stopped: on the line of the steps that come after it by `order`. What such runs began is told by
their traces, in which the members of groups stand beside the steps of the top level; so `Begun`
goes by the entries of whole steps.

* `Begun.unique`: a trace tells which steps of the top level were begun.
* `exists_leg`: beats that were begun along a line are those of its first steps.
* `strides_of_went`: runs of which each goes on from the one before make headway along the line of
  the first.
-/

namespace Deskflow

namespace Engine

/-! ## What a trace tells -/

/-- A trace tells that steps of the top level were begun one after another, and no others: it holds
the entries of each of them, of the last one perhaps only the first ones. -/
inductive Begun : List (Value × Value) → List Step → Prop
  | none : Begun [] []
  | last {trace : List (Value × Value)} {s : Step} (some : trace ≠ [])
      (part : trace <+: (Step.entriesOf s).map StepHead.traced) : Begun trace [s]
  | next {trace : List (Value × Value)} {s : Step} {leg : List Step} (more : leg ≠ [])
      (rest : Begun trace leg) : Begun ((Step.entriesOf s).map StepHead.traced ++ trace) (s :: leg)

theorem Begun.ne_nil {trace : List (Value × Value)} {leg : List Step} (h : Begun trace leg)
    (hleg : leg ≠ []) : trace ≠ [] := by
  cases h with
  | none => exact absurd rfl hleg
  | last some part => exact some
  | next more rest =>
    intro hnil
    have := (List.append_eq_nil_iff.mp hnil).1
    rename_i s _
    exact absurd (List.map_eq_nil_iff.mp this)
      (List.ne_nil_of_mem (Step.head_mem_entriesOf s))

/-- The entries of a step begin with its own. -/
theorem entriesOf_eq_cons (s : Step) : ∃ more, Step.entriesOf s = s.head :: more := by
  cases s with
  | single head action => exact ⟨[], rfl⟩
  | group head name members => exact ⟨_, rfl⟩

/-- The first entry of a trace is that of the first step that was begun. -/
theorem Begun.head {trace : List (Value × Value)} {s : Step} {leg : List Step}
    (h : Begun trace (s :: leg)) : ∃ more, trace = s.head.traced :: more := by
  obtain ⟨entries, hentries⟩ := entriesOf_eq_cons s
  cases h with
  | last some part =>
    rw [hentries, List.map_cons] at part
    obtain ⟨e, more, rfl⟩ := List.exists_cons_of_ne_nil some
    exact ⟨more, by rw [(List.cons_prefix_cons.mp part).1]⟩
  | next more rest => exact ⟨_, by rw [hentries, List.map_cons, List.cons_append]⟩

variable {steps : List Step}

/-- Steps that have ids of their own are told by their entries. -/
theorem eq_of_traced (distinct : (steps.map fun s => s.head.stepId).Nodup) {s t : Step}
    (hs : s ∈ steps) (ht : t ∈ steps) (h : s.head.traced = t.head.traced) : s = t := by
  have hid : Value.str s.head.stepId = .str t.head.stepId := congrArg Prod.fst h
  exact List.inj_on_of_nodup_map distinct hs ht (Value.str.inj hid)

/-- **A trace tells which steps were begun**, where steps have ids of their own. -/
theorem Begun.unique (distinct : (steps.map fun s => s.head.stepId).Nodup)
    {trace : List (Value × Value)} {leg other : List Step} (h : Begun trace leg)
    (h' : Begun trace other) (hleg : leg ⊆ steps) (hother : other ⊆ steps) : leg = other := by
  -- Both begin with the step that the first entry is of.
  have same : ∀ {trace s t leg other}, Begun trace (s :: leg) → Begun trace (t :: other) →
      s ∈ steps → t ∈ steps → s = t := by
    intro trace s t leg other h h' hs ht
    obtain ⟨more, rfl⟩ := h.head
    obtain ⟨more', htrace⟩ := h'.head
    exact eq_of_traced distinct hs ht (List.cons.inj htrace).1
  -- What a further step adds to the entries of a step does not fit into them.
  have apart : ∀ {s : Step} {trace : List (Value × Value)}, trace ≠ [] →
      ¬(Step.entriesOf s).map StepHead.traced ++ trace
        <+: (Step.entriesOf s).map StepHead.traced := by
    intro s trace hne hpart
    have hlen := hpart.length_le
    have hpos := List.length_pos_iff.mpr hne
    rw [List.length_append] at hlen
    omega
  induction h generalizing other with
  | none =>
    by_contra hne
    exact h'.ne_nil (Ne.symm hne) rfl
  | @last trace s some part =>
    cases other with
    | nil => cases h'; exact absurd rfl some
    | cons t other =>
      obtain rfl := same (.last some part) h' (hleg List.mem_cons_self) (hother List.mem_cons_self)
      cases h' with
      | last => rfl
      | next more rest => exact absurd part (apart (rest.ne_nil more))
  | @next trace s leg more rest ih =>
    cases other with
    | nil =>
      have hne := (Begun.next more rest).ne_nil (List.cons_ne_nil s leg)
      generalize (Step.entriesOf s).map StepHead.traced ++ trace = whole at h' hne
      cases h'
      exact absurd rfl hne
    | cons t other =>
      obtain rfl := same (.next more rest) h' (hleg List.mem_cons_self) (hother List.mem_cons_self)
      generalize htrace : (Step.entriesOf s).map StepHead.traced ++ trace = whole at h'
      cases h' with
      | last some part => exact absurd (htrace ▸ part) (apart (rest.ne_nil more))
      | next more' rest' =>
        obtain rfl := List.append_cancel_left htrace
        rw [ih rest' (fun x hx => hleg (List.mem_cons_of_mem s hx))
          fun x hx => hother (List.mem_cons_of_mem s hx)]

/-! ## Lines -/

mutual

/-- A beat waits, if it has to, at the step of the top level that it lies in. -/
theorem owner_of_beatsOf {owner : Option String} {b : Beat} :
    (s : Step) → b ∈ beatsOf owner s → b.owner = owner.getD s.head.stepId
  | .single head action, h => by
    obtain rfl := List.mem_singleton.mp h
    rfl
  | .group head name members, h => by
    rcases List.mem_cons.mp h with rfl | h
    · rfl
    · exact owner_of_beats members h

theorem owner_of_beats {owner : String} {b : Beat} :
    (steps : List Step) → b ∈ beats (some owner) steps → b.owner = owner
  | [], h => by cases h
  | s :: rest, h => by
    rcases List.mem_append.mp h with h | h
    · exact owner_of_beatsOf s h
    · exact owner_of_beats rest h

end

/-- Beats that were begun along a line are those of some first steps of it, and the last one lies in
the last of these steps. -/
theorem exists_leg : ∀ {line : List Step} {begun : List Beat}, begun <+: beats none line →
    ∃ leg, leg <+: line ∧ Begun (begun.map fun b => b.head.traced) leg
      ∧ ∀ b, begun.getLast? = some b →
        ∃ before paused, leg = before ++ [paused] ∧ b.owner = paused.head.stepId
  | [], begun, h => by
    obtain rfl := List.prefix_nil.mp h
    exact ⟨[], List.nil_prefix, .none, by simp⟩
  | s :: rest, begun, h => by
    obtain ⟨others, h⟩ := h
    have hentries : (beatsOf none s).map (fun b => b.head.traced)
        = (Step.entriesOf s).map StepHead.traced := by
      rw [← heads_beatsOf none s, List.map_map]
      rfl
    by_cases hnil : begun = []
    · subst hnil
      exact ⟨[], List.nil_prefix, .none, by simp⟩
    -- The beats lie in the first step alone, or they reach beyond it.
    have within : begun <+: beatsOf none s → ∃ leg, leg <+: s :: rest
        ∧ Begun (begun.map fun b => b.head.traced) leg
        ∧ ∀ b, begun.getLast? = some b →
          ∃ before paused, leg = before ++ [paused] ∧ b.owner = paused.head.stepId := by
      intro hpart
      refine ⟨[s], by simp, .last (by simpa using hnil) (hentries ▸ hpart.map _), fun b hb => ?_⟩
      have hmem := hpart.subset (List.mem_of_getLast? hb)
      exact ⟨[], s, rfl, owner_of_beatsOf s hmem⟩
    rcases List.append_eq_append_iff.mp h with ⟨more, hmore, -⟩ | ⟨more, rfl, hmore⟩
    · exact within ⟨more, hmore.symm⟩
    · by_cases hnone : more = []
      · subst hnone
        exact within (by simp)
      obtain ⟨leg, hleg, hbegun, hlast⟩ := exists_leg ⟨others, hmore.symm⟩
      have hne : leg ≠ [] := by
        rintro rfl
        generalize htrace : (more.map fun b => b.head.traced) = trace at hbegun
        cases hbegun
        exact hnone (List.map_eq_nil_iff.mp htrace)
      refine ⟨s :: leg, List.prefix_cons_inj s |>.mpr hleg, ?_, fun b hb => ?_⟩
      · rw [List.map_append, hentries]
        exact .next hne hbegun
      · rw [List.getLast?_append_of_ne_nil _ hnone] at hb
        obtain ⟨before, paused, rfl, howner⟩ := hlast b hb
        exact ⟨s :: before, paused, rfl, howner⟩

/-- Steps come by ascending `order`. -/
theorem orders_pairwise {rows : List StepRow} (h : InOrder rows steps) :
    steps.Pairwise fun s t => s.head.order ≤ t.head.order := by
  obtain ⟨sorted, -, hpair, hall⟩ := h
  have horders : ∀ {rows : List StepRow} {steps : List Step},
      List.Forall₂ (fun row step => Step.parse row.draft = .ok step) rows steps →
        steps.map (fun s => s.head.order) = rows.map StepRow.order := by
    intro rows steps hall
    induction hall with
    | nil => rfl
    | cons hparse _ ih => rw [List.map_cons, List.map_cons, ih, Step.head_of_ofConfig hparse]; rfl
  have hrows : (sorted.map StepRow.order).Pairwise (· ≤ ·) :=
    List.pairwise_map.mpr (hpair.imp fun h => by rcases h with h | ⟨h, -⟩ <;> omega)
  rw [← horders hall] at hrows
  exact List.pairwise_map.mp hrows

/-- Whether a step comes later than another by its `order`. -/
def isAfter (paused s : Step) : Bool := paused.head.order < s.head.order

/-- What comes after a step, where steps have ids of their own. -/
theorem stepsAfter?_of_mem (distinct : (steps.map fun s => s.head.stepId).Nodup) {paused : Step}
    (h : paused ∈ steps) :
    stepsAfter? paused.head.stepId steps = some (steps.filter (isAfter paused)) := by
  unfold stepsAfter?
  cases hfind : steps.find? (fun s => s.head.stepId == paused.head.stepId) with
  | none =>
    have := List.find?_eq_none.mp hfind paused h
    simp at this
  | some s =>
    have hid : s.head.stepId = paused.head.stepId := by simpa using List.find?_some hfind
    rw [List.inj_on_of_nodup_map distinct (List.mem_of_find?_eq_some hfind) h hid]
    rfl

/-! ## Runs one after another -/

variable {pauses : List Pause}

/-- The line of steps that a run sets out on: all of them, or those that come after the step at
which the run stopped that it goes on from. -/
def SetsOut (steps : List Step) (pauses : List Pause) : Option Int → List Step → Prop
  | none, line => line = steps
  | some previous, line =>
    ∃ z ∈ pauses, z.runId = previous ∧ stepsAfter? z.stepId steps = some line

/-- These beats of a run were begun, and if it is on record to have stopped at a condition, then in
the last of them. -/
structure Stands (pauses : List Pause) (begun : List Beat) (p : Run) : Prop where
  trace : p.traced = begun.map fun b => b.head.traced
  paused : ∀ z ∈ pauses, z.runId = p.id → ∃ b, begun.getLast? = some b ∧ b.owner = z.stepId

/-- A run began the first steps of a line. -/
def Went (pauses : List Pause) (line : List Step) (p : Run) : Prop :=
  ∃ begun, begun <+: beats none line ∧ Stands pauses begun p

/-- A run began the first steps of the line that it set out on. -/
def Course (steps : List Step) (pauses : List Pause) (p : Run) : Prop :=
  ∃ line, SetsOut steps pauses p.previousRun? line ∧ Went pauses line p

theorem SetsOut.mono {more : List Pause} {previous : Option Int} {line : List Step}
    (h : SetsOut steps pauses previous line) (hsub : pauses ⊆ more) :
    SetsOut steps more previous line := by
  cases previous with
  | none => exact h
  | some previous =>
    obtain ⟨z, hz, hrest⟩ := h
    exact ⟨z, hsub hz, hrest⟩

/-- What is put on record of others changes nothing about a run. -/
theorem Course.mono {more : List Pause} {p : Run} (h : Course steps pauses p)
    (hsub : pauses ⊆ more) (hmore : ∀ z ∈ more, z.runId = p.id → z ∈ pauses) :
    Course steps more p := by
  obtain ⟨line, hsets, begun, hbegun, hstands⟩ := h
  exact ⟨line, hsets.mono hsub, begun, hbegun, hstands.trace,
    fun z hz hid => hstands.paused z (hmore z hz hid) hid⟩

/-- Runs of which each goes on from the one before, and the steps of the top level that each of them
began: a run that is gone on from stopped in the last one it began, and what the next run began
comes later than that by `order`. -/
inductive Strides (pauses : List Pause) : List Run → List (List Step) → Prop
  | last {p : Run} {leg : List Step} (begun : Begun p.traced leg) : Strides pauses [p] [leg]
  | next {p q : Run} {rest : List Run} {before leg : List Step} {paused : Step}
      {legs : List (List Step)} (begun : Begun p.traced (before ++ [paused]))
      (stopped : ∃ z ∈ pauses, z.runId = p.id)
      (within : ∀ z ∈ pauses, z.runId = p.id → z.stepId = paused.head.stepId)
      (onward : ∀ s ∈ leg, paused.head.order < s.head.order)
      (strides : Strides pauses (q :: rest) (leg :: legs)) :
      Strides pauses (p :: q :: rest) ((before ++ [paused]) :: leg :: legs)

/-- The first steps of a line up to one, and those that come after it by their `order`. -/
theorem sublist_of_isAfter {line before : List Step} {paused : Step}
    (sorted : line.Pairwise fun s t => s.head.order ≤ t.head.order)
    (hleg : before ++ [paused] <+: line) :
    ((before ++ [paused]) ++ line.filter (isAfter paused)).Sublist line := by
  obtain ⟨more, rfl⟩ := hleg
  have hbefore : (before ++ [paused]).filter (isAfter paused) = [] := by
    rw [List.filter_eq_nil_iff]
    intro s hs
    have hle : s.head.order ≤ paused.head.order := by
      rcases List.mem_append.mp hs with hs | hs
      · have := (List.pairwise_append.mp (List.pairwise_append.mp sorted).1).2.2
        exact this s hs paused (by simp)
      · exact Int.le_of_eq (congrArg (fun s => s.head.order) (List.mem_singleton.mp hs))
    simpa [isAfter] using hle
  rw [List.filter_append, hbefore, List.nil_append]
  exact (List.Sublist.refl _).append List.filter_sublist

/-- The orders of what comes after a step are fewer than those of a line that the step is in. -/
theorem length_orders_lt {line : List Step} {paused : Step} (h : paused ∈ line) :
    ((line.filter (isAfter paused)).map fun s => s.head.order).dedup.length
      < (line.map fun s => s.head.order).dedup.length := by
  have hnew : paused.head.order ∉ (line.filter (isAfter paused)).map fun s => s.head.order := by
    intro hmem
    obtain ⟨s, hs, horder⟩ := List.mem_map.mp hmem
    have := (List.mem_filter.mp hs).2
    simp only [isAfter, decide_eq_true_eq] at this
    omega
  have hsub : (paused.head.order
      :: ((line.filter (isAfter paused)).map fun s => s.head.order).dedup) ⊆
        (line.map fun s => s.head.order).dedup := by
    intro n hn
    rw [List.mem_dedup]
    rcases List.mem_cons.mp hn with rfl | hn
    · exact List.mem_map_of_mem h
    · exact List.map_subset _ List.filter_sublist.subset (List.mem_dedup.mp hn)
  have hnodup : (paused.head.order
      :: ((line.filter (isAfter paused)).map fun s => s.head.order).dedup).Nodup :=
    List.nodup_cons.mpr ⟨fun hmem => hnew (List.mem_dedup.mp hmem), List.nodup_dedup _⟩
  exact (List.subperm_of_subset hnodup hsub).length_le

/-- Behind a step of a line comes the same as in all steps. -/
theorem SetsOut.covers {previous : Option Int} {line : List Step}
    (h : SetsOut steps pauses previous line) :
    line.Sublist steps ∧ ∀ s ∈ line, steps.filter (isAfter s) = line.filter (isAfter s) := by
  cases previous with
  | none =>
    obtain rfl : line = steps := h
    exact ⟨List.Sublist.refl _, fun _ _ => rfl⟩
  | some previous =>
    obtain ⟨z, -, -, hline⟩ := h
    obtain ⟨paused, -, rfl⟩ := Option.map_eq_some_iff.mp hline
    refine ⟨List.filter_sublist, fun s hs => ?_⟩
    rw [List.filter_filter]
    refine List.filter_congr fun t _ => ?_
    have hlater : paused.head.order < s.head.order := by simpa using (List.mem_filter.mp hs).2
    rw [Bool.eq_iff_iff]
    simp only [isAfter, Bool.and_eq_true, decide_eq_true_eq]
    omega

/-- **Runs of which each goes on from the one before make headway** along the line that the first
one set out on. -/
theorem strides_of_went (distinct : (steps.map fun s => s.head.stepId).Nodup)
    (sorted : steps.Pairwise fun s t => s.head.order ≤ t.head.order) :
    ∀ (rest : List Run) {p : Run} {line : List Step}, SetsOut steps pauses p.previousRun? line →
      Went pauses line p → (∀ q ∈ rest, Course steps pauses q) →
      (p :: rest).IsChain (fun p q => q.previousRun? = some p.id) →
      ∃ legs, Strides pauses (p :: rest) legs ∧ legs.flatten.Sublist line
        ∧ rest.length ≤ (line.map fun s => s.head.order).dedup.length
  | [], p, line, hsets, ⟨begun, hbegun, hstands⟩, hrest, hchain => by
    obtain ⟨leg, hleg, htrace, -⟩ := exists_leg hbegun
    exact ⟨[leg], .last (hstands.trace ▸ htrace), by simpa using hleg.sublist, Nat.zero_le _⟩
  | q :: rest, p, line, hsets, ⟨begun, hbegun, hstands⟩, hrest, hchain => by
    obtain ⟨hline, hafter⟩ := hsets.covers
    obtain ⟨hprev, hchain⟩ := List.isChain_cons_cons.mp hchain
    obtain ⟨leg, hleg, htrace, hlast⟩ := exists_leg hbegun
    obtain ⟨line', hsets', hwent⟩ := hrest q List.mem_cons_self
    obtain ⟨legs, hlegs, hsub, hlen⟩ := strides_of_went distinct sorted rest hsets' hwent
      (fun r hr => hrest r (List.mem_cons_of_mem q hr)) hchain
    -- The run stopped in the last step that it began, and behind that one the next run set out.
    rw [hprev] at hsets'
    obtain ⟨z, hz, hrun, hline'⟩ := hsets'
    obtain ⟨b, hb, howner⟩ := hstands.paused z hz hrun
    obtain ⟨before, paused, rfl, hpaused⟩ := hlast b hb
    have hmem : paused ∈ line := hleg.subset (by simp)
    have hstep : z.stepId = paused.head.stepId := howner.symm.trans hpaused
    rw [hstep, stepsAfter?_of_mem distinct (hline.subset hmem), hafter paused hmem] at hline'
    obtain rfl := Option.some.inj hline'
    obtain ⟨leg, legs, rfl⟩ : ∃ leg more, legs = leg :: more := by
      cases hlegs with
      | last => exact ⟨_, _, rfl⟩
      | next => exact ⟨_, _, rfl⟩
    refine ⟨(before ++ [paused]) :: leg :: legs, ?_, ?_, ?_⟩
    · refine .next (hstands.trace ▸ htrace) ⟨z, hz, hrun⟩ (fun y hy hyrun => ?_)
        (fun s hs => ?_) hlegs
      · obtain ⟨b', hb', howner'⟩ := hstands.paused y hy hyrun
        obtain rfl := Option.some.inj (hb.symm.trans hb')
        exact howner'.symm.trans hpaused
      · have hlater : s ∈ line.filter (isAfter paused) := hsub.subset (by simp [hs])
        simpa [isAfter] using (List.mem_filter.mp hlater).2
    · have hsorted := sorted.sublist hline
      exact ((List.Sublist.refl _).append hsub).trans (sublist_of_isAfter hsorted hleg)
    · have hless := length_orders_lt hmem
      rw [List.length_cons]
      omega

/-- Traces tell which steps runs began one after another. -/
theorem Strides.unique (distinct : (steps.map fun s => s.head.stepId).Nodup) {runs : List Run}
    {legs others : List (List Step)} (h : Strides pauses runs legs)
    (h' : Strides pauses runs others) (hlegs : legs.flatten ⊆ steps)
    (hothers : others.flatten ⊆ steps) : legs = others := by
  induction h generalizing others with
  | last begun =>
    cases h' with
    | last begun' =>
      rw [begun.unique distinct begun' (by simpa using hlegs) (by simpa using hothers)]
  | next begun _ _ _ _ ih =>
    cases h' with
    | next begun' _ _ _ strides' =>
      rw [List.flatten_cons] at hlegs hothers
      have hleg := begun.unique distinct begun' (List.append_subset.mp hlegs).1
        (List.append_subset.mp hothers).1
      rw [hleg, ih strides' (List.append_subset.mp hlegs).2 (List.append_subset.mp hothers).2]

end Engine

end Deskflow
