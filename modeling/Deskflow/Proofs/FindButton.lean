import Deskflow.Proofs.StepKeys

/-!
# Finding the button that was clicked

A button that was sent is found again where the stored steps are looked through in a way that comes
past it. In plain form a click goes by the id in the key: to the step with buttons of that id, or to
the members of the first group of that id. In hashed form it goes through the rows one by one until
a digest fits. Either way only the step of a row and the members of a group are looked at, and not
what lies in a group in a group: `Found` is the exact condition.

The search is `find_button`, with `_find_step` for the plain form and `_find_step_by_digest` for the
hashed one.

* `Sole.eq_of_candidate`: what has a step's key and is looked at is that step.
* `stepOfKey?_iff`, `findDigest?_iff`: where a step is found.
* `findButton_iff`: where a button that was sent is found.
* `not_always_found`: a button in a group in a group is not.
-/

namespace Deskflow

namespace Click

/-! ## The stored steps -/

/-- A store that can be searched for a button: the tables are there, and the conversation's id fits
64 bits. -/
structure Searchable (s : Store) (conversationId : Option Int) : Prop where
  steps : s.absent.contains Table.automationSteps = false
  runs : ∀ id, conversationId = some id →
    s.absent.contains Table.automationRuns = false ∧ Transaction.fits id = true

/-- The stored steps in the order in which a click in a conversation looks at them. -/
def sought (s : Store) : Option Int → List StepRow
  | none => s.steps
  | some id => ranked (ranIn s.runs id) s.steps

theorem run_rows {ρ : Type} [Row ρ] {s : Store} (h : s.absent.contains (Row.table ρ) = false) :
    (Transaction.rows ρ).run s = .ok (Row.rows s, s) := by
  unfold Transaction.rows
  rw [StateT.run_bind, Transaction.run_need, h]
  rfl

theorem run_rankedSteps {s : Store} {conversationId : Option Int}
    (h : Searchable s conversationId) :
    (rankedSteps conversationId).run s = .ok (sought s conversationId, s) := by
  have hsteps : (Transaction.rows StepRow).run s = .ok (s.steps, s) := run_rows h.steps
  unfold rankedSteps
  rw [StateT.run_bind, hsteps]
  simp only [bind, Except.bind]
  cases conversationId with
  | none => rfl
  | some id =>
    obtain ⟨htable, hfits⟩ := h.runs id rfl
    have hruns : (Transaction.rows Run).run s = .ok (s.runs, s) := run_rows htable
    have hfit : (Transaction.fit id).run s = .ok ((), s) := by
      rw [Transaction.run_fit, if_pos hfits]
    refine Transaction.run_bind_eq_ok.mpr ⟨_, s, hruns, ?_⟩
    exact Transaction.run_bind_eq_ok.mpr ⟨_, s, hfit, rfl⟩

theorem ranked_perm (first : List Int) (rows : List StepRow) : (ranked first rows).Perm rows :=
  List.filter_append_perm (fun r : StepRow => first.contains r.automationId) rows

theorem sought_perm (s : Store) (conversationId : Option Int) :
    (sought s conversationId).Perm s.steps := by
  cases conversationId with
  | none => exact .refl _
  | some id => exact ranked_perm _ _

/-- A single step lies in the step of a stored row, and nothing else that is stored has its key. -/
structure Sole (rows : List StepRow) (row : StepRow) (step : Step) (head : StepHead)
    (action : StepAction) : Prop where
  stored : row ∈ rows
  parsed : Step.parse row.draft = .ok step
  inside : (head, action) ∈ step.singlesOf
  unique : (storedKeys rows).count head.callbackKey = 1

section

variable {rows : List StepRow} {row : StepRow} {step : Step} {head : StepHead}
  {action : StepAction}

theorem Sole.of_perm {others : List StepRow} (h : Sole rows row step head action)
    (hperm : others.Perm rows) : Sole others row step head action where
  stored := hperm.mem_iff.mpr h.stored
  parsed := h.parsed
  inside := h.inside
  unique := by
    rw [storedKeys, (hperm.flatMap_right keysOfRow).count_eq]
    exact h.unique

theorem Sole.mem_keysOfRow (h : Sole rows row step head action) :
    head.callbackKey ∈ keysOfRow row := by
  rw [keysOfRow_of_parse h.parsed]
  exact Step.mem_keysOf_of_singlesOf h.inside

theorem mem_entriesOf_of_candidate {s t : Step} (ht : t ∈ candidatesOf s) :
    t.head ∈ s.entriesOf := by
  cases s with
  | single head' action' =>
    cases List.mem_singleton.mp ht
    exact Step.head_mem_entriesOf _
  | group head' name members =>
    rw [Step.entriesOf, Step.entries_eq_flatMap]
    exact List.mem_cons_of_mem _ (List.mem_flatMap_of_mem ht (Step.head_mem_entriesOf t))

/-- What has a step's key and is looked at is that step. -/
theorem Sole.eq_of_candidate (h : Sole rows row step head action) {r : StepRow} {s t : Step}
    (hr : r ∈ rows) (hs : Step.parse r.draft = .ok s) (ht : t ∈ candidatesOf s)
    (hkey : t.head.callbackKey = head.callbackKey) : r = row ∧ t = .single head action := by
  have hmem : head.callbackKey ∈ keysOfRow r := by
    rw [keysOfRow_of_parse hs, ← hkey]
    exact List.mem_map_of_mem (mem_entriesOf_of_candidate ht)
  obtain ⟨rfl, hcount⟩ := Step.eq_of_count_flatMap h.unique h.stored hr h.mem_keysOfRow hmem
  obtain rfl : step = s := Except.ok.inj (h.parsed.symm.trans hs)
  rw [keysOfRow_of_parse h.parsed] at hcount
  exact ⟨rfl, Step.eq_single_of_candidate h.inside hcount ht hkey⟩

/-! ## The plain form -/

theorem stepOf?_eq_some {stepId kind : String} {t : Step} :
    stepOf? rows stepId kind = .ok (some t) ↔
      ∃ r, rows.find? (isFor stepId kind) = some r ∧ Step.parse r.draft = .ok t := by
  unfold stepOf?
  cases rows.find? (isFor stepId kind) with
  | none => simp
  | some r => cases hr : Step.parse r.draft <;> simp [hr, Functor.map, Except.map]

theorem stepOf?_eq_none {stepId kind : String} :
    stepOf? rows stepId kind = .ok none ↔ rows.find? (isFor stepId kind) = none := by
  unfold stepOf?
  cases rows.find? (isFor stepId kind) with
  | none => simp
  | some r => cases hr : Step.parse r.draft <;> simp [hr, Functor.map, Except.map]

/-- A row of an id and a kind that is there is the row that is found, if there is no other. -/
theorem mem_of_find?_isFor {stepId kind : String} {r : StepRow}
    (h : rows.find? (isFor stepId kind) = some r) :
    r ∈ rows ∧ r.stepId = stepId ∧ r.kind = kind := by
  have := List.find?_some h
  exact ⟨List.mem_of_find?_eq_some h, by simpa [isFor] using this⟩

/-- Whether the key of `target`, which lies in the step of a row, leads to it. A row has to have an
id of its own, and one that does not lead to a group. A member of a group has to lie in it directly;
the group's id must not hold a line feed, and no group of that id may come before it. -/
def FoundByKey (rows : List StepRow) (row : StepRow) (key : String) (target : Step) : Step → Prop
  | .single _ _ =>
    row.stepId ≠ "" ∧ ∀ group index, Callback.memberOf? key = some (group, index) →
      rows.find? (isFor group groupKind) = none
  | .group _ _ members =>
    target ∈ members ∧ '\n' ∉ (Step.idOf row.draft).toList
      ∧ rows.find? (isFor (Step.idOf row.draft) groupKind) = some row

theorem Sole.key_ne_empty (h : Sole rows row step head action) : head.callbackKey ≠ "" :=
  Step.callbackKey_ne_empty h.parsed (Step.mem_entriesOf_of_singlesOf h.inside)

/-- A step that is found by its id is the step of a row. -/
theorem Sole.of_stepOf? (h : Sole rows row step head action) {t : Step}
    (hfound : stepOf? rows head.callbackKey buttonsKind = .ok (some t))
    (hgroups : ∀ group index, Callback.memberOf? head.callbackKey = some (group, index) →
      rows.find? (isFor group groupKind) = none) :
    t = .single head action
      ∧ FoundByKey rows row head.callbackKey (.single head action) step := by
  obtain ⟨r, hfind, ht⟩ := stepOf?_eq_some.mp hfound
  obtain ⟨hr, hid, hkind⟩ := mem_of_find?_isFor hfind
  have hne : r.stepId ≠ "" := hid ▸ h.key_ne_empty
  have hkey : t.head.callbackKey = head.callbackKey := by
    rw [Step.callbackKey_of_parse ht, Step.idOf_of_ne_empty hne, hid]
  have hsingle : r.draft.kind ≠ groupKind := by
    change r.kind ≠ groupKind
    rw [hkind]
    decide
  obtain ⟨head', action', rfl⟩ := Step.single_of_parse ht hsingle
  obtain ⟨rfl, ht'⟩ := h.eq_of_candidate hr ht (List.mem_singleton.mpr rfl) hkey
  obtain rfl := Except.ok.inj (h.parsed.symm.trans ht)
  exact ⟨ht', hne, hgroups⟩

/-- A step that is found among the members of a group is a member of its row's group. -/
theorem Sole.of_member (h : Sole rows row step head action) {group index : String} {r : StepRow}
    {head' : StepHead} {name : String} {members : List Step} {t : Step}
    (hmember : Callback.memberOf? head.callbackKey = some (group, index))
    (hfind : rows.find? (isFor group groupKind) = some r)
    (hparse : Step.parse r.draft = .ok (.group head' name members))
    (ht : members.find? (fun m => m.head.callbackKey == head.callbackKey) = some t) :
    t = .single head action
      ∧ FoundByKey rows row head.callbackKey (.single head action) step := by
  obtain ⟨hr, hid, hkind⟩ := mem_of_find?_isFor hfind
  have htm := List.mem_of_find?_eq_some ht
  have hkey : t.head.callbackKey = head.callbackKey := by simpa using List.find?_some ht
  obtain ⟨rfl, ht'⟩ := h.eq_of_candidate hr hparse htm hkey
  obtain rfl := Except.ok.inj (h.parsed.symm.trans hparse)
  obtain ⟨place, hplace⟩ := Step.Keyed.exists_place (Step.keyed_of_parse hparse) htm
  rw [← hkey, hplace, Callback.memberOf?_memberKey] at hmember
  split at hmember
  · cases hmember
  · rename_i hclean
    cases hmember
    have hline : '\n' ∉ (Step.idOf r.draft).toList := by
      simp only [Bool.or_eq_true, not_or] at hclean
      simpa using hclean.2
    exact ⟨ht', ht' ▸ htm, hline, hfind⟩

/-- A key leads to nothing but the step that has it. -/
theorem Sole.of_stepOfKey? (h : Sole rows row step head action) {t : Step}
    (hfound : stepOfKey? rows head.callbackKey = .ok (some t)) :
    t = .single head action
      ∧ FoundByKey rows row head.callbackKey (.single head action) step := by
  unfold stepOfKey? at hfound
  cases hmember : Callback.memberOf? head.callbackKey with
  | none =>
    rw [hmember] at hfound
    refine h.of_stepOf? hfound fun group index hcontra => ?_
    rw [hmember] at hcontra
    cases hcontra
  | some p =>
    obtain ⟨group, index⟩ := p
    rw [hmember] at hfound
    obtain ⟨found, hgroup, hfound⟩ := Fault.bind_eq_ok.mp hfound
    cases found with
    | none =>
      refine h.of_stepOf? hfound fun group' index' hsame => ?_
      rw [hmember] at hsame
      cases hsame
      exact stepOf?_eq_none.mp hgroup
    | some s =>
      obtain ⟨r, hfind, hparse⟩ := stepOf?_eq_some.mp hgroup
      obtain ⟨-, -, hkind⟩ := mem_of_find?_isFor hfind
      obtain ⟨head', name, members, rfl⟩ := Step.group_of_parse hparse hkind
      obtain ⟨_, -, ht⟩ := Fault.bind_eq_ok.mp hfound
      exact h.of_member hmember hfind hparse (Except.ok.inj ht)

end

section

variable {rows : List StepRow} {row : StepRow} {step : Step} {head : StepHead}
  {text imageUrl : String} {buttons : List Button}

/-- A step with buttons is found by its id, if that leads to no group. -/
theorem exists_of_row (h : Sole rows row step head (.sendButtons text imageUrl buttons))
    (hstep : step = .single head (.sendButtons text imageUrl buttons)) (hne : row.stepId ≠ "") :
    ∃ t, stepOf? rows head.callbackKey buttonsKind = .ok (some t) := by
  have hparsed := h.parsed
  rw [hstep] at hparsed
  have hkind : row.kind = buttonsKind := Step.kind_of_parse_sendButtons hparsed
  have hid : row.stepId = head.callbackKey := by
    rw [← Step.idOf_of_ne_empty hne]
    exact (Step.callbackKey_of_parse hparsed).symm
  cases hfind : rows.find? (isFor head.callbackKey buttonsKind) with
  | none =>
    have := List.find?_eq_none.mp hfind row h.stored
    simp [isFor, hid, hkind] at this
  | some r =>
    obtain ⟨-, -, hr⟩ := mem_of_find?_isFor hfind
    obtain ⟨t, ht⟩ := Step.parse_of_buttonsKind (d := r.draft) hr
    exact ⟨t, stepOf?_eq_some.mpr ⟨r, hfind, ht⟩⟩

/-- A member of a group is found by its key, if its row is the first of the group's id. -/
theorem exists_of_member {head' : StepHead} {name : String} {members : List Step}
    {action : StepAction} (h : Sole rows row (.group head' name members) head action)
    (hlen : head.callbackKey.toList.length ≤ Numeral.maxDigits)
    (hmember : .single head action ∈ members) (hline : '\n' ∉ (Step.idOf row.draft).toList)
    (hfirst : rows.find? (isFor (Step.idOf row.draft) groupKind) = some row) :
    ∃ t, stepOfKey? rows head.callbackKey = .ok (some t) := by
  obtain ⟨place, hplace⟩ := Step.Keyed.exists_place (Step.keyed_of_parse h.parsed) hmember
  have hkey : head.callbackKey = memberKey (Step.idOf row.draft) place := hplace
  have hof : Callback.memberOf? head.callbackKey
      = some (Step.idOf row.draft, Decimal.digitText place) := by
    rw [hkey, Callback.memberOf?_memberKey, if_neg]
    simpa [Step.idOf_ne_empty] using hline
  have hread : Numeral.read (Decimal.digitText place) = .ok place := by
    refine Numeral.read_digitText (Nat.le_trans ?_ hlen)
    rw [hkey, Callback.memberKey_toList, List.length_append, List.length_cons, List.length_cons]
    omega
  have hgroup : stepOf? rows (Step.idOf row.draft) groupKind
      = .ok (some (.group head' name members)) := stepOf?_eq_some.mpr ⟨row, hfirst, h.parsed⟩
  have hfound : (members.find? fun m => m.head.callbackKey == head.callbackKey).isSome := by
    rw [List.find?_isSome]
    exact ⟨_, hmember, by simp [Step.head]⟩
  obtain ⟨t, ht⟩ := Option.isSome_iff_exists.mp hfound
  refine ⟨t, ?_⟩
  unfold stepOfKey?
  rw [hof]
  refine Fault.bind_eq_ok.mpr ⟨_, hgroup, Fault.bind_eq_ok.mpr ⟨_, hread, ?_⟩⟩
  exact congrArg _ ht

/-- Where the key of a step with buttons leads to it. -/
theorem stepOfKey?_iff (h : Sole rows row step head (.sendButtons text imageUrl buttons))
    (hlen : head.callbackKey.toList.length ≤ Numeral.maxDigits) {t : Step} :
    stepOfKey? rows head.callbackKey = .ok (some t) ↔
      t = .single head (.sendButtons text imageUrl buttons) ∧
        FoundByKey rows row head.callbackKey (.single head (.sendButtons text imageUrl buttons))
          step := by
  refine ⟨h.of_stepOfKey?, fun ⟨ht, hfound⟩ => ?_⟩
  -- What is found can only be the step, so it is enough that something is found.
  suffices hsome : ∃ u, stepOfKey? rows head.callbackKey = .ok (some u) by
    obtain ⟨u, hu⟩ := hsome
    rw [hu, ht, (h.of_stepOfKey? hu).1]
  cases step with
  | single head' action' =>
    obtain ⟨hne, hgroups⟩ := hfound
    have hstep : Step.single head' action' = .single head (.sendButtons text imageUrl buttons) := by
      cases List.mem_singleton.mp h.inside
      rfl
    obtain ⟨u, hu⟩ := exists_of_row h hstep hne
    refine ⟨u, ?_⟩
    unfold stepOfKey?
    cases hmember : Callback.memberOf? head.callbackKey with
    | none => exact hu
    | some p =>
      exact Fault.bind_eq_ok.mpr ⟨none, stepOf?_eq_none.mpr (hgroups p.1 p.2 hmember), hu⟩
  | group head' name members =>
    obtain ⟨hmember, hline, hfirst⟩ := hfound
    exact exists_of_member h hlen hmember hline hfirst

/-! ## The hashed form -/

/-- Whether the digest of `target`, which lies in `step`, the step of a row, leads to it. It has to
be the step of the row or lie directly in it, and the rows that are looked at before have to be such
that they can be read. -/
def FoundByDigest (rows : List StepRow) (row : StepRow) (target step : Step) : Prop :=
  target ∈ candidatesOf step ∧
    ∀ r ∈ (rows.filter mayBear).takeWhile (· ≠ row), ∃ s, Step.parse r.draft = .ok s

theorem findDigest?_cons {digest : String} {index : Nat} {r : StepRow} {rest : List StepRow}
    {s : Step} (h : Step.parse r.draft = .ok s) :
    findDigest? digest index (r :: rest) =
      match (candidatesOf s).find? (hasDigest digest index) with
      | some t => .ok (some t)
      | none => findDigest? digest index rest := by
  rw [findDigest?, h]
  cases hfind : (candidatesOf s).find? (hasDigest digest index) <;>
    simp [hfind, bind, Except.bind, pure, Except.pure]

theorem mem_of_findDigest? {digest : String} {index : Nat} {t : Step} :
    {rows : List StepRow} → findDigest? digest index rows = .ok (some t) →
      ∃ r ∈ rows, ∃ s, Step.parse r.draft = .ok s ∧ t ∈ candidatesOf s
        ∧ hasDigest digest index t = true
  | [], h => by cases h
  | r :: rest, h => by
    obtain ⟨s, hparse, -⟩ := Fault.bind_eq_ok.mp h
    rw [findDigest?_cons hparse] at h
    cases hfind : (candidatesOf s).find? (hasDigest digest index) with
    | some u =>
      simp only [hfind, Except.ok.injEq, Option.some.injEq] at h
      subst h
      exact ⟨r, List.mem_cons_self, s, hparse, List.mem_of_find?_eq_some hfind,
        List.find?_some hfind⟩
    | none =>
      simp only [hfind] at h
      obtain ⟨r', hr', hrest⟩ := mem_of_findDigest? h
      exact ⟨r', List.mem_cons_of_mem r hr', hrest⟩

/-- Where only one row has steps of a digest, it is found if the rows before it can be read. -/
theorem findDigest?_of_only {digest : String} {index : Nat} {row : StepRow} {step t : Step}
    (hparse : Step.parse row.draft = .ok step) :
    {rows : List StepRow} → row ∈ rows →
      (∀ r ∈ rows, ∀ s, Step.parse r.draft = .ok s →
        ∀ u ∈ candidatesOf s, hasDigest digest index u = true → r = row) →
      (findDigest? digest index rows = .ok (some t) ↔
        (candidatesOf step).find? (hasDigest digest index) = some t ∧
          ∀ r ∈ rows.takeWhile (· ≠ row), ∃ s, Step.parse r.draft = .ok s)
  | r :: rest, hrow, honly => by
    by_cases hr : r = row
    · subst hr
      rw [findDigest?_cons hparse, List.takeWhile_cons_of_neg (by simp)]
      cases hfind : (candidatesOf step).find? (hasDigest digest index) with
      | some u => simp
      | none =>
        simp only [List.not_mem_nil, false_implies, implies_true, and_true, reduceCtorEq, iff_false]
        intro h
        obtain ⟨r', hr', s, hs, ht, hdigest⟩ := mem_of_findDigest? h
        obtain rfl := honly r' (List.mem_cons_of_mem r hr') s hs t ht hdigest
        obtain rfl := Except.ok.inj (hparse.symm.trans hs)
        have := List.find?_eq_none.mp hfind t ht
        exact this hdigest
    · have hrow' : row ∈ rest := by
        rcases List.mem_cons.mp hrow with h | h
        · exact absurd h.symm hr
        · exact h
      rw [List.takeWhile_cons_of_pos (by simpa using hr), List.forall_mem_cons]
      cases hs : Step.parse r.draft with
      | error fault => simp [findDigest?, hs, bind, Except.bind]
      | ok s =>
        have hnone : (candidatesOf s).find? (hasDigest digest index) = none := by
          refine List.find?_eq_none.mpr fun u hu hdigest => ?_
          exact hr (honly r List.mem_cons_self s hs u hu hdigest)
        have ih := findDigest?_of_only (t := t) hparse hrow'
          fun r' hr' => honly r' (List.mem_cons_of_mem r hr')
        rw [findDigest?_cons hs, hnone, ih]
        simp

theorem hasDigest_eq_true {digest : String} {index : Nat} {t : Step}
    (h : hasDigest digest index t = true) :
    Callback.digest t.head.callbackKey index = digest := by
  unfold hasDigest at h
  split at h
  · exact (by simpa using h : _ ∧ _).2
  · cases h

theorem mayBear_of_parse {row : StepRow} {step : Step} {head : StepHead} {text imageUrl : String}
    {buttons : List Button} (hparse : Step.parse row.draft = .ok step)
    (hinside : (head, StepAction.sendButtons text imageUrl buttons) ∈ step.singlesOf) :
    mayBear row = true := by
  cases step with
  | single head' action' =>
    cases List.mem_singleton.mp hinside
    have hkind : row.kind = buttonsKind := Step.kind_of_parse_sendButtons hparse
    simp [mayBear, hkind]
  | group head' name members =>
    have hkind : row.kind = groupKind := Step.kind_of_parse_group hparse
    simp [mayBear, hkind]

/-- Where the digest of a step with buttons leads to it, if no other key has that digest. -/
theorem findDigest?_iff (h : Sole rows row step head (.sendButtons text imageUrl buttons))
    {index : Nat} (hindex : index < buttons.length)
    (hdigest : ∀ key ∈ storedKeys rows,
      Callback.digest key index = Callback.digest head.callbackKey index → key = head.callbackKey)
    {t : Step} :
    findDigest? (Callback.digest head.callbackKey index) index (rows.filter mayBear)
        = .ok (some t) ↔
      t = .single head (.sendButtons text imageUrl buttons) ∧
        FoundByDigest rows row (.single head (.sendButtons text imageUrl buttons)) step := by
  have hcandidate : ∀ r ∈ rows, ∀ s, Step.parse r.draft = .ok s → ∀ u ∈ candidatesOf s,
      hasDigest (Callback.digest head.callbackKey index) index u = true →
        r = row ∧ u = .single head (.sendButtons text imageUrl buttons) := by
    intro r hr s hs u hu hhas
    refine h.eq_of_candidate hr hs hu (hdigest _ ?_ (hasDigest_eq_true hhas))
    refine List.mem_flatMap_of_mem hr ?_
    rw [keysOfRow_of_parse hs]
    exact List.mem_map_of_mem (mem_entriesOf_of_candidate hu)
  have hrow : row ∈ rows.filter mayBear :=
    List.mem_filter.mpr ⟨h.stored, mayBear_of_parse h.parsed h.inside⟩
  rw [findDigest?_of_only h.parsed hrow fun r hr s hs u hu hhas =>
    (hcandidate r (List.mem_filter.mp hr).1 s hs u hu hhas).1]
  unfold FoundByDigest
  constructor
  · rintro ⟨hfind, hbefore⟩
    have ht := List.mem_of_find?_eq_some hfind
    obtain ⟨-, rfl⟩ := hcandidate row h.stored step h.parsed t ht (List.find?_some hfind)
    exact ⟨rfl, ht, hbefore⟩
  · rintro ⟨rfl, hmember, hbefore⟩
    have hhas : hasDigest (Callback.digest head.callbackKey index) index
        (.single head (.sendButtons text imageUrl buttons)) = true := by
      simp [hasDigest, buttonsOf?, Step.head, hindex]
    have hsome := List.find?_isSome.mpr ⟨_, hmember, hhas⟩
    obtain ⟨u, hu⟩ := Option.isSome_iff_exists.mp hsome
    have huu := hcandidate row h.stored step h.parsed u (List.mem_of_find?_eq_some hu)
      (List.find?_some hu)
    exact ⟨huu.2 ▸ hu, hbefore⟩

/-! ## Buttons that were sent -/

/-- Whether a click on the button at an index of `target`, which lies in `step`, the step of a row,
finds its way back to it. -/
def Found (rows : List StepRow) (row : StepRow) (step target : Step) (index : Nat) : Prop :=
  let key := target.head.callbackKey
  if (Callback.plain key index).utf8ByteSize ≤ Callback.plainLimit then
    FoundByKey rows row key target step
  else FoundByDigest rows row target step

theorem found_of_short {target : Step} {index : Nat}
    (h : (Callback.plain target.head.callbackKey index).utf8ByteSize ≤ Callback.plainLimit) :
    Found rows row step target index ↔ FoundByKey rows row target.head.callbackKey target step := by
  unfold Found
  simp only [if_pos h]

theorem found_of_long {target : Step} {index : Nat}
    (h : ¬(Callback.plain target.head.callbackKey index).utf8ByteSize ≤ Callback.plainLimit) :
    Found rows row step target index ↔ FoundByDigest rows row target step := by
  unfold Found
  simp only [if_neg h]

theorem data_of_keyFor? {key label data : String} {button : Button} {index : Nat}
    (h : Callback.keyFor? key button index = some ⟨label, .callback data⟩) :
    data = Callback.encode key index := by
  unfold Callback.keyFor? at h
  split at h
  · cases h
  · split at h <;> cases h
    rfl

/-- A reference leads to a button where it leads to its step. -/
theorem buttonOf?_iff {ref : Callback.Ref} {found : Prop} {button : Button}
    (hstep : ∀ t, stepOfRef? rows ref = .ok (some t) ↔
      t = .single head (.sendButtons text imageUrl buttons) ∧ found)
    (hbutton : buttons[ref.index]? = some button) :
    buttonOf? rows ref = .ok (some button) ↔ found := by
  unfold buttonOf?
  constructor
  · intro h
    obtain ⟨s, hs, h⟩ := Fault.bind_eq_ok.mp h
    cases s with
    | none => cases h
    | some t => exact ((hstep t).mp hs).2
  · intro h
    refine Fault.bind_eq_ok.mpr ⟨_, (hstep _).mpr ⟨rfl, h⟩, ?_⟩
    exact congrArg _ hbutton

theorem run_findButton {s : Store} {conversationId : Option Int} {data : String}
    {ref : Callback.Ref} (h : Searchable s conversationId)
    (hread : Callback.read? data = .ok (some ref)) {found : Option Button} :
    (findButton data conversationId).run s = .ok (found, s) ↔
      buttonOf? (sought s conversationId) ref = .ok found := by
  have hrun : (findButton data conversationId).run s
      = (liftM (buttonOf? (sought s conversationId) ref) : Transaction _).run s := by
    unfold findButton
    rw [StateT.run_bind, Transaction.run_lift_ok hread]
    change (rankedSteps conversationId >>= fun rows =>
      (liftM (buttonOf? rows ref) : Transaction _)).run s = _
    rw [StateT.run_bind, run_rankedSteps h]
    rfl
  rw [hrun]
  constructor
  · exact fun hok => (Transaction.lift_eq_ok hok).1
  · exact fun hok => Transaction.run_lift_ok hok s

theorem getElem?_lt {α : Type} {xs : List α} {i : Nat} {x : α} (h : xs[i]? = some x) :
    i < xs.length :=
  (List.getElem?_eq_some_iff.mp h).1

/-- A button that was sent is found again exactly where `Found` says so. The index of a list fits
64 bits. -/
theorem findButton_iff {s : Store} {conversationId : Option Int} (hs : Searchable s conversationId)
    (h : Sole s.steps row step head (.sendButtons text imageUrl buttons)) {index : Nat}
    {button : Button} {label data : String} (hbutton : buttons[index]? = some button)
    (hkey : Callback.keyFor? head.callbackKey button index = some ⟨label, .callback data⟩)
    (hdigest : ∀ key ∈ storedKeys s.steps,
      Callback.digest key index = Callback.digest head.callbackKey index → key = head.callbackKey)
    (hindex : Transaction.fits index = true) :
    (findButton data conversationId).run s = .ok (some button, s) ↔
      Found (sought s conversationId) row step (.single head (.sendButtons text imageUrl buttons))
        index := by
  have hperm := sought_perm s conversationId
  have hsole := h.of_perm hperm
  rw [data_of_keyFor? hkey]
  by_cases hshort : (Callback.plain head.callbackKey index).utf8ByteSize ≤ Callback.plainLimit
  · have hread := Callback.read?_encode_short h.key_ne_empty hshort
    have hlen : head.callbackKey.toList.length ≤ Numeral.maxDigits := by
      have hplain := Callback.plain_length_le hshort
      rw [Callback.plain_toList, List.length_append, Callback.plainLimit] at hplain
      rw [Numeral.maxDigits]
      omega
    rw [run_findButton hs hread, found_of_short (by exact hshort)]
    exact buttonOf?_iff (fun t => stepOfKey?_iff hsole hlen) hbutton
  · have hdigits : (Decimal.digitText index).toList.length ≤ 46 := by
      have hsmall : index < 9223372036854775808 := by
        have hfits := (Transaction.fits_iff.mp hindex).2
        rw [Transaction.wordLimit] at hfits
        omega
      exact (Decimal.digitText_length_le (by omega)).mpr (Nat.lt_trans hsmall (by decide))
    have hread := Callback.read?_encode_long (Nat.lt_of_not_le hshort) hdigits
    have hdigest' : ∀ key ∈ storedKeys (sought s conversationId),
        Callback.digest key index = Callback.digest head.callbackKey index →
          key = head.callbackKey :=
      fun key hmem => hdigest key ((hperm.flatMap_right keysOfRow).mem_iff.mp hmem)
    rw [run_findButton hs hread, found_of_long (by exact hshort)]
    exact buttonOf?_iff (fun t => findDigest?_iff hsole (getElem?_lt hbutton) hdigest') hbutton

end

/-! ## Menus -/

/-- The settings of a step whose button sends a text. -/
def offer : Value :=
  .object [("type", .str buttonsKind),
    ("config", .object [("text", .str "Pick"),
      ("buttons", .list [.object [("text", .str "Info"), ("action", .str "send_text"),
        ("action_config", .object [("text", .str "We are open.")])]])])]

/-- The button of the offer. -/
def info : Button := ⟨"Info", none, some "send_text", [("text", .str "We are open.")]⟩

/-- What the offer does. -/
def offering : StepAction := .sendButtons "Pick" "" [info]

/-- The settings of a group in a group. -/
def submenu (members : List Value) : Value :=
  .object [("type", .str groupKind), ("config", .object [("steps", .list members)])]

/-- The row of a group. -/
def menu (members : List Value) : StepRow :=
  { id := 1, automationId := 1, stepId := "s1", kind := groupKind,
    config := .object [("steps", .list members)], position := .null, order := 0,
    nextStepId := none, trueStepId := none, falseStepId := none }

/-- The head of what lies in a group at a key. -/
def placed (key kind : String) : StepHead := { stepId := key, kind, buttonKey := some key }

/-- The step of the row of a group. -/
def menuStep (members : List Step) : Step :=
  .group { stepId := "s1", kind := groupKind, rowId := some 1 } "Unnamed group" members

/-- The only thing stored is the row of a group. -/
def menus (members : List Value) : Store := { steps := [menu members] }

theorem menus_searchable (members : List Value) : Searchable (menus members) none :=
  ⟨rfl, fun _ h => by cases h⟩

theorem sole_menu : Sole (menus [offer]).steps (menu [offer])
    (menuStep [.single (placed "s1-s0" buttonsKind) offering]) (placed "s1-s0" buttonsKind)
    offering where
  stored := List.mem_singleton.mpr rfl
  parsed := by rfl
  inside := List.mem_singleton.mpr rfl
  unique := by decide +kernel

/-- A button in a group is found. -/
theorem findButton_iff_menu :
    (findButton "s1-s0:0" none).run (menus [offer]) = .ok (some info, menus [offer]) := by
  have hbutton : [info][0]? = some info := rfl
  have hkey : Callback.keyFor? (placed "s1-s0" buttonsKind).callbackKey info 0
      = some ⟨"Info", .callback "s1-s0:0"⟩ := by decide +kernel
  refine (findButton_iff (menus_searchable [offer]) sole_menu hbutton hkey (by decide +kernel)
    (by decide)).mpr ?_
  refine (found_of_short (by decide +kernel)).mpr ⟨List.mem_singleton.mpr rfl, ?_, ?_⟩
  · decide +kernel
  · decide +kernel

/-- The step of a group in a group. -/
def submenuStep : Step :=
  .group (placed "s1-s0" groupKind) "Unnamed group"
    [.single (placed "s1-s0-s0" buttonsKind) offering]

theorem sole_submenu : Sole (menus [submenu [offer]]).steps (menu [submenu [offer]])
    (menuStep [submenuStep]) (placed "s1-s0-s0" buttonsKind) offering where
  stored := List.mem_singleton.mpr rfl
  parsed := by rfl
  inside := List.mem_singleton.mpr rfl
  unique := by decide +kernel

/-- A button in a group in a group is sent, and not found. -/
theorem not_always_found :
    ¬ ∀ (s : Store) (conversationId : Option Int) (row : StepRow) (step : Step) (head : StepHead)
        (text imageUrl : String) (buttons : List Button) (index : Nat) (button : Button)
        (label data : String),
      Searchable s conversationId →
      Sole s.steps row step head (.sendButtons text imageUrl buttons) →
      buttons[index]? = some button →
      Callback.keyFor? head.callbackKey button index = some ⟨label, .callback data⟩ →
      (∀ key ∈ storedKeys s.steps,
        Callback.digest key index = Callback.digest head.callbackKey index →
          key = head.callbackKey) →
      (findButton data conversationId).run s = .ok (some button, s) := by
  intro h
  have hfound := h _ _ _ _ _ _ _ _ 0 info "Info" "s1-s0-s0:0" (menus_searchable [submenu [offer]])
    sole_submenu rfl (by decide +kernel) (by decide +kernel)
  have hnone : ((findButton "s1-s0-s0:0" none).run (menus [submenu [offer]])).toOption.map Prod.fst
      = some none := by decide +kernel
  rw [hfound] at hnone
  cases hnone

end Click

end Deskflow
