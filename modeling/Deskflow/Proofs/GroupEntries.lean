import Deskflow.Step.Parse
import Mathlib.Data.List.Forall2

/-!
# Entries of a group

A group is read entry by entry, in the list as it is stored. An entry that is no object is passed
over and keeps its index.

* `Fault.mapM_eq_ok`: what a list is made into, item by item.
* `mem_placesIn`: the entries of a group with their indices.
* `ofConfig_of_group`, `ofConfig_of_single`: how settings are read.
* `ofConfig_eq_ok`, `mapM_of_ofConfig`: what was read where they could be.
* `settings_induct`: induction through groups in groups.
-/

namespace Deskflow

section

variable {α β : Type}

theorem Fault.map_eq_ok {f : α → β} {x : Except Fault α} {b : β} :
    f <$> x = .ok b ↔ ∃ a, x = .ok a ∧ f a = b := by
  cases x <;> simp [Functor.map, Except.map]

theorem Fault.exists_map_ok {f : α → β} {x : Except Fault α} :
    (∃ b, f <$> x = .ok b) ↔ ∃ a, x = .ok a := by
  simp [map_eq_ok]

variable {f : α → Except Fault β}

theorem Fault.mapM_eq_ok {xs : List α} {ys : List β} :
    xs.mapM f = .ok ys ↔ List.Forall₂ (fun x y => f x = .ok y) xs ys := by
  induction xs generalizing ys with
  | nil => simp [List.mapM_nil, pure, Except.pure, eq_comm]
  | cons x xs ih =>
    rw [List.mapM_cons, List.forall₂_cons_left_iff, bind_eq_ok]
    simp only [bind_eq_ok]
    constructor
    · rintro ⟨y, hx, rest, hxs, h⟩
      cases h
      exact ⟨y, rest, hx, ih.mp hxs, rfl⟩
    · rintro ⟨y, rest, hx, hxs, rfl⟩
      exact ⟨y, hx, rest, ih.mpr hxs, rfl⟩

theorem mem_iff_of_mapM {xs : List α} {ys : List β} (h : xs.mapM f = .ok ys) {y : β} :
    y ∈ ys ↔ ∃ x ∈ xs, f x = .ok y := by
  rw [Fault.mapM_eq_ok] at h
  induction h with
  | nil => simp
  | cons hx _ ih => simp [ih, hx, eq_comm]

theorem exists_mapM_iff {xs : List α} :
    (∃ ys, xs.mapM f = .ok ys) ↔ ∀ x ∈ xs, ∃ y, f x = .ok y := by
  simp only [Fault.mapM_eq_ok]
  induction xs with
  | nil => simp
  | cons x xs ih =>
    rw [List.forall_mem_cons, ← ih]
    simp only [List.forall₂_cons_left_iff]
    constructor
    · rintro ⟨_, y, ys, hx, hxs, -⟩
      exact ⟨⟨y, hx⟩, ys, hxs⟩
    · rintro ⟨⟨y, hx⟩, ys, hxs⟩
      exact ⟨y :: ys, y, ys, hx, hxs, rfl⟩

end

namespace Step

/-! ## Entries -/

/-- The kind of step that an entry of a group asks for. -/
def entryKind (fields : Record) : String := ((fields.getD "type").orElse (.str "send_text")).text

/-- What the settings of a group list, well-formed or not. -/
def listed (config : Value) : List Value := (config.fields.getD "steps").listItems

/-- The entry of a group at an index. What is no object is no entry, but has its index. -/
def place? (config : Value) (index : Nat) : Option Record :=
  match (listed config)[index]? with
  | some (.object fields) => some fields
  | _ => none

/-- The entries in a list with their indices, the first of which is `start`. -/
def placesFrom : Nat → List Value → List (Nat × Record)
  | _, [] => []
  | start, .object fields :: rest => (start, fields) :: placesFrom (start + 1) rest
  | start, _ :: rest => placesFrom (start + 1) rest

/-- The entries of a group with their indices. -/
def placesIn (config : Value) : List (Nat × Record) := placesFrom 0 (listed config)

/-- The member that the entry at an index stands for. -/
def member (key : String) (place : Nat × Record) : Except Fault Step :=
  ofConfig (memberHead key place.1 place.2) (memberKey key place.1) (place.2.getD "config")

@[simp] theorem kind_memberHead (key : String) (index : Nat) (fields : Record) :
    (memberHead key index fields).kind = entryKind fields := rfl

theorem placesFrom_cons_of_ne {v : Value} (h : v.kind ≠ .object) (start : Nat)
    (rest : List Value) : placesFrom start (v :: rest) = placesFrom (start + 1) rest := by
  cases v with
  | object fields => exact absurd rfl h
  | _ => rfl

theorem mem_placesFrom {index start : Nat} {fields : Record} {items : List Value} :
    (index, fields) ∈ placesFrom start items
      ↔ start ≤ index ∧ items[index - start]? = some (.object fields) := by
  induction items generalizing start with
  | nil => simp [placesFrom]
  | cons v rest ih =>
    by_cases hindex : index = start
    · subst hindex
      have hlater : (index, fields) ∉ placesFrom (index + 1) rest := by
        rw [ih]
        omega
      cases v with
      | object fs => simp [placesFrom, hlater, eq_comm]
      | _ => simp [placesFrom, hlater]
    · have hrest : (index, fields) ∈ placesFrom start (v :: rest)
          ↔ (index, fields) ∈ placesFrom (start + 1) rest := by
        cases v with
        | object fs => simp [placesFrom, hindex]
        | _ => rfl
      rw [hrest, ih]
      constructor
      · rintro ⟨hle, hget⟩
        refine ⟨by omega, ?_⟩
        rwa [show index - start = (index - (start + 1)) + 1 by omega, List.getElem?_cons_succ]
      · rintro ⟨hle, hget⟩
        rw [show index - start = (index - (start + 1)) + 1 by omega, List.getElem?_cons_succ]
          at hget
        exact ⟨by omega, hget⟩

theorem mem_placesIn {config : Value} {index : Nat} {fields : Record} :
    (index, fields) ∈ placesIn config ↔ place? config index = some fields := by
  unfold placesIn place?
  rw [mem_placesFrom]
  split
  · rename_i fs hget
    simp [hget]
  · rename_i hnone
    simp only [Nat.zero_le, Nat.sub_zero, true_and, reduceCtorEq, iff_false]
    exact hnone fields

/-- Indices are in their order. -/
theorem placesFrom_pairwise (start : Nat) (items : List Value) :
    (placesFrom start items).Pairwise fun a b => a.1 < b.1 := by
  induction items generalizing start with
  | nil => exact .nil
  | cons v rest ih =>
    by_cases hkind : v.kind = .object
    · cases v with
      | object fields =>
        refine List.pairwise_cons.mpr ⟨fun place hplace => ?_, ih (start + 1)⟩
        obtain ⟨index, fs⟩ := place
        exact (mem_placesFrom.mp hplace).1
      | _ => cases hkind
    · rw [placesFrom_cons_of_ne hkind]
      exact ih (start + 1)

/-! ## Reading groups -/

theorem membersIn_eq (key : String) (fields : Record) :
    membersIn key fields = membersOf key (fields.getD "steps") := by
  induction fields with
  | nil => rfl
  | cons f rest ih =>
    obtain ⟨name, v⟩ := f
    rw [membersIn, Record.getD_cons, ih]
    by_cases h : name = "steps"
    · simp [h]
    · simp [h, Ne.symm h]

theorem memberIn_eq (head : StepHead) (key : String) (fields : Record) :
    memberIn head key fields = ofConfig head key (fields.getD "config") := by
  induction fields with
  | nil =>
    show memberIn head key [] = ofConfig head key .null
    rw [memberIn, ofConfig]
    · rintro _ h
      cases h
  | cons f rest ih =>
    obtain ⟨name, v⟩ := f
    rw [memberIn, Record.getD_cons, ih]
    by_cases h : name = "config"
    · simp [h]
    · simp [h, Ne.symm h]

theorem membersFrom_eq (key : String) (start : Nat) (items : List Value) :
    membersFrom key start items = (placesFrom start items).mapM (member key) := by
  induction items generalizing start with
  | nil => rfl
  | cons v rest ih =>
    cases v with
    | object fields =>
      rw [membersFrom, placesFrom, List.mapM_cons, ih, memberIn_eq]
      rfl
    | _ => exact ih (start + 1)

theorem membersOf_eq (key : String) (v : Value) :
    membersOf key v = membersFrom key 0 v.listItems := by
  cases v <;> rfl

variable {head : StepHead} {key : String} {config : Value}

/-- A group is read entry by entry, -/
theorem ofConfig_of_group (h : head.kind = groupKind) :
    ofConfig head key config
      = group head ((config.fields.getD "name").orElse (.str "Unnamed group")).text
        <$> (placesIn config).mapM (member key) := by
  have hassemble (fields : Record) (members : List Step) : assemble head fields members
      = .ok (.group head ((fields.getD "name").orElse (.str "Unnamed group")).text members) :=
    if_pos h
  cases config with
  | object fields =>
    rw [ofConfig, if_pos h, membersIn_eq, membersOf_eq, membersFrom_eq]
    simp only [hassemble]
    exact (map_eq_pure_bind _ _).symm
  | _ =>
    rw [ofConfig, hassemble]
    · rfl
    · rintro _ h
      cases h

/-- and a single step as its kind says. -/
theorem ofConfig_of_single (h : head.kind ≠ groupKind) :
    ofConfig head key config = single head <$> StepAction.parse head.kind config.fields := by
  have hassemble (fields : Record) : assemble head fields []
      = single head <$> StepAction.parse head.kind fields := by
    rw [assemble, if_neg h]
    exact (map_eq_pure_bind _ _).symm
  cases config with
  | object fields =>
    rw [ofConfig, if_neg h]
    exact hassemble fields
  | _ =>
    rw [ofConfig, hassemble]
    · rfl
    · rintro _ h
      cases h

variable {head' : StepHead} {name : String} {members : List Step} {s : Step}

theorem ofConfig_eq_ok (h : ofConfig head key config = .ok s) :
    head.kind = groupKind ∧ (∃ name members, s = .group head name members) ∨
      head.kind ≠ groupKind ∧ ∃ action,
        StepAction.parse head.kind config.fields = .ok action ∧ s = .single head action := by
  by_cases hkind : head.kind = groupKind
  · rw [ofConfig_of_group hkind, Fault.map_eq_ok] at h
    obtain ⟨members, -, rfl⟩ := h
    exact .inl ⟨hkind, _, members, rfl⟩
  · rw [ofConfig_of_single hkind, Fault.map_eq_ok] at h
    obtain ⟨action, haction, rfl⟩ := h
    exact .inr ⟨hkind, action, haction, rfl⟩

theorem head_of_ofConfig (h : ofConfig head key config = .ok s) : s.head = head := by
  rcases ofConfig_eq_ok h with ⟨-, name, members, rfl⟩ | ⟨-, action, -, rfl⟩
  · rfl
  · rfl

/-- The members of a group are what its entries stand for. -/
theorem mapM_of_ofConfig (h : ofConfig head key config = .ok (group head' name members)) :
    (placesIn config).mapM (member key) = .ok members := by
  by_cases hkind : head.kind = groupKind
  · rw [ofConfig_of_group hkind, Fault.map_eq_ok] at h
    obtain ⟨members, hmembers, hs⟩ := h
    cases hs
    exact hmembers
  · rw [ofConfig_of_single hkind, Fault.map_eq_ok] at h
    obtain ⟨action, -, hs⟩ := h
    cases hs

/-! ## Groups in groups -/

theorem sizeOf_lt_of_lookup {fields : Record} {name : String} {v : Value}
    (h : fields.get? name = some v) : sizeOf v < sizeOf fields := by
  induction fields with
  | nil => cases h
  | cons f rest ih =>
    obtain ⟨n, w⟩ := f
    rw [Record.get?_cons] at h
    split at h
    · cases h
      simp only [List.cons.sizeOf_spec, Prod.mk.sizeOf_spec]
      omega
    · have := ih h
      simp only [List.cons.sizeOf_spec]
      omega

theorem sizeOf_getD_lt (fields : Record) (name : String) :
    sizeOf (fields.getD name) < sizeOf (Value.object fields) := by
  rw [Record.getD, Value.object.sizeOf_spec]
  cases h : fields.get? name with
  | none =>
    have : 0 < sizeOf fields := by cases fields <;> simp +arith
    simp
    omega
  | some v =>
    have := sizeOf_lt_of_lookup h
    simp
    omega

theorem sizeOf_entry_lt {config : Value} {index : Nat} {fields : Record}
    (h : place? config index = some fields) :
    sizeOf (fields.getD "config") < sizeOf config := by
  have hmem : Value.object fields ∈ listed config := by
    unfold place? at h
    split at h
    · cases h
      exact List.mem_of_getElem? ‹_›
    · cases h
  cases config with
  | object r =>
    have hlist : sizeOf (Value.object fields) < sizeOf (Record.getD r "steps") := by
      unfold listed at hmem
      change Value.object fields ∈ (Record.getD r "steps").listItems at hmem
      cases hsteps : Record.getD r "steps" with
      | list items =>
        rw [hsteps] at hmem
        have : sizeOf (Value.object fields) < sizeOf items := List.sizeOf_lt_of_mem hmem
        rw [Value.list.sizeOf_spec]
        omega
      | _ =>
        rw [hsteps] at hmem
        cases hmem
    exact Nat.lt_trans (Nat.lt_trans (sizeOf_getD_lt fields _) hlist) (sizeOf_getD_lt r _)
  | _ => cases hmem

/-- Induction on the settings of a group: through those of the entries in it. -/
theorem settings_induct {P : Value → Prop}
    (step : ∀ config, (∀ index fields, place? config index = some fields →
      P (fields.getD "config")) → P config) (config : Value) : P config :=
  step config fun _ fields h =>
    have := sizeOf_entry_lt h
    settings_induct step (fields.getD "config")
termination_by sizeOf config

/-- A single step that was read, at whatever depth, does what its kind says. -/
theorem parsed_of_singlesOf (config : Value) : ∀ {head : StepHead} {key : String} {s : Step},
    ofConfig head key config = .ok s → ∀ {one : StepHead} {action : StepAction},
      (one, action) ∈ singlesOf s → ∃ fields, StepAction.parse one.kind fields = .ok action := by
  induction config using settings_induct with
  | step config ih =>
    intro head key s h one action hone
    rcases ofConfig_eq_ok h with ⟨-, name, members, rfl⟩ | ⟨-, a, ha, rfl⟩
    · rw [singlesOf, singles_eq_flatMap] at hone
      obtain ⟨m, hm, hone⟩ := List.mem_flatMap.mp hone
      obtain ⟨⟨index, fields⟩, hplace, hmember⟩ := (mem_iff_of_mapM (mapM_of_ofConfig h)).mp hm
      exact ih index fields (mem_placesIn.mp hplace) hmember hone
    · cases List.mem_singleton.mp hone
      exact ⟨_, ha⟩

/-- A condition is a step of its own kind. -/
theorem kind_of_condition {kind : String} {fields : Record} {c : Condition}
    (h : StepAction.parse kind fields = .ok (.condition c)) : kind = "condition" := by
  unfold StepAction.parse at h
  split at h
  case h_7 => rfl
  -- What a delay, a tag step and an assignment are about can be out of range.
  case h_6 | h_8 | h_9 | h_10 =>
    obtain ⟨_, -, h⟩ := Fault.bind_eq_ok.mp h
    cases h
  all_goals cases h

/-- So are the conditions among steps that were read. -/
theorem kind_of_parse_condition {d : StepDraft} {s : Step} (h : parse d = .ok s) {head : StepHead}
    {c : Condition} (hmem : (head, .condition c) ∈ singlesOf s) : head.kind = "condition" := by
  obtain ⟨fields, hfields⟩ := parsed_of_singlesOf d.config h hmem
  exact kind_of_condition hfields

end Step

end Deskflow
