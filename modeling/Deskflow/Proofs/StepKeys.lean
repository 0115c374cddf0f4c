import Deskflow.Engine.Click
import Deskflow.Proofs.GroupEntries
import Deskflow.Proofs.CallbackRoundTrip

/-!
# The keys of stored steps

What is read from a row tells where the keys of its steps come from: the step of the row has the
row's id, and what lies in a group has the key of its place.

* `callbackKey_of_parse`, `group_of_parse`, `single_of_parse`: the step of a row.
* `keyed_of_parse`: the keys of what lies in it, at every depth.
* `callbackKey_ne_empty`: no step has an empty key.
* `eq_single_of_candidate`: where a key is there once, only the step itself is taken for it.
-/

namespace Deskflow

namespace StepHead

theorem callbackKey_of_some {h : StepHead} {key : String} (hkey : h.buttonKey = some key)
    (hne : key ≠ "") : h.callbackKey = key := by
  simp [callbackKey, hkey, hne]

end StepHead

namespace Step

/-! ## The step of a row -/

variable {d : StepDraft} {s : Step}

theorem callbackKey_of_parse (h : parse d = .ok s) : s.head.callbackKey = idOf d := by
  rw [head_of_ofConfig h]
  rfl

theorem group_of_parse (h : parse d = .ok s) (hkind : d.kind = groupKind) :
    ∃ head name members, s = .group head name members := by
  rcases ofConfig_eq_ok h with ⟨-, name, members, hs⟩ | ⟨hne, -⟩
  · exact ⟨_, name, members, hs⟩
  · exact absurd hkind hne

theorem single_of_parse (h : parse d = .ok s) (hkind : d.kind ≠ groupKind) :
    ∃ head action, s = .single head action := by
  rcases ofConfig_eq_ok h with ⟨heq, -⟩ | ⟨-, action, -, hs⟩
  · exact absurd heq hkind
  · exact ⟨_, action, hs⟩

theorem kind_of_parse_group {head : StepHead} {name : String} {members : List Step}
    (h : parse d = .ok (.group head name members)) : d.kind = groupKind := by
  rcases ofConfig_eq_ok h with ⟨heq, -⟩ | ⟨-, action, -, hs⟩
  · exact heq
  · cases hs

/-- Only settings of one kind are read as buttons. -/
theorem kind_of_sendButtons {kind : String} {fields : Record} {text imageUrl : String}
    {buttons : List Button}
    (h : StepAction.parse kind fields = .ok (.sendButtons text imageUrl buttons)) :
    kind = Click.buttonsKind := by
  unfold StepAction.parse at h
  split at h
  case h_2 => rfl
  -- What a delay, a tag step and an assignment are about can be out of range.
  case h_6 | h_8 | h_9 | h_10 =>
    obtain ⟨_, -, h⟩ := Fault.bind_eq_ok.mp h
    cases h
  all_goals cases h

theorem kind_of_parse_sendButtons {head : StepHead} {text imageUrl : String}
    {buttons : List Button}
    (h : parse d = .ok (.single head (.sendButtons text imageUrl buttons))) :
    d.kind = Click.buttonsKind := by
  rcases ofConfig_eq_ok h with ⟨-, name, members, hs⟩ | ⟨-, action, haction, hs⟩
  · cases hs
  · cases hs
    exact kind_of_sendButtons haction

/-- A step with buttons is always read. -/
theorem parse_of_buttonsKind (hkind : d.kind = Click.buttonsKind) : ∃ s, parse d = .ok s := by
  have hsingle : d.kind ≠ groupKind := by
    rw [hkind]
    decide
  unfold parse
  rw [ofConfig_of_single hsingle, Fault.exists_map_ok]
  dsimp only
  rw [hkind]
  exact ⟨_, rfl⟩

theorem idOf_ne_empty (d : StepDraft) : idOf d ≠ "" := by
  unfold idOf
  split
  · simp
  · assumption
  · simp

/-- A row with an id of its own is known by it. -/
theorem idOf_of_ne_empty {r : StepRow} (h : r.stepId ≠ "") : idOf r.draft = r.stepId := by
  unfold idOf
  split
  · rename_i heq
    exact absurd (Option.some.inj heq) h
  · rename_i heq
    exact (Option.some.inj heq).symm
  · rename_i heq
    cases heq

/-! ## The keys of members -/

@[simp] theorem callbackKey_memberHead (key : String) (index : Nat) (fields : Record) :
    (memberHead key index fields).callbackKey = memberKey key index :=
  StepHead.callbackKey_of_some rfl (Callback.memberKey_ne_empty key index)

mutual

/-- Below a step, the members at every depth have the keys of their places, the outermost ones
under `key`. -/
def KeyedBelow (key : String) : Step → Prop
  | single _ _ => True
  | group _ _ members => Keyed key members

/-- Members have the keys of their places under `key`, and so has what lies in them. -/
def Keyed (key : String) : List Step → Prop
  | [] => True
  | m :: rest =>
    (∃ index, m.head.buttonKey = some (memberKey key index) ∧ KeyedBelow (memberKey key index) m)
      ∧ Keyed key rest

end

theorem keyed_iff {key : String} {members : List Step} :
    Keyed key members ↔ ∀ m ∈ members, ∃ index,
      m.head.buttonKey = some (memberKey key index) ∧ KeyedBelow (memberKey key index) m := by
  induction members with
  | nil => simp [Keyed]
  | cons m rest ih => rw [Keyed, List.forall_mem_cons, ih]

theorem keyed_of_ofConfig (config : Value) : ∀ {head : StepHead} {key : String} {s : Step},
    ofConfig head key config = .ok s → KeyedBelow key s := by
  induction config using settings_induct with
  | step config ih =>
    intro head key s h
    rcases ofConfig_eq_ok h with ⟨-, name, members, rfl⟩ | ⟨-, action, -, rfl⟩
    · refine keyed_iff.mpr fun m hm => ?_
      obtain ⟨⟨index, fields⟩, hplace, hm⟩ := (mem_iff_of_mapM (mapM_of_ofConfig h)).mp hm
      refine ⟨index, ?_, ih index fields (mem_placesIn.mp hplace) hm⟩
      rw [head_of_ofConfig hm]
      rfl
    · trivial

theorem keyed_of_parse (h : parse d = .ok s) : KeyedBelow (idOf d) s :=
  keyed_of_ofConfig _ h

theorem Keyed.exists_place {key : String} {m : Step} {members : List Step}
    (h : Keyed key members) (hm : m ∈ members) :
    ∃ index, m.head.callbackKey = memberKey key index := by
  obtain ⟨index, hkey, -⟩ := keyed_iff.mp h m hm
  exact ⟨index, StepHead.callbackKey_of_some hkey (Callback.memberKey_ne_empty key index)⟩

mutual

theorem KeyedBelow.key_ne_empty {key : String} :
    (s : Step) → KeyedBelow key s → s.head.callbackKey ≠ "" → ∀ h ∈ entriesOf s, h.callbackKey ≠ ""
  | single head _, _, hne, h, hh => by
    cases List.mem_singleton.mp hh
    exact hne
  | group head _ members, hbelow, hne, h, hh => by
    rcases List.mem_cons.mp hh with rfl | hh
    · exact hne
    · exact Keyed.key_ne_empty members hbelow h hh

theorem Keyed.key_ne_empty {key : String} :
    (members : List Step) → Keyed key members → ∀ h ∈ entries members, h.callbackKey ≠ ""
  | m :: rest, ⟨⟨index, hkey, hbelow⟩, hrest⟩, h, hh => by
    have hne := Callback.memberKey_ne_empty key index
    rcases List.mem_append.mp hh with hh | hh
    · refine KeyedBelow.key_ne_empty m hbelow ?_ h hh
      rw [StepHead.callbackKey_of_some hkey hne]
      exact hne
    · exact Keyed.key_ne_empty rest hrest h hh

end

theorem callbackKey_ne_empty (h : parse d = .ok s) {head : StepHead} (hhead : head ∈ entriesOf s) :
    head.callbackKey ≠ "" := by
  refine KeyedBelow.key_ne_empty s (keyed_of_parse h) ?_ head hhead
  rw [callbackKey_of_parse h]
  exact idOf_ne_empty d

/-! ## Keys that are there once -/

/-- The callback keys of a step and of what lies in it. -/
def keysOf (s : Step) : List String := (entriesOf s).map StepHead.callbackKey

theorem keysOf_group (head : StepHead) (name : String) (members : List Step) :
    keysOf (group head name members) = head.callbackKey :: members.flatMap keysOf := by
  simp only [keysOf, entriesOf, entries_eq_flatMap, List.map_cons, List.map_flatMap]
  rfl

theorem head_mem_keysOf (s : Step) : s.head.callbackKey ∈ keysOf s :=
  List.mem_map_of_mem (head_mem_entriesOf s)

theorem mem_entriesOf_of_singlesOf {head : StepHead} {action : StepAction}
    (h : (head, action) ∈ singlesOf s) : head ∈ entriesOf s :=
  (singlesOf_sublist_entriesOf s).mem (List.mem_map_of_mem (f := Prod.fst) h)

theorem mem_keysOf_of_singlesOf {head : StepHead} {action : StepAction}
    (h : (head, action) ∈ singlesOf s) : head.callbackKey ∈ keysOf s :=
  List.mem_map_of_mem (mem_entriesOf_of_singlesOf h)

/-- What is found once in what elements stand for is found in one element only, and there once. -/
theorem eq_of_count_flatMap {α β : Type} [BEq β] [LawfulBEq β] {f : α → List β} {xs : List α}
    {b : β} (h : (xs.flatMap f).count b = 1) {x y : α} (hx : x ∈ xs) (hy : y ∈ xs) (hbx : b ∈ f x)
    (hby : b ∈ f y) : x = y ∧ (f x).count b = 1 := by
  obtain ⟨before, after, rfl⟩ := List.append_of_mem hx
  rw [List.flatMap_append, List.flatMap_cons, List.count_append, List.count_append] at h
  have hpos := List.count_pos_iff.mpr hbx
  have hbefore : b ∉ before.flatMap f := List.count_eq_zero.mp (by omega)
  have hafter : b ∉ after.flatMap f := List.count_eq_zero.mp (by omega)
  refine ⟨?_, by omega⟩
  rcases List.mem_append.mp hy with hy | hy
  · exact absurd (List.mem_flatMap_of_mem hy hby) hbefore
  · rcases List.mem_cons.mp hy with rfl | hy
    · rfl
    · exact absurd (List.mem_flatMap_of_mem hy hby) hafter

section

variable {head : StepHead} {action : StepAction}

/-- A group cannot have the key of a step in it, if that key is there once. -/
theorem eq_single_of_key (h : (head, action) ∈ singlesOf s)
    (hcount : (keysOf s).count head.callbackKey = 1)
    (hkey : s.head.callbackKey = head.callbackKey) : s = single head action := by
  cases s with
  | single head' action' =>
    cases List.mem_singleton.mp h
    rfl
  | group head' name members =>
    have hinside : head.callbackKey ∈ members.flatMap keysOf := by
      rw [singlesOf, singles_eq_flatMap] at h
      obtain ⟨m, hm, h⟩ := List.mem_flatMap.mp h
      exact List.mem_flatMap_of_mem hm (mem_keysOf_of_singlesOf h)
    have hpos := List.count_pos_iff.mpr hinside
    have hhead : head'.callbackKey = head.callbackKey := hkey
    rw [keysOf_group, List.count_cons, hhead, beq_self_eq_true, if_pos rfl] at hcount
    omega

/-- Among what a click looks at in a step, only a step itself has a key that is there once. -/
theorem eq_single_of_candidate (h : (head, action) ∈ singlesOf s)
    (hcount : (keysOf s).count head.callbackKey = 1) {t : Step} (ht : t ∈ Click.candidatesOf s)
    (hkey : t.head.callbackKey = head.callbackKey) : t = single head action := by
  cases s with
  | single head' action' =>
    cases List.mem_singleton.mp ht
    exact eq_single_of_key h hcount hkey
  | group head' name members =>
    rw [singlesOf, singles_eq_flatMap] at h
    obtain ⟨m, hm, h⟩ := List.mem_flatMap.mp h
    have hinside := mem_keysOf_of_singlesOf h
    have hpos := List.count_pos_iff.mpr (List.mem_flatMap_of_mem hm hinside)
    rw [keysOf_group, List.count_cons] at hcount
    have hcount' : (members.flatMap keysOf).count head.callbackKey = 1 := by omega
    obtain ⟨rfl, hcount⟩ := eq_of_count_flatMap hcount' hm ht hinside (hkey ▸ head_mem_keysOf t)
    exact eq_single_of_key h hcount hkey

end

end Step

namespace Click

/-- The callback keys of the steps that a row stands for; a row that cannot be read has none. -/
def keysOfRow (row : StepRow) : List String :=
  match Step.parse row.draft with
  | .ok s => s.keysOf
  | .error _ => []

/-- The callback keys of stored steps and of what lies in them. -/
def storedKeys (rows : List StepRow) : List String := rows.flatMap keysOfRow

theorem keysOfRow_of_parse {row : StepRow} {s : Step} (h : Step.parse row.draft = .ok s) :
    keysOfRow row = s.keysOf := by
  simp [keysOfRow, h]

end Click

end Deskflow
