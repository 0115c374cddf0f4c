import Deskflow.Proofs.StepKeys

/-!
# Places in groups

A member of a group answers clicks under a key of its own, which tells its place: the id of the
outermost group, and for each group on the way down the index of an entry in the list as it is
stored. An entry that is no object is passed over and keeps its index; an id that an entry gives
itself has no part in the key.

The keys are made by `group_member_id` while `_parse_group_steps` goes through the list.

* `keyAt_injective`: no two paths are spelled alike, whatever the id before them looks like.
* `mem_entries_iff`: the members at every depth are the entries at the paths.
* `nodup_keysOf`: no key is there twice.
* `keysOf_relabel`: an id of an entry's own changes no key.
* `exists_ofConfig_iff`: which groups are read.

## The result

* `members_known_by_place`: all of this of a stored group.
-/

namespace Deskflow

/-! ## Paths and keys -/

/-- How a path of indices is spelled in a key. -/
def spelled : List Nat → String
  | [] => ""
  | index :: path => "-s" ++ Decimal.digitText index ++ spelled path

/-- The key at a path below a step. -/
def keyAt (root : String) (path : List Nat) : String := root ++ spelled path

theorem spelled_cons_toList (index : Nat) (path : List Nat) :
    (spelled (index :: path)).toList
      = '-' :: 's' :: ((Decimal.digitText index).toList ++ (spelled path).toList) := by
  simp [spelled, String.toList_append]

/-- The digits of an index end where the next one is announced. -/
theorem takeWhile_isDigit_spelled (index : Nat) (path : List Nat) :
    ((Decimal.digitText index).toList ++ (spelled path).toList).takeWhile Char.isDigit
      = (Decimal.digitText index).toList := by
  rw [List.takeWhile_append_of_pos fun c => Decimal.isDigit_of_mem_digitText]
  cases path with
  | nil => simp [spelled]
  | cons i path =>
    rw [spelled_cons_toList, List.takeWhile_cons_of_neg (by decide), List.append_nil]

theorem spelled_injective : Function.Injective spelled := by
  intro p
  induction p with
  | nil =>
    intro q h
    cases q with
    | nil => rfl
    | cons j q =>
      have h := congrArg String.toList h
      rw [spelled_cons_toList] at h
      simp [spelled] at h
  | cons i p ih =>
    intro q h
    have h := congrArg String.toList h
    cases q with
    | nil =>
      rw [spelled_cons_toList] at h
      simp [spelled] at h
    | cons j q =>
      rw [spelled_cons_toList, spelled_cons_toList] at h
      have h : (Decimal.digitText i).toList ++ (spelled p).toList
          = (Decimal.digitText j).toList ++ (spelled q).toList := by simpa using h
      have hdigits := congrArg (List.takeWhile Char.isDigit) h
      rw [takeWhile_isDigit_spelled, takeWhile_isDigit_spelled] at hdigits
      obtain rfl : i = j := Decimal.digitText_injective (String.toList_injective hdigits)
      obtain rfl : p = q := ih (String.toList_injective (List.append_cancel_left h))
      rfl

theorem keyAt_nil (root : String) : keyAt root [] = root := by simp [keyAt, spelled]

theorem keyAt_cons (root : String) (index : Nat) (path : List Nat) :
    keyAt root (index :: path) = keyAt (memberKey root index) path := by
  simp [keyAt, memberKey, spelled, String.append_assoc]

theorem keyAt_concat (root : String) (path : List Nat) (index : Nat) :
    keyAt root (path ++ [index]) = memberKey (keyAt root path) index := by
  induction path generalizing root with
  | nil => rw [List.nil_append, keyAt_cons, keyAt_nil, keyAt_nil]
  | cons i path ih => rw [List.cons_append, keyAt_cons, ih, keyAt_cons]

/-- No two paths below a step have one key, whatever the step's id looks like. -/
theorem keyAt_injective (root : String) : Function.Injective (keyAt root) := by
  intro p q h
  refine spelled_injective (String.toList_injective ?_)
  have h := congrArg String.toList h
  rw [keyAt, keyAt, String.toList_append, String.toList_append] at h
  exact List.append_cancel_left h

/-! ## Changes in records -/

/-- A record with the value of a field changed, if it has that field. -/
def Record.adjust : Record → String → (Value → Value) → Record
  | [], _, _ => []
  | (n, v) :: r, name, f => (n, if name == n then f v else v) :: adjust r name f

/-- An object with its fields changed; any other value stays as it is. -/
def Value.onFields (f : Record → Record) : Value → Value
  | .object r => .object (f r)
  | v => v

/-- A list with its items changed; any other value stays as it is. -/
def Value.onItems (f : List Value → List Value) : Value → Value
  | .list items => .list (f items)
  | v => v

theorem Record.getD_adjust_self (r : Record) (name : String) {f : Value → Value}
    (hf : f .null = .null) : (r.adjust name f).getD name = f (r.getD name) := by
  induction r with
  | nil => exact hf.symm
  | cons field r ih =>
    obtain ⟨n, v⟩ := field
    rw [adjust, getD_cons, getD_cons, ih]
    cases name == n <;> rfl

theorem Record.getD_adjust_ne (r : Record) {name other : String} (f : Value → Value)
    (h : other ≠ name) : (r.adjust name f).getD other = r.getD other := by
  induction r with
  | nil => rfl
  | cons field r ih =>
    obtain ⟨n, v⟩ := field
    rw [adjust, getD_cons, getD_cons, ih]
    by_cases hn : name = n
    · simp [← hn, h]
    · simp [hn]

namespace Step

/-! ## The members at every depth -/

/-- The entry at a path of indices, each of them an index in a list as it is stored: through the
entries that ask for a group, and the settings of these. -/
def placeAt? : Value → List Nat → Option Record
  | _, [] => none
  | config, [index] => place? config index
  | config, index :: path => do
    let fields ← place? config index
    if entryKind fields = groupKind then placeAt? (fields.getD "config") path else none

theorem placeAt?_cons_eq_some {path : List Nat} (hpath : path ≠ []) {config : Value}
    {index : Nat} {fields : Record} :
    placeAt? config (index :: path) = some fields ↔ ∃ outer, place? config index = some outer
      ∧ entryKind outer = groupKind ∧ placeAt? (outer.getD "config") path = some fields := by
  have hread : placeAt? config (index :: path) = (place? config index).bind fun outer =>
      if entryKind outer = groupKind then placeAt? (outer.getD "config") path else none := by
    cases path with
    | nil => exact absurd rfl hpath
    | cons i path => rfl
  rw [hread, Option.bind_eq_some_iff]
  simp only [Option.ite_none_right_eq_some]

/-- A head is that of the member at a path below a group. -/
def Placed (root : String) (config : Value) (h : StepHead) : Prop :=
  ∃ path index fields, placeAt? config (path ++ [index]) = some fields
    ∧ h = memberHead (keyAt root path) index fields

/-- A member of a group is that of an entry, or lies in the group that an entry asks for. -/
theorem placed_iff {root : String} {config : Value} {h : StepHead} :
    Placed root config h ↔ ∃ index fields, place? config index = some fields
      ∧ (h = memberHead root index fields
        ∨ entryKind fields = groupKind
          ∧ Placed (memberKey root index) (fields.getD "config") h) := by
  constructor
  · rintro ⟨path, index, fields, hentry, rfl⟩
    cases path with
    | nil => exact ⟨index, fields, hentry, .inl (by rw [keyAt_nil])⟩
    | cons i path =>
      obtain ⟨outer, houter, hkind, hentry⟩ := (placeAt?_cons_eq_some (by simp)).mp hentry
      exact ⟨i, outer, houter, .inr ⟨hkind, path, index, fields, hentry, by rw [keyAt_cons]⟩⟩
  · rintro ⟨index, fields, hentry, rfl | ⟨hkind, path, i, inner, hinner, rfl⟩⟩
    · exact ⟨[], index, fields, hentry, by rw [keyAt_nil]⟩
    · exact ⟨index :: path, i, inner,
        (placeAt?_cons_eq_some (by simp)).mpr ⟨fields, hentry, hkind, hinner⟩,
        by rw [keyAt_cons]⟩

variable {head head' : StepHead} {key name : String} {config : Value} {members : List Step}
  {s : Step}

/-- **The members of a group at every depth are exactly the entries in its settings**, with the
heads that their places give them. -/
theorem mem_entries_iff (config : Value) : ∀ {head head' : StepHead} {key name : String}
    {members : List Step}, ofConfig head key config = .ok (group head' name members) →
      ∀ h, h ∈ entries members ↔ Placed key config h := by
  induction config using settings_induct with
  | step config ih =>
    intro head head' key name members hread h
    -- what one entry stands for is its own head, and for a group what is placed below it
    have hmember : ∀ index fields m, place? config index = some fields →
        member key (index, fields) = .ok m → (h ∈ entriesOf m ↔
          h = memberHead key index fields ∨ entryKind fields = groupKind
            ∧ Placed (memberKey key index) (fields.getD "config") h) := by
      intro index fields m hentry hm
      rcases ofConfig_eq_ok hm with ⟨hkind, name', members', rfl⟩ | ⟨hkind, action, -, rfl⟩
      · rw [entriesOf, List.mem_cons, ih index fields hentry hm h]
        exact or_congr_right (and_iff_right hkind).symm
      · rw [entriesOf, List.mem_singleton]
        exact (or_iff_left fun h => hkind h.1).symm
    have hmapM := mapM_of_ofConfig hread
    rw [entries_eq_flatMap, List.mem_flatMap, placed_iff]
    constructor
    · rintro ⟨m, hm, hh⟩
      obtain ⟨⟨index, fields⟩, hplace, hm⟩ := (mem_iff_of_mapM hmapM).mp hm
      have hentry := mem_placesIn.mp hplace
      exact ⟨index, fields, hentry, (hmember index fields m hentry hm).mp hh⟩
    · rintro ⟨index, fields, hentry, hh⟩
      obtain ⟨m, hm⟩ := exists_mapM_iff.mp ⟨members, hmapM⟩ _ (mem_placesIn.mpr hentry)
      exact ⟨m, (mem_iff_of_mapM hmapM).mpr ⟨_, mem_placesIn.mpr hentry, hm⟩,
        (hmember index fields m hentry hm).mpr hh⟩

/-! ## No key twice -/

/-- The keys of what an entry stands for are spelled through its index. -/
theorem keys_of_member {place : Nat × Record} (hm : member key place = .ok s) {k : String}
    (hk : k ∈ keysOf s) : ∃ path, k = keyAt key (place.1 :: path) := by
  rcases ofConfig_eq_ok hm with ⟨-, name, members, rfl⟩ | ⟨-, action, -, rfl⟩
  · obtain ⟨h, hh, rfl⟩ := List.mem_map.mp hk
    rcases List.mem_cons.mp hh with rfl | hh
    · exact ⟨[], by rw [callbackKey_memberHead, keyAt_cons, keyAt_nil]⟩
    · obtain ⟨path, index, fields, -, rfl⟩ := (mem_entries_iff _ hm h).mp hh
      exact ⟨path ++ [index], by rw [callbackKey_memberHead, keyAt_cons, keyAt_concat]⟩
  · cases List.mem_singleton.mp hk
    exact ⟨[], by rw [callbackKey_memberHead, keyAt_cons, keyAt_nil]⟩

/-- Members with indices in their order share no key, if none has one twice. -/
theorem nodup_keys_of_members {places : List (Nat × Record)}
    (hmapM : places.mapM (member key) = .ok members)
    (hplaces : places.Pairwise fun a b => a.1 < b.1)
    (hnodup : ∀ place ∈ places, ∀ m, member key place = .ok m → (keysOf m).Nodup) :
    (members.flatMap keysOf).Nodup := by
  rw [Fault.mapM_eq_ok] at hmapM
  induction hmapM with
  | nil => exact .nil
  | @cons place m rest ms hm hms ih =>
    obtain ⟨hlater, hrest⟩ := List.pairwise_cons.mp hplaces
    obtain ⟨hfirst, hnodup⟩ := List.forall_mem_cons.mp hnodup
    refine List.nodup_append.mpr ⟨hfirst m hm, ih hrest hnodup, ?_⟩
    rintro k hk _ hk' rfl
    obtain ⟨n, hn, hk'⟩ := List.mem_flatMap.mp hk'
    obtain ⟨other, hother, hn⟩ := (mem_iff_of_mapM (Fault.mapM_eq_ok.mpr hms)).mp hn
    obtain ⟨p, rfl⟩ := keys_of_member hm hk
    obtain ⟨q, hkeys⟩ := keys_of_member hn hk'
    have hindex := hlater other hother
    have := (List.cons.inj (keyAt_injective key hkeys)).1
    omega

/-- **No two of a group and its members at every depth have one key.** -/
theorem nodup_keysOf (config : Value) : ∀ {head : StepHead} {key : String} {s : Step},
    ofConfig head key config = .ok s → head.callbackKey = key → (keysOf s).Nodup := by
  induction config using settings_induct with
  | step config ih =>
    intro head key s hread hkey
    rcases ofConfig_eq_ok hread with ⟨-, name, members, rfl⟩ | ⟨-, action, -, rfl⟩
    · have hmapM := mapM_of_ofConfig hread
      rw [keysOf_group]
      refine List.nodup_cons.mpr ⟨fun hmem => ?_, ?_⟩
      · obtain ⟨m, hm, hmem⟩ := List.mem_flatMap.mp hmem
        obtain ⟨place, -, hm⟩ := (mem_iff_of_mapM hmapM).mp hm
        obtain ⟨path, hpath⟩ := keys_of_member hm hmem
        rw [hkey] at hpath
        cases keyAt_injective key ((keyAt_nil key).trans hpath)
      · refine nodup_keys_of_members hmapM (placesFrom_pairwise 0 _) ?_
        rintro ⟨index, fields⟩ hplace m hm
        exact ih index fields (mem_placesIn.mp hplace) hm (callbackKey_memberHead _ _ _)
    · exact List.pairwise_singleton _ _

/-! ## Relabelling -/

/-- The settings of a group with the fields of the entry at an index changed. -/
def withEntry (index : Nat) (f : Record → Record) (config : Value) : Value :=
  config.onFields fun fields =>
    fields.adjust "steps" (Value.onItems fun items => items.modify index (Value.onFields f))

/-- An entry with an id of its own, or with none. -/
def labelled (id : Option Value) (fields : Record) : Record :=
  match id with
  | some v => fields.put "step_id" v
  | none => fields.erase "step_id"

/-- The settings of a group in which the entry at a path has an id of its own, or has none. -/
def relabel (id : Option Value) : List Nat → Value → Value
  | [], config => config
  | [index], config => withEntry index (labelled id) config
  | index :: path, config =>
    withEntry index
      (fun fields => if entryKind fields = groupKind then
        fields.adjust "config" (relabel id path) else fields) config

theorem listed_withEntry (index : Nat) (f : Record → Record) (config : Value) :
    listed (withEntry index f config) = (listed config).modify index (Value.onFields f) := by
  cases config with
  | object fields =>
    have hsteps := Record.getD_adjust_self fields "steps"
      (f := Value.onItems fun items => items.modify index (Value.onFields f)) rfl
    show (Record.getD (Record.adjust fields "steps" _) "steps").listItems
      = (Record.getD fields "steps").listItems.modify index _
    rw [hsteps]
    cases Record.getD fields "steps" <;> simp [Value.onItems, Value.listItems]
  | _ => simp [withEntry, Value.onFields, listed, Value.fields, Record.getD, Value.listItems]

theorem placesFrom_modify (f : Record → Record) (index start : Nat) (items : List Value) :
    placesFrom start (items.modify index (Value.onFields f))
      = (placesFrom start items).map fun place =>
          if place.1 = start + index then (place.1, f place.2) else place := by
  induction items generalizing index start with
  | nil => simp [placesFrom]
  | cons v rest ih =>
    cases index with
    | zero =>
      -- the other entries come later
      have hlater : (placesFrom (start + 1) rest).map (fun place =>
          if place.1 = start + 0 then (place.1, f place.2) else place)
            = placesFrom (start + 1) rest := by
        refine (List.map_congr_left fun place hplace => ?_).trans (List.map_id _)
        obtain ⟨index, fields⟩ := place
        have := (mem_placesFrom.mp hplace).1
        exact if_neg (show ¬index = start + 0 by omega)
      rw [List.modify_zero_cons]
      cases v with
      | object fields =>
        rw [Value.onFields, placesFrom, placesFrom, List.map_cons, hlater]
        simp
      | _ => exact hlater.symm
    | succ index =>
      have hrest := ih index (start + 1)
      rw [show start + 1 + index = start + (index + 1) by omega] at hrest
      rw [List.modify_succ_cons]
      cases v with
      | object fields =>
        rw [placesFrom, placesFrom, List.map_cons, hrest]
        simp
      | _ => exact hrest

theorem placesIn_withEntry (index : Nat) (f : Record → Record) (config : Value) :
    placesIn (withEntry index f config) = (placesIn config).map fun place =>
      if place.1 = index then (place.1, f place.2) else place := by
  rw [placesIn, listed_withEntry, placesFrom_modify, Nat.zero_add, placesIn]

/-- The keys of a group are its own and those of its members, -/
theorem keysOf_ofConfig_group (h : head.kind = groupKind) :
    keysOf <$> ofConfig head key config
      = (fun keys : List (List String) => head.callbackKey :: keys.flatten)
        <$> (placesIn config).mapM fun place => keysOf <$> member key place := by
  have hmembers : ∀ places : List (Nat × Record),
      (places.mapM fun place => keysOf <$> member key place)
        = List.map keysOf <$> places.mapM (member key) := by
    intro places
    induction places with
    | nil => rfl
    | cons place rest ih =>
      rw [List.mapM_cons, List.mapM_cons, ih]
      simp only [bind_map_left, map_bind, map_pure, List.map_cons]
  rw [ofConfig_of_group h, hmembers, Functor.map_map, Functor.map_map]
  congr 1
  funext ms
  rw [keysOf_group, List.flatMap_def]

/-- and do not depend on what else is known of it. -/
theorem keysOf_ofConfig_congr (hkind : head'.kind = head.kind)
    (hkey : head'.callbackKey = head.callbackKey) :
    keysOf <$> ofConfig head' key config = keysOf <$> ofConfig head key config := by
  by_cases h : head.kind = groupKind
  · rw [keysOf_ofConfig_group h, keysOf_ofConfig_group (hkind.trans h), hkey]
  · rw [ofConfig_of_single h, ofConfig_of_single (hkind ▸ h), Functor.map_map, Functor.map_map,
      hkind]
    congr 1
    funext action
    exact congrArg (fun k => [k]) hkey

/-- A change in an entry that leaves the keys of its member leaves all keys of the group. -/
theorem keysOf_withEntry {index : Nat} {f : Record → Record} (h : head.kind = groupKind)
    (hf : ∀ fields, keysOf <$> member key (index, f fields)
      = keysOf <$> member key (index, fields)) :
    keysOf <$> ofConfig head key (withEntry index f config)
      = keysOf <$> ofConfig head key config := by
  rw [keysOf_ofConfig_group h, keysOf_ofConfig_group h, placesIn_withEntry, List.mapM_map]
  congr 2
  funext place
  obtain ⟨i, fields⟩ := place
  by_cases hi : i = index
  · subst hi
    simpa using hf fields
  · simp [hi]

theorem getD_labelled_ne (id : Option Value) (fields : Record) {name : String}
    (h : name ≠ "step_id") : (labelled id fields).getD name = fields.getD name := by
  cases id with
  | none => exact Record.getD_erase_ne fields h
  | some v => exact Record.getD_put_ne fields v h

theorem keysOf_labelled (id : Option Value) (index : Nat) (fields : Record) :
    keysOf <$> member key (index, labelled id fields) = keysOf <$> member key (index, fields) := by
  unfold member
  dsimp only
  rw [getD_labelled_ne id fields (by decide)]
  refine keysOf_ofConfig_congr ?_ ?_
  · rw [kind_memberHead, kind_memberHead, entryKind, getD_labelled_ne id fields (by decide),
      entryKind]
  · rw [callbackKey_memberHead, callbackKey_memberHead]

theorem relabel_null (id : Option Value) : ∀ path, relabel id path .null = .null
  | [] => rfl
  | [_] => rfl
  | _ :: _ :: _ => rfl

/-- **An id of its own changes no key**, wherever in a group an entry has one. -/
theorem keysOf_relabel (id : Option Value) : ∀ (path : List Nat) {head : StepHead} {key : String}
    {config : Value}, head.kind = groupKind →
      keysOf <$> ofConfig head key (relabel id path config) = keysOf <$> ofConfig head key config
  | [], _, _, _, _ => rfl
  | [index], _, _, _, h => keysOf_withEntry h (keysOf_labelled id index)
  | index :: i :: path, head, key, config, h => by
    refine keysOf_withEntry h fun fields => ?_
    split
    · rename_i hkind
      have hadjusted := Record.getD_adjust_self fields "config" (relabel_null id (i :: path))
      have hkind' : entryKind (fields.adjust "config" (relabel id (i :: path)))
          = entryKind fields := by
        rw [entryKind, Record.getD_adjust_ne fields _ (by decide), entryKind]
      unfold member
      dsimp only
      rw [hadjusted, keysOf_relabel id (i :: path) (hkind'.trans hkind)]
      refine keysOf_ofConfig_congr hkind' ?_
      rw [callbackKey_memberHead, callbackKey_memberHead]
    · rfl

/-- A stored group in which entries were relabelled one after another. -/
def relabelled (changes : List (List Nat × Option Value)) (d : StepDraft) : StepDraft :=
  { d with
    config := changes.foldl (fun config change => relabel change.2 change.1 config) d.config }

theorem keysOf_relabelled {d : StepDraft} (hkind : d.kind = groupKind)
    (changes : List (List Nat × Option Value)) :
    keysOf <$> parse (relabelled changes d) = keysOf <$> parse d := by
  induction changes generalizing d with
  | nil => rfl
  | cons change rest ih =>
    let first : StepDraft := { d with config := relabel change.2 change.1 d.config }
    calc keysOf <$> parse (relabelled rest first)
        = keysOf <$> parse first := ih hkind
      _ = keysOf <$> parse d := keysOf_relabel change.2 change.1 hkind

/-! ## Which groups are read -/

/-- The settings in the entries of a group that ask for no group can be read. -/
def Readable (config : Value) : Prop :=
  ∀ path fields, placeAt? config path = some fields → entryKind fields ≠ groupKind →
    ∃ action, StepAction.parse (entryKind fields) (fields.getD "config").fields = .ok action

theorem readable_iff {config : Value} :
    Readable config ↔ ∀ index fields, place? config index = some fields →
      (entryKind fields ≠ groupKind → ∃ action,
        StepAction.parse (entryKind fields) (fields.getD "config").fields = .ok action)
      ∧ (entryKind fields = groupKind → Readable (fields.getD "config")) := by
  constructor
  · intro h index fields hentry
    refine ⟨h [index] fields hentry, fun hkind path inner hinner => ?_⟩
    cases path with
    | nil => cases hinner
    | cons i path =>
      exact h (index :: i :: path) inner
        ((placeAt?_cons_eq_some (by simp)).mpr ⟨fields, hentry, hkind, hinner⟩)
  · intro h path fields hentry hsingle
    match path, hentry with
    | [index], hentry => exact (h index fields hentry).1 hsingle
    | index :: i :: path, hentry =>
      obtain ⟨outer, houter, hkind, hentry⟩ := (placeAt?_cons_eq_some (by simp)).mp hentry
      exact (h index outer houter).2 hkind _ fields hentry hsingle

/-- A group is read just where the single steps at every depth can be; what is no entry does no
harm. -/
theorem exists_ofConfig_iff (config : Value) : ∀ {head : StepHead} {key : String},
    head.kind = groupKind → ((∃ s, ofConfig head key config = .ok s) ↔ Readable config) := by
  induction config using settings_induct with
  | step config ih =>
    intro head key hkind
    rw [ofConfig_of_group hkind, Fault.exists_map_ok, exists_mapM_iff, readable_iff]
    have hmember : ∀ index fields, place? config index = some fields →
        ((∃ m, member key (index, fields) = .ok m) ↔
          (entryKind fields ≠ groupKind → ∃ action,
            StepAction.parse (entryKind fields) (fields.getD "config").fields = .ok action)
          ∧ (entryKind fields = groupKind → Readable (fields.getD "config"))) := by
      intro index fields hentry
      by_cases hentryKind : entryKind fields = groupKind
      · have hinner : (∃ m, member key (index, fields) = .ok m)
            ↔ Readable (fields.getD "config") := ih index fields hentry hentryKind
        simpa [hentryKind] using hinner
      · rw [member, ofConfig_of_single hentryKind, Fault.exists_map_ok]
        simp [hentryKind]
    constructor
    · exact fun h index fields hentry =>
        (hmember index fields hentry).mp (h _ (mem_placesIn.mpr hentry))
    · rintro h ⟨index, fields⟩ hplace
      have hentry := mem_placesIn.mp hplace
      exact (hmember index fields hentry).mpr (h index fields hentry)

/-! ## The result -/

/-- How a stored group and its members at every depth are known. -/
structure KnownByPlace (d : StepDraft) (head : StepHead) (members : List Step) : Prop where
  /-- The key of the group is its own id. -/
  own : head.callbackKey = idOf d
  /-- No two of them have one key, and no member has the group's. -/
  distinct : (head.callbackKey :: (entries members).map StepHead.callbackKey).Nodup
  /-- The members are exactly the entries at the paths through the lists as they are stored, each
  with the key of its path. -/
  places : ∀ h, h ∈ entries members ↔ ∃ path index fields,
    placeAt? d.config (path ++ [index]) = some fields
      ∧ h = memberHead (keyAt (idOf d) path) index fields
      ∧ h.callbackKey = keyAt (idOf d) (path ++ [index])

/-- **The members of a group are known by their places.** A group is read just where the single
steps in it can be, whatever else is listed in it. Its members have the keys of their paths, and
these are all different; and entries that are given ids of their own, or are left without, in
whatever order, change no key. -/
theorem members_known_by_place {d : StepDraft} (hkind : d.kind = groupKind) :
    ((∃ s, parse d = .ok s) ↔ Readable d.config)
      ∧ (∀ s, parse d = .ok s → ∃ head name members,
        s = .group head name members ∧ KnownByPlace d head members)
      ∧ ∀ changes, keysOf <$> parse (relabelled changes d) = keysOf <$> parse d := by
  refine ⟨exists_ofConfig_iff _ hkind, fun s hs => ?_, keysOf_relabelled hkind⟩
  obtain ⟨head, name, members, rfl⟩ := group_of_parse hs hkind
  have hown : head.callbackKey = idOf d := callbackKey_of_parse hs
  refine ⟨head, name, members, rfl, hown, ?_, fun h => ?_⟩
  · refine nodup_keysOf d.config hs ?_
    rw [← head_of_ofConfig hs]
    exact hown
  · rw [mem_entries_iff d.config hs]
    constructor
    · rintro ⟨path, index, fields, hentry, rfl⟩
      exact ⟨path, index, fields, hentry, rfl, by rw [callbackKey_memberHead, keyAt_concat]⟩
    · rintro ⟨path, index, fields, hentry, rfl, -⟩
      exact ⟨path, index, fields, hentry, rfl⟩

/-! ### A catalogue -/

/-- A group whose id looks like the key of a member: it lists a text, a group and a step, and the
group in it lists nothing and a step that calls itself by the outermost id. -/
def catalogue : StepDraft where
  id := some 1
  stepId := some "menu-s1"
  kind := groupKind
  config := .object [("steps", .list [.str "?",
    .object [("type", .str groupKind), ("config", .object [("steps",
      .list [.null, .object [("step_id", .str "menu-s1")]])])],
    .object [("type", .str "close_conversation")]])]
  order := none
  nextStepId := none
  trueStepId := none
  falseStepId := none

/-- The ids in the catalogue can be changed, and the keys in it remain. -/
theorem members_known_by_place_catalogue :
    catalogue.kind = groupKind ∧ ∃ head name members,
      parse catalogue = .ok (.group head name members) ∧ KnownByPlace catalogue head members
        ∧ keysOf <$> parse (relabelled [([1, 1], none), ([1], some (.str "offers"))] catalogue)
          = .ok ["menu-s1", "menu-s1-s1", "menu-s1-s1-s1", "menu-s1-s2"] := by
  obtain ⟨-, hplaces, hsame⟩ := members_known_by_place (d := catalogue) rfl
  have hread : ∃ s, parse catalogue = .ok s
      ∧ keysOf s = ["menu-s1", "menu-s1-s1", "menu-s1-s1-s1", "menu-s1-s2"] := ⟨_, rfl, rfl⟩
  obtain ⟨s, hs, hkeys⟩ := hread
  obtain ⟨head, name, members, rfl, hknown⟩ := hplaces s hs
  refine ⟨rfl, head, name, members, hs, hknown, ?_⟩
  rw [hsame, hs]
  exact congrArg Except.ok hkeys

end Step

end Deskflow
