import Deskflow.Proofs.TagSets
import Mathlib.Data.List.DropRight

/-!
# Which tags a step is about

A step that changes tags names them by ids and, for the case that none of these exists any more, by
a name. Where it attaches tags and nothing that it names exists, it makes a tag of the name; to
detach, or to attach by ids alone, never makes one. So a name is given only where no tag has it, and
a step that is carried out once more finds what it made.

Only positive ids count as ids. A tag of another id, which a desk does not give of its own, is found
and made by its name all the same, but never attached or detached.

The tags are those that `_target_tags` finds, for `_add_tag` and `_remove_tag`.

* `run_targetTags`: the tags that are found, and the one that is made.
* `run_relabel`: what becomes of the tags that are named.
* `enriches_handle`: whatever happens at the desk, tags are only added, under new names.
* `targets_exactly`: the result.
-/

namespace Deskflow

/-! ## Names -/

namespace Text

/-- What was trimmed stays as it is when it is trimmed again. -/
theorem trimBy_trimBy (p : Char → Bool) (cs : List Char) :
    trimBy p (trimBy p cs) = trimBy p cs := by
  have hstart : ((cs.dropWhile p).rdropWhile p).dropWhile p = (cs.dropWhile p).rdropWhile p := by
    refine List.dropWhile_eq_self_iff.mpr fun hlength => ?_
    have hfront := List.rdropWhile_prefix p (cs.dropWhile p)
    rw [hfront.getElem hlength]
    exact List.dropWhile_get_zero_not p cs (lt_of_lt_of_le hlength hfront.length_le)
  change (((cs.dropWhile p).rdropWhile p).dropWhile p).rdropWhile p
    = (cs.dropWhile p).rdropWhile p
  rw [hstart]
  exact List.rdropWhile_idempotent p _

theorem trim_trim (s : String) : trim (trim s) = trim s := by
  rw [trim, trim, String.toList_ofList, trimBy_trimBy]

end Text

/-- A name that is given is trimmed and not empty. -/
theorem Value.trim_of_trimmedText? {v : Value} {name : String} (h : v.trimmedText? = some name) :
    Text.trim name = name ∧ name ≠ "" := by
  unfold trimmedText? at h
  split at h
  · cases h
  · dsimp only at h
    split at h
    · cases h
    · rename_i hne
      cases h
      exact ⟨Text.trim_trim _, hne⟩

/-! ## What the settings of a step name -/

/-- The values that name the tags of a step by their ids: those of its list, and the single one. -/
def namingValues (config : Record) : List Value :=
  (config.getD "tag_ids").listItems ++ [config.getD "tag_id"]

namespace Value

/-- What does not count as given stands for zero, if for an integer at all. -/
theorem toInt_of_not_isGiven {v : Value} (h : v.isGiven = false) :
    v.toInt ≠ .error .infiniteNumber ∧ ∀ n, v.toInt = .ok n → n = 0 := by
  cases v with
  | null => simp [toInt]
  | bool b => simp_all [isGiven, toInt]
  | int n => simp_all [isGiven, toInt]
  | float x =>
    obtain ⟨hexponent, hfraction⟩ : x.exponentField = 0 ∧ x.fractionField = 0 := by
      simpa [isGiven, Binary64.isZero] using h
    have htruncate : x.truncate = 0 := by
      simp [Binary64.truncate, Binary64.significand, hexponent, hfraction]
    simp [toInt, Binary64.isNaN, Binary64.isInfinite, hexponent, htruncate]
  | str s =>
    obtain rfl : s = "" := by simpa [isGiven] using h
    have hempty : (Value.str "").toInt = .error (.malformedNumeral "") := by rfl
    simp [hempty]
  | list items => simp [toInt]
  | object fields => simp [toInt]

theorem ids_of_not_isGiven {v : Value} (h : v.isGiven = false) : ids [v] = ∅ := by
  ext n
  simp only [mem_ids, List.mem_singleton, exists_eq_left, Set.mem_empty_iff_false, iff_false,
    not_and]
  intro hpositive hv
  have := (toInt_of_not_isGiven h).2 n hv
  omega

theorem not_isGiven_of_isLeftOut {v : Value} (h : v.isLeftOut = true) : v.isGiven = false := by
  cases v <;> simp_all [isLeftOut, isGiven]

end Value

/-- The tags of a step are those that its settings name. -/
structure TagTargets.NamedBy (targets : TagTargets) (config : Record) : Prop where
  read : tagIdsIn config = .ok targets.ids
  name : targets.name = (config.getD "tag_name").trimmedText?

theorem namedBy_of_tagTargetsIn {config : Record} {targets : TagTargets}
    (h : tagTargetsIn config = .ok targets) : targets.NamedBy config := by
  obtain ⟨ids, hids, h⟩ := Fault.bind_eq_ok.mp h
  cases h
  exact ⟨hids, rfl⟩

theorem TagTargets.NamedBy.mem_ids {config : Record} {targets : TagTargets}
    (h : targets.NamedBy config) {id : Int} :
    id ∈ targets.ids ↔ id ∈ Value.ids (namingValues config) := by
  rw [mem_distinctIds h.read, namingValues, Value.mem_ids_append, Value.mem_ids_append]
  refine or_congr_right ?_
  split
  · rename_i hleft
    rw [Value.ids_of_not_isGiven (Value.not_isGiven_of_isLeftOut hleft)]
    simp [Value.mem_ids]
  · exact Iff.rfl

/-- The word for the steps, and for the actions of buttons, that attach tags or, with `remove`,
detach them. -/
def deed (remove : Bool) : String := if remove then "remove_tag" else "add_tag"

/-- The event that this is. -/
def tagEvent (remove : Bool) : EventKind := if remove then .tagRemoved else .tagAdded

@[simp] theorem tagEvent_eq_tagRemoved (remove : Bool) :
    decide (tagEvent remove = .tagRemoved) = remove := by
  cases remove <;> rfl

/-! ## The tags that are found and made -/

namespace Store

/-- The tag of a name, if there is one. -/
def tagNamed? (s : Store) (name : String) : Option Tag := s.tags.find? fun t => t.name == name

/-- The tags that are there for a step: those of its ids, and if there are none, the one of its
name. -/
def targeted (s : Store) (targets : TagTargets) : List Tag :=
  if s.tagsAmong targets.ids = [] then (targets.name.bind s.tagNamed?).toList
  else s.tagsAmong targets.ids

/-- The tag that is made of a name. -/
def coinage (s : Store) (name : String) : Tag :=
  { id := s.nextId Tag, name, color := some (Tagging.defaultColor name) }

/-- The tag that is made for a step: one of its name, if there is none for it. -/
def made? (s : Store) (create : Bool) (targets : TagTargets) : Option Tag :=
  if create = true ∧ s.targeted targets = [] then targets.name.map s.coinage else none

/-- The store with a tag that was made. -/
def coined (s : Store) (made : Option Tag) : Store := { s with tags := s.tags ++ made.toList }

/-- The same tags, attached to the same clients. -/
structure SameLabels (s t : Store) : Prop where
  tags : t.tags = s.tags
  memberships : t.memberships = s.memberships

theorem SameLabels.carried {s t : Store} (h : s.SameLabels t) (n : Int) :
    t.carried n = s.carried n := by
  ext id
  rw [mem_carried_iff, mem_carried_iff, tagIds, tagIds, h.tags, h.memberships]

theorem coined_none (s : Store) : s.coined none = s := by simp [coined]

variable {s u : Store} {create : Bool} {targets : TagTargets} {ids : List Int} {name : String}
  {t : Tag}

theorem tagsAmong_eq_nil : s.tagsAmong ids = [] ↔ ∀ t ∈ s.tags, t.id ∉ ids := by
  simp [tagsAmong]

theorem tagNamed?_eq_none : s.tagNamed? name = none ↔ ∀ t ∈ s.tags, t.name ≠ name := by
  simp [tagNamed?]

theorem tagNamed?_eq_some (names : (s.tags.map Tag.name).Nodup) :
    s.tagNamed? name = some t ↔ t ∈ s.tags ∧ t.name = name := by
  constructor
  · intro h
    exact ⟨List.mem_of_find?_eq_some h, by simpa using List.find?_some h⟩
  · rintro ⟨ht, hname⟩
    cases hfound : s.tagNamed? name with
    | none => exact absurd hname (tagNamed?_eq_none.mp hfound t ht)
    | some found =>
      have hsame : found.name = t.name := by
        rw [hname]
        simpa using List.find?_some hfound
      rw [List.inj_on_of_nodup_map names (List.mem_of_find?_eq_some hfound) ht hsame]

/-- **Which tags are there for a step.** -/
theorem mem_targeted (names : (s.tags.map Tag.name).Nodup) :
    t ∈ s.targeted targets ↔ t ∈ s.tags ∧
      (t.id ∈ targets.ids ∨ (∀ u ∈ s.tags, u.id ∉ targets.ids) ∧ targets.name = some t.name) := by
  unfold targeted
  split
  · rename_i hnone
    have hnone := tagsAmong_eq_nil.mp hnone
    simp only [Option.mem_toList, Option.bind_eq_some_iff, tagNamed?_eq_some names]
    constructor
    · rintro ⟨name, hname, ht, rfl⟩
      exact ⟨ht, .inr ⟨hnone, hname⟩⟩
    · rintro ⟨ht, hid | ⟨-, hname⟩⟩
      · exact absurd hid (hnone t ht)
      · exact ⟨t.name, hname, ht, rfl⟩
  · rename_i hsome
    rw [mem_tagsAmong]
    refine and_congr_right fun _ => ⟨.inl, ?_⟩
    rintro (hid | ⟨hnone, -⟩)
    · exact hid
    · exact absurd (tagsAmong_eq_nil.mpr hnone) hsome

/-- There is none where no id exists and no tag has the name. -/
theorem targeted_eq_nil : s.targeted targets = [] ↔ (∀ u ∈ s.tags, u.id ∉ targets.ids) ∧
    ∀ name, targets.name = some name → ∀ u ∈ s.tags, u.name ≠ name := by
  unfold targeted
  split
  · rename_i hnone
    simp only [Option.toList_eq_nil_iff, Option.bind_eq_none_iff, tagNamed?_eq_none]
    exact (and_iff_right (tagsAmong_eq_nil.mp hnone)).symm
  · rename_i hsome
    simp only [hsome, false_iff, not_and]
    exact fun hnone => absurd (tagsAmong_eq_nil.mpr hnone) hsome

/-- **Which tag is made for a step.** -/
theorem made?_eq_some : s.made? create targets = some t ↔
    create = true ∧ (∀ u ∈ s.tags, u.id ∉ targets.ids)
      ∧ targets.name = some t.name ∧ (∀ u ∈ s.tags, u.name ≠ t.name) ∧ t = s.coinage t.name := by
  unfold made?
  constructor
  · intro h
    split at h
    · rename_i hmakes
      obtain ⟨hids, hnew⟩ := targeted_eq_nil.mp hmakes.2
      obtain ⟨name, hname, rfl⟩ := Option.map_eq_some_iff.mp h
      exact ⟨hmakes.1, hids, hname, hnew name hname, rfl⟩
    · cases h
  · rintro ⟨hcreate, hids, hname, hnew, ht⟩
    have hnone : s.targeted targets = [] := targeted_eq_nil.mpr ⟨hids, fun name hgiven => by
      cases hname.symm.trans hgiven
      exact hnew⟩
    rw [if_pos ⟨hcreate, hnone⟩, hname, Option.map_some, ← ht]

/-- Names stay unique with a new one, -/
theorem nodup_names_concat (names : (s.tags.map Tag.name).Nodup)
    (hnew : ∀ u ∈ s.tags, u.name ≠ t.name) : ((s.tags ++ [t]).map Tag.name).Nodup := by
  rw [List.map_append]
  refine List.nodup_append.mpr ⟨names, List.nodup_singleton _, fun a ha b hb => ?_⟩
  obtain ⟨u, hu, rfl⟩ := List.mem_map.mp ha
  cases List.mem_singleton.mp hb
  exact hnew u hu

theorem names_coined (names : (s.tags.map Tag.name).Nodup) :
    ((s.coined (s.made? create targets)).tags.map Tag.name).Nodup := by
  rw [coined]
  cases hmade : s.made? create targets with
  | none => simpa using names
  | some t =>
    obtain ⟨-, -, -, hnew, -⟩ := made?_eq_some.mp hmade
    exact nodup_names_concat names hnew

/-- and so do the ids, which ascend. -/
theorem sorted_coined (sorted : s.tags.Pairwise fun a b => a.id < b.id) :
    (s.coined (s.made? create targets)).tags.Pairwise fun a b => a.id < b.id := by
  rw [coined]
  cases hmade : s.made? create targets with
  | none => simpa using sorted
  | some t =>
    obtain ⟨-, -, -, -, ht⟩ := made?_eq_some.mp hmade
    refine List.pairwise_append.mpr ⟨sorted, List.pairwise_singleton _ _, fun a ha b hb => ?_⟩
    cases List.mem_singleton.mp hb
    rw [ht]
    exact id_lt_nextId (ρ := Tag) ha

theorem targeted_subset : s.targeted targets ⊆ s.tags := by
  intro t ht
  unfold targeted at ht
  split at ht
  · obtain ⟨name, -, hname⟩ := Option.bind_eq_some_iff.mp (Option.mem_toList.mp ht)
    exact List.mem_of_find?_eq_some hname
  · exact (mem_tagsAmong.mp ht).1

/-- A tag that is made gets the next id, and the others have smaller ones. -/
theorem id_le_of_coined (ht : t ∈ (s.coined (s.made? create targets)).tags) :
    t.id ≤ s.nextId Tag := by
  rcases List.mem_append.mp ht with ht | ht
  · exact le_of_lt (id_lt_nextId (ρ := Tag) ht)
  · obtain ⟨-, -, -, -, ht⟩ := made?_eq_some.mp (Option.mem_toList.mp ht)
    rw [ht]
    exact le_refl _

/-- Ids tell tags apart. -/
theorem eq_of_id (sorted : s.tags.Pairwise fun a b => a.id < b.id) (ht : t ∈ s.tags) {v : Tag}
    (hv : v ∈ s.tags) (h : t.id = v.id) : t = v :=
  List.inj_on_of_nodup_map ((List.pairwise_map.mpr sorted).imp ne_of_lt) ht hv h

/-- Where what was made is still there, nothing more is made. -/
theorem made?_of_coined (h : (s.coined (s.made? create targets)).tags ⊆ u.tags) :
    u.made? create targets = none := by
  refine Option.eq_none_iff_forall_ne_some.mpr fun t hmade => ?_
  obtain ⟨hcreate, hids, hname, hnew, -⟩ := made?_eq_some.mp hmade
  have hold : s.tags ⊆ u.tags := List.Subset.trans (List.subset_append_left _ _) h
  have hmade : s.made? create targets = some (s.coinage t.name) := made?_eq_some.mpr
    ⟨hcreate, fun v hv => hids v (hold hv), hname, fun v hv => hnew v (hold hv), rfl⟩
  rw [hmade] at h
  exact hnew (s.coinage t.name) (h (List.mem_append_right _ (List.mem_singleton_self _))) rfl

end Store

namespace Transaction

/-- What was needed is there, -/
theorem table_of_need {t : Table} {s s' : Store} (h : (need t).run s = .ok ((), s')) :
    s.absent.contains t = false := by
  rw [run_need] at h
  split at h
  · cases h
  · rename_i hthere
    simpa using hthere

/-- and so is the table of a row that was loaded. -/
theorem table_of_load {ρ : Type} [Row ρ] {id : Int} {s s' : Store} {r : Option ρ}
    (h : (load ρ id).run s = .ok (r, s')) : s.absent.contains (Row.table ρ) = false := by
  obtain ⟨_, s₁, hneed, -⟩ := run_bind_eq_ok.mp h
  exact table_of_need hneed

end Transaction

namespace Tagging

open Transaction

variable {s : Store} {name : String}

/-- A tag is added. -/
theorem run_add_coinage (table : s.absent.contains .tags = false) (name : String) :
    (add { id := 0, name, color := some (defaultColor name) }).run s
      = .ok (s.coinage name, s.coined (some (s.coinage name))) := by
  rw [run_add_of_table _ table]
  refine congrArg (fun tags => Except.ok (s.coinage name, { s with tags })) ?_
  exact Store.rows_insert_nextId s ({ id := 0, name, color := some (defaultColor name) } : Tag)

/-- **How a tag is found by its name, or made.** -/
theorem run_resolve (create : Bool) (table : s.absent.contains .tags = false)
    (trimmed : Text.trim name = name) (hne : name ≠ "") : (resolve .null (some name) create).run s =
      match s.tagNamed? name with
      | some tag => .ok (some tag, s)
      | none =>
        if create then .ok (some (s.coinage name), s.coined (some (s.coinage name)))
        else .ok (none, s) := by
  have hid : (byId? .null).run s = .ok (none, s) := rfl
  have hrows : (rows Tag).run s = .ok (s.tags, s) := run_rows_eq_ok.mpr ⟨table, rfl, rfl⟩
  refine (run_bind_of_ok hid).trans ?_
  dsimp only [Option.getD_some]
  rw [trimmed, if_neg hne]
  refine (run_bind_of_ok hrows).trans ?_
  change (match s.tagNamed? name with
    | some tag => _
    | none => _ : Transaction (Option Tag)).run s = _
  cases s.tagNamed? name with
  | some tag => rfl
  | none =>
    cases create with
    | false => rfl
    | true => exact run_bind_of_ok (run_add_coinage table name)

end Tagging

/-! ## How a step goes -/

namespace Engine

open Work

variable {w : World} {remove create : Bool} {config : Record} {targets : TagTargets}

theorem runOn_query_ok {α : Type} {t : Transaction α} {a : α} {s : Store}
    (h : t.run w.store = .ok (a, s)) : (query t).runOn w = (.ok a, { w with store := s }) :=
  runOn_query_eq_ok.mpr ⟨s, h, rfl⟩

theorem runOn_bind_ok {α β : Type} {x : Work α} {f : α → Work β} {a : α} {v : World}
    (h : x.runOn w = (.ok a, v)) : (x >>= f).runOn w = (f a).runOn v := by
  rw [runOn_bind, h]

/-- Looking up tags by their ids, if these can be held. -/
theorem runOn_tagsOfIds (table : w.store.absent.contains .tags = false)
    (named : targets.NamedBy config) :
    (tagsOfIds targets.ids).runOn w =
      if targets.ids.all Transaction.fits then (.ok (w.store.tagsAmong targets.ids), w)
      else (.error .integerRange, w) := by
  obtain ⟨ids, hids, hmem⟩ := exists_distinctIds_int targets.ids
  have hmem : ∀ id, id ∈ ids ↔ id ∈ targets.ids := fun id =>
    (hmem id).trans (and_iff_right_of_imp fun hid => (named.mem_ids.mp hid).1)
  have hfits : ids.all Transaction.fits = targets.ids.all Transaction.fits := by
    rw [Bool.eq_iff_iff, List.all_eq_true, List.all_eq_true]
    simp only [hmem]
  have hsame : w.store.tagsAmong ids = w.store.tagsAmong targets.ids :=
    Store.tagsAmong_congr fun t _ => hmem t.id
  unfold tagsOfIds
  split
  · rename_i hempty
    rw [List.isEmpty_iff.mp hempty, Store.tagsAmong_eq_nil.mpr (by simp)]
    rfl
  · have hread : (Tagging.tagsNamed (targets.ids.map Value.int)).run w.store
        = if targets.ids.all Transaction.fits then .ok (w.store.tagsAmong targets.ids, w.store)
          else .error .integerRange := by
      refine (Transaction.run_bind_of_ok (Transaction.run_lift_ok hids _)).trans ?_
      split
      · rename_i hempty
        rw [← hfits, ← hsame, List.isEmpty_iff.mp hempty, Store.tagsAmong_eq_nil.mpr (by simp)]
        rfl
      · rw [Tagging.run_existing table, hfits, hsame]
    rw [query, run_transact, hread]
    cases targets.ids.all Transaction.fits <;> rfl

/-- Looking up a tag by its name. -/
theorem runOn_tagsOfName (create : Bool) (table : w.store.absent.contains .tags = false)
    {name : String} (trimmed : Text.trim name = name) (hne : name ≠ "") :
    (tagsOfName create (some name)).runOn w =
      match w.store.tagNamed? name with
      | some tag => (.ok [tag], w)
      | none =>
        if create then
          (.ok [w.store.coinage name],
            { w with store := w.store.coined (some (w.store.coinage name)) })
        else (.ok [], w) := by
  have hresolve := Tagging.run_resolve create table trimmed hne
  unfold tagsOfName
  cases hfound : w.store.tagNamed? name with
  | some tag =>
    rw [hfound] at hresolve
    rw [runOn_bind_ok (runOn_query_ok hresolve)]
    rfl
  | none =>
    rw [hfound] at hresolve
    cases create <;> rw [runOn_bind_ok (runOn_query_ok hresolve)] <;> rfl

/-- **The tags of a step are looked up, and one is made if there is none.** -/
theorem runOn_targetTags (create : Bool) (table : w.store.absent.contains .tags = false)
    (named : targets.NamedBy config) (held : targets.ids.all Transaction.fits = true) :
    (targetTags targets create).runOn w =
      (.ok ((w.store.targeted targets ++ (w.store.made? create targets).toList).map Tag.id),
        { w with store := w.store.coined (w.store.made? create targets) }) := by
  unfold targetTags
  rw [runOn_bind_ok ((runOn_tagsOfIds table named).trans (if_pos held))]
  by_cases hids : w.store.tagsAmong targets.ids = []
  · rw [if_neg (by simp [hids])]
    cases hname : targets.name with
    | none =>
      have hnone : w.store.targeted targets = [] := by simp [Store.targeted, hids, hname]
      have hmade : w.store.made? create targets = none := by simp [Store.made?, hname]
      rw [hnone, hmade, Store.coined_none]
      rfl
    | some name =>
      obtain ⟨trimmed, hne⟩ := Value.trim_of_trimmedText? (named.name ▸ hname)
      have hlooked := runOn_tagsOfName create table trimmed hne
      have htargeted : w.store.targeted targets = (w.store.tagNamed? name).toList := by
        simp [Store.targeted, hids, hname]
      rw [Store.made?, htargeted, hname]
      cases hfound : w.store.tagNamed? name with
      | some tag =>
        rw [hfound] at hlooked
        rw [runOn_bind_ok hlooked]
        simp [Store.coined_none]
      | none =>
        rw [hfound] at hlooked
        cases create with
        | false =>
          rw [runOn_bind_ok hlooked]
          simp [Store.coined_none]
        | true =>
          rw [runOn_bind_ok hlooked]
          simp
  · have htargeted : w.store.targeted targets = w.store.tagsAmong targets.ids := if_neg hids
    have hmade : w.store.made? create targets = none :=
      if_neg fun h => hids (htargeted ▸ h.2)
    rw [if_pos (by simp [hids]), htargeted, hmade, Store.coined_none]
    simp

/-- A client that was loaded with a conversation is the one that it names, and has its tags at
hand. -/
theorem client_of_loadThread {c : Int} {v : World} {thread : Thread} {client : Client}
    (loaded : (query (Thread.load? c)).runOn w = (.ok (some thread), v))
    (hclient : thread.client = some client) :
    thread.conversation.clientId = some client.id
      ∧ w.store.find? Client client.id = some client ∧ Tagging.AtHand w.store client.id := by
  obtain ⟨s, loaded, -⟩ := runOn_query_eq_ok.mp loaded
  obtain ⟨conversation, s₁, hconversation, loaded⟩ := Transaction.run_bind_eq_ok.mp loaded
  obtain rfl := Transaction.reads_load Conversation c _ _ _ hconversation
  cases conversation with
  | none => cases loaded
  | some k =>
    obtain ⟨found, s₂, hfound, loaded⟩ := Transaction.run_bind_eq_ok.mp loaded
    obtain ⟨channel, s₃, hchannel, loaded⟩ := Transaction.run_bind_eq_ok.mp loaded
    cases loaded
    obtain rfl : found = some client := hclient
    dsimp only
    unfold Thread.loadClient at hfound
    cases hid : k.clientId with
    | none =>
      rw [hid] at hfound
      cases hfound
    | some n =>
      rw [hid] at hfound
      obtain ⟨row, s₄, hrow, hfound⟩ := Transaction.run_bind_eq_ok.mp hfound
      obtain ⟨rfl, rfl, hfits⟩ := Transaction.run_load_eq_ok hrow
      cases hrow' : w.store.find? Client n with
      | none =>
        rw [hrow'] at hfound
        cases hfound
      | some row =>
        rw [hrow'] at hfound
        obtain ⟨_, s₅, hmemberships, hfound⟩ := Transaction.run_bind_eq_ok.mp hfound
        obtain rfl := Transaction.need_eq_ok hmemberships
        obtain ⟨_, s₆, htags, hfound⟩ := Transaction.run_bind_eq_ok.mp hfound
        cases hfound
        obtain rfl : client.id = n := Store.id_of_find? hrow'
        exact ⟨rfl, hrow', ⟨Transaction.table_of_load hrow, Transaction.table_of_need hmemberships,
          Transaction.table_of_need htags, hfits⟩⟩

/-- A note leaves the tags alone. -/
theorem runOn_addNote (k : Conversation) (note : Outgoing)
    (table : w.store.absent.contains .messages = false) (plain : note.providerMessageId = none) :
    ∃ v, (addNote k note).runOn w = (.ok (), v) ∧ w.store.SameLabels v.store := by
  have hadd := History.run_addOutgoing w.clock k note w.store table (by simp [plain])
  unfold addNote
  rw [runOn_bind, run_transact, hadd]
  exact ⟨_, rfl, rfl, rfl⟩

/-- **What becomes of the tags that are named**: they are changed, noted and told. -/
theorem runOn_relabel (remove : Bool) {k : Conversation} {client : Client}
    {values : List Value} {ids : List Int}
    (table : w.store.absent.contains .messages = false) (ready : Tagging.AtHand w.store client.id)
    (hclient : w.store.find? Client client.id = some client) (hids : distinctIds values = .ok ids)
    (held : ids.all Transaction.fits = true) :
    ∃ v, (relabel k client.id (tagEvent remove) values).runOn w
        = (.ok (w.store.tagsAmong ids), v)
      ∧ (w.store.retagged remove client.id ((w.store.tagsAmong ids).map Tag.id)).SameLabels
          v.store := by
  have hchange : (Tagging.change remove client.id values).run w.store = _ :=
    ready.run_change hclient hids
  rw [if_pos held] at hchange
  unfold relabel
  rw [tagEvent_eq_tagRemoved, runOn_bind_ok (runOn_query_ok hchange)]
  by_cases hnone : w.store.tagsAmong ids = []
  · rw [if_pos (by simp [hnone]), hnone]
    exact ⟨_, rfl, rfl, rfl⟩
  · rw [if_neg (by simpa using hnone)]
    generalize hs : w.store.retagged remove client.id ((w.store.tagsAmong ids).map Tag.id) = s
    have htable : s.absent.contains .messages = false := by
      rw [← hs, Store.retagged_eq]
      exact table
    obtain ⟨v, hnote, hsame⟩ := runOn_addNote (w := { w with store := s }) k
      (tagNote (tagEvent remove) (w.store.tagsAmong ids)) htable rfl
    rw [runOn_bind_ok hnote]
    exact ⟨v, rfl, hsame⟩

variable {ctx : Context} {thread : Thread} {client : Client}

theorem runOn_threadOf (loaded : (query (Thread.load? ctx.conversationId)).runOn w
    = (.ok (some thread), w)) : (threadOf ctx).runOn w = (.ok thread, w) := by
  unfold threadOf
  rw [runOn_bind_ok loaded]
  rfl

/-- **How the tags of a step are changed**, up to the event that it is. -/
theorem runOn_retag (remove : Bool) (tables : w.store.absent = [])
    (sorted : w.store.tags.Pairwise fun a b => a.id < b.id)
    (room : Transaction.fits (w.store.nextId Tag) = true)
    (loaded : (query (Thread.load? ctx.conversationId)).runOn w = (.ok (some thread), w))
    (hclient : thread.client = some client) (named : targets.NamedBy config)
    (held : targets.ids.all Transaction.fits = true) :
    ∃ told v, (retag ctx (tagEvent remove) targets).runOn w
        = (.ok (if told = [] then none else some
            { kind := tagEvent remove, conversationId := ctx.conversationId,
              channelId := thread.conversation.channelId, tagIds := told.map Tag.id }), v)
      ∧ (∀ t, t ∈ told ↔ 0 < t.id
        ∧ (t ∈ w.store.targeted targets ∨ w.store.made? (!remove) targets = some t))
      ∧ (told.Pairwise fun a b => a.id < b.id)
      ∧ ((w.store.coined (w.store.made? (!remove) targets)).retagged remove client.id
          (told.map Tag.id)).SameLabels v.store := by
  obtain ⟨hid, hfound, ready⟩ := client_of_loadThread loaded hclient
  have there (t : Table) : w.store.absent.contains t = false := by simp [tables]
  have hlooked := runOn_targetTags (!remove) (there .tags) named held
  rw [retag_eq_relabel, runOn_bind_ok (runOn_threadOf loaded)]
  dsimp only
  rw [hid]
  dsimp only
  rw [tagEvent_eq_tagRemoved, runOn_bind_ok hlooked]
  generalize hfoundTags : w.store.targeted targets
    ++ (w.store.made? (!remove) targets).toList = found
  have hmem (t : Tag) : t ∈ found ↔
      t ∈ w.store.targeted targets ∨ w.store.made? (!remove) targets = some t := by
    rw [← hfoundTags, List.mem_append, Option.mem_toList]
  -- Tags are found by their ids again, which tell them apart; only positive ones count.
  let s := w.store.coined (w.store.made? (!remove) targets)
  have hsub : found ⊆ s.tags := by
    rw [← hfoundTags]
    exact List.append_subset.mpr ⟨List.subset_append_of_subset_left _ Store.targeted_subset,
      List.subset_append_right _ _⟩
  have hsorted : s.tags.Pairwise fun a b => a.id < b.id := Store.sorted_coined sorted
  obtain ⟨ids, hids, hmemIds⟩ := exists_distinctIds_int (found.map Tag.id)
  have htold (t : Tag) : t ∈ s.tagsAmong ids ↔ 0 < t.id ∧ t ∈ found := by
    rw [Store.mem_tagsAmong, hmemIds]
    constructor
    · rintro ⟨ht, hpositive, hid⟩
      obtain ⟨u, hu, huid⟩ := List.mem_map.mp hid
      exact ⟨hpositive, Store.eq_of_id hsorted (hsub hu) ht huid ▸ hu⟩
    · rintro ⟨hpositive, ht⟩
      exact ⟨hsub ht, hpositive, List.mem_map_of_mem ht⟩
  have hheld : ids.all Transaction.fits = true := by
    refine List.all_eq_true.mpr fun id hid => ?_
    obtain ⟨hpositive, hid⟩ := (hmemIds id).mp hid
    obtain ⟨u, hu, rfl⟩ := List.mem_map.mp hid
    have hle : u.id ≤ w.store.nextId Tag := Store.id_le_of_coined (hsub hu)
    rw [Transaction.fits_iff, Transaction.wordLimit] at room ⊢
    omega
  by_cases hnone : found = []
  · refine ⟨[], { w with store := s }, ?_, ?_, List.Pairwise.nil, ?_⟩
    · rw [if_pos (by simp [hnone])]
      rfl
    · intro t
      rw [← hmem, hnone]
      simp
    · rw [List.map_nil, Store.retagged_nil]
      exact ⟨rfl, rfl⟩
  · obtain ⟨v, hrelabel, hlabels⟩ := runOn_relabel (w := { w with store := s }) remove
      (k := thread.conversation) (there .messages) ⟨ready.clients, ready.memberships, ready.tags,
        ready.fits⟩ hfound hids hheld
    refine ⟨s.tagsAmong ids, v, ?_, fun t => (htold t).trans (and_congr_right' (hmem t)),
      hsorted.sublist List.filter_sublist, hlabels⟩
    have hc : thread.conversation.id = ctx.conversationId :=
      Store.id_of_find? (find?_of_loadThread loaded).2
    rw [if_neg (by simpa using hnone), runOn_bind_ok hrelabel, ← hc]
    simp only [List.isEmpty_iff]
    rfl

/-- A change of the tags of a client leaves the tags themselves alone. -/
theorem tags_relabel (k : Conversation) (n : Int) (kind : EventKind) (values : List Value)
    (w : World) : ((relabel k n kind values).runOn w).2.store.tags = w.store.tags := by
  let Same : World → World → Prop := fun w v => v.store.tags = w.store.tags
  have : Std.Refl Same := ⟨fun _ => rfl⟩
  have : IsTrans World Same := ⟨fun _ _ _ h k => k.trans h⟩
  have changes : Work.Keeps Same (query (Tagging.change (kind = .tagRemoved) n values)) :=
    Work.Keeps.transact fun w changed s h => by
      obtain ⟨-, rfl⟩ := Transaction.changed_of_change h
      dsimp only [Same]
      split <;> rfl
  refine Work.Keeps.bind (R := Same) changes (fun changed => ?_) w
  split
  · exact Work.Keeps.pure _
  · refine Work.Keeps.returning (Work.Keeps.returning (Work.Keeps.transact fun w id s h => ?_))
    obtain rfl := History.addOutgoing_eq_ok h
    rfl

/-- Where none is to be made, a step leaves the tags themselves alone. -/
theorem tags_retag (ctx : Context) (tables : w.store.absent = []) (named : targets.NamedBy config)
    (held : targets.ids.all Transaction.fits = true)
    (hmade : w.store.made? (!remove) targets = none) :
    ((retag ctx (tagEvent remove) targets).runOn w).2.store.tags = w.store.tags := by
  have hlooked := runOn_targetTags (w := w) (!remove) (by simp [tables]) named held
  rw [hmade, Store.coined_none] at hlooked
  rw [retag_eq_relabel]
  refine Work.Keeps.eq_bind (P := fun v => v.store.tags = w.store.tags) (keeps_threadOf ctx) rfl
    fun thread _ => ?_
  dsimp only
  split
  · rw [tagEvent_eq_tagRemoved, runOn_bind_ok hlooked]
    split
    · rfl
    · rw [snd_runOn_returning]
      exact tags_relabel _ _ _ _ w
  · rfl

/-- The step that is read from settings changes the tags that they name. -/
theorem runAction_of_parse {action : StepAction}
    (parsed : StepAction.parse (deed remove) config = .ok action) :
    ∃ targets, TagTargets.NamedBy targets config ∧
      ∀ settings onTags ctx owner head, runAction settings onTags ctx owner head action
        = (do changeTags onTags ctx (tagEvent remove) targets; return .goesOn) := by
  cases remove with
  | false =>
    obtain ⟨targets, htargets, h⟩ := Fault.bind_eq_ok.mp parsed
    cases h
    exact ⟨targets, namedBy_of_tagTargetsIn htargets, fun _ _ _ _ _ => rfl⟩
  | true =>
    obtain ⟨targets, htargets, h⟩ := Fault.bind_eq_ok.mp parsed
    cases h
    exact ⟨targets, namedBy_of_tagTargetsIn htargets, fun _ _ _ _ _ => rfl⟩

end Engine

/-! ## Whatever happens at the desk -/

/-- Tags are only added, and names stay unique. -/
structure Store.Enriched (s t : Store) : Prop where
  tags : s.tags <+: t.tags
  names : (s.tags.map Tag.name).Nodup → (t.tags.map Tag.name).Nodup

theorem Store.Enriched.of_eq {s t : Store} (h : t.tags = s.tags) : s.Enriched t :=
  ⟨h ▸ List.prefix_refl _, fun names => h ▸ names⟩

namespace World

/-- Where no script deletes a row, tags are only added, and names stay unique. -/
def Enriches (w v : World) : Prop :=
  (∀ t, w.rehearsal.Spares t) → (∀ t, v.rehearsal.Spares t) ∧ w.store.Enriched v.store

instance : Std.Refl Enriches := ⟨fun _ h => ⟨h, .of_eq rfl⟩⟩

instance : IsTrans World Enriches := ⟨fun _ _ _ h k hu =>
  have ⟨hspares, henriched⟩ := h hu
  have ⟨kspares, kenriched⟩ := k hspares
  ⟨kspares, henriched.tags.trans kenriched.tags, fun names =>
    kenriched.names (henriched.names names)⟩⟩

/-- What leaves the tags alone. -/
theorem Enriches.of_tags {w v : World} (hrehearsal : v.rehearsal = w.rehearsal)
    (htags : v.store.tags = w.store.tags) : Enriches w v := fun hw =>
  ⟨fun t => hrehearsal ▸ hw t, .of_eq htags⟩

theorem Brushes.enriches {c : Int} {w v : World} (h : Brushes c w v) : Enriches w v := fun hw =>
  ⟨(h hw).1, .of_eq (h hw).2.labels⟩

end World

namespace Engine

open Work World

variable {w : World}

/-- A tag that is made has a new name. -/
theorem enriches_add {s : Store} {tag added : Tag} (hnew : ∀ t ∈ w.store.tags, t.name ≠ tag.name)
    (h : (Transaction.add tag).run w.store = .ok (added, s)) :
    Enriches w { w with store := s } := by
  rw [Transaction.run_add] at h
  split at h
  · cases h
  · cases h
    have htags : (w.store.insert (Row.withId tag (w.store.nextId Tag))).tags
        = w.store.tags ++ [Row.withId tag (w.store.nextId Tag)] :=
      Store.rows_insert_nextId w.store tag
    exact fun hw => ⟨hw, ⟨[_], htags.symm⟩, fun names =>
      htags ▸ Store.nodup_names_concat names hnew⟩

theorem stepwork_enriches (settings : Settings) (c : Int) : Stepwork settings c Enriches where
  relabels hkind hk hn values :=
    ((clickwork_brushes settings c).relabels hkind hk hn values).enriches
  sends keyboard loaded hchat hcopies :=
    ((clickwork_brushes settings c).sends keyboard loaded hchat hcopies).enriches
  makes := enriches_add
  edits _ _ _ := .of_tags rfl rfl
  notes _ _ hk w := (brushed_addNote hk _ w).enriches
  waits _ := Work.Keeps.modify fun _ => .of_tags rfl rfl

theorem enriches_awaitCondition (ctx : Context) (stepId : String) (condition : Condition) :
    Work.Keeps Enriches (awaitCondition ctx stepId condition) := by
  refine keeps_awaitCondition fun w facts s _ hs => ?_
  rcases Slot.fill_eq_ok hs with ⟨-, rfl⟩ | ⟨k, fields, -, -, rfl⟩
  · exact .of_tags rfl rfl
  · exact .of_tags rfl rfl

theorem runwork_enriches (settings : Settings) (c : Int) : Runwork settings c Enriches where
  executes := keeps_execute (fun _ _ => .of_tags rfl rfl) (fun _ _ => .of_tags rfl rfl)
    (stepwork_enriches settings c) enriches_awaitCondition
  remembers _ _ := .of_tags rfl rfl

theorem enriches_take {c : Int} {taken : Option Suspension} {s : Store}
    (h : (Slot.take c).run w.store = .ok (taken, s)) : Enriches w { w with store := s } := by
  rcases Slot.erased_of_take h with ⟨-, rfl⟩ | ⟨k, held, fields, -, -, -, rfl⟩
  · exact .of_tags rfl rfl
  · exact .of_tags rfl rfl

/-- **What comes to the engine only adds tags**, with all the runs that it sets off. -/
theorem enriches_handle (settings : Settings) (o : Occurrence) :
    Work.Keeps Enriches (o.handle settings) :=
  (runwork_enriches settings _).handle enriches_take rfl

/-! ## The result -/

/-- A tag is there for a step: one of its ids, or if no tag has one of these, that of its name. -/
def Targets (s : Store) (config : Record) (tag : Tag) : Prop :=
  tag ∈ s.tags ∧ (tag.id ∈ Value.ids (namingValues config)
    ∨ (∀ t ∈ s.tags, t.id ∉ Value.ids (namingValues config))
      ∧ (config.getD "tag_name").trimmedText? = some tag.name)

/-- A tag is made for a step: one of its name, if it attaches tags and nothing is there for it. -/
def Coins (s : Store) (remove : Bool) (config : Record) (tag : Tag) : Prop :=
  remove = false ∧ (∀ t ∈ s.tags, t.id ∉ Value.ids (namingValues config))
    ∧ (config.getD "tag_name").trimmedText? = some tag.name
    ∧ (∀ t ∈ s.tags, t.name ≠ tag.name) ∧ tag = s.coinage tag.name

/-- What a step with these settings makes of a store for a client: -/
structure Aims (remove : Bool) (config : Record) (n : Int) (s t : Store) (told : List Tag) :
    Prop where
  /-- a tag is made where one is to be made, and only that one; none is changed or goes, -/
  tags : ∃ made : Option Tag, t.tags = s.tags ++ made.toList
    ∧ ∀ tag, made = some tag ↔ Coins s remove config tag
  /-- and names stay unique. -/
  names : (t.tags.map Tag.name).Nodup
  /-- The step is about the tags that are there for it or are made for it, as far as their ids are
  positive. It tells them by ascending id, -/
  mem_told : ∀ tag, tag ∈ told ↔ 0 < tag.id ∧ (Targets s config tag ∨ Coins s remove config tag)
  ascending : told.Pairwise fun a b => a.id < b.id
  /-- and just these are attached to the client, or detached from it. -/
  memberships : ∀ m : Membership, m ∈ t.memberships ↔
    if remove then m ∈ s.memberships ∧ ¬(m.clientId = n ∧ m.tagId ∈ told.map Tag.id)
    else m ∈ s.memberships ∨ m.clientId = n ∧ m.tagId ∈ told.map Tag.id

/-- **A step is about the tags of its ids that exist, and if there are none about the tag of its
name**, which it makes to attach it if there is none. Afterwards it makes none any more, in any
conversation, and whatever comes to the engine only adds tags. -/
theorem targets_exactly (settings : Settings) (onTags : TagHandler) (ctx : Context)
    (owner : String) (head : StepHead) (remove : Bool) {config : Record} {action : StepAction}
    {thread : Thread} {client : Client} (tables : w.store.absent = [])
    (sorted : w.store.tags.Pairwise fun a b => a.id < b.id)
    (names : (w.store.tags.map Tag.name).Nodup)
    (room : Transaction.fits (w.store.nextId Tag) = true)
    (loaded : (query (Thread.load? ctx.conversationId)).runOn w = (.ok (some thread), w))
    (hclient : thread.client = some client)
    (parsed : StepAction.parse (deed remove) config = .ok action)
    (held : ∀ id ∈ Value.ids (namingValues config), Transaction.fits id = true) :
    ∃ told v, Aims remove config client.id w.store v.store told
      ∧ (runAction settings onTags ctx owner head action).runOn w = (do
          if told ≠ [] then
            onTags (tagEvent remove) ctx.conversationId thread.conversation.channelId
              (told.map Tag.id)
          return Progress.goesOn).runOn v
      ∧ (∀ (u : World) (ctx : Context), u.store.absent = [] → v.store.tags ⊆ u.store.tags →
        ((runAction settings quiet ctx owner head action).runOn u).2.store.tags = u.store.tags)
      ∧ ∀ o : Occurrence, (∀ t, v.rehearsal.Spares t) →
        v.store.Enriched ((o.handle settings).runOn v).2.store := by
  obtain ⟨targets, named, haction⟩ := runAction_of_parse parsed
  have hheld : targets.ids.all Transaction.fits = true :=
    List.all_eq_true.mpr fun id hid => held id (named.mem_ids.mp hid)
  have htargets (s : Store) (h : (s.tags.map Tag.name).Nodup) (tag : Tag) :
      tag ∈ s.targeted targets ↔ Targets s config tag := by
    simp only [Store.mem_targeted h, named.mem_ids, named.name, Targets]
  have hmakes (s : Store) (tag : Tag) :
      s.made? (!remove) targets = some tag ↔ Coins s remove config tag := by
    simp only [Store.made?_eq_some, named.mem_ids, named.name, Coins, Bool.not_eq_true']
  obtain ⟨told, v, hretag, hmem, hascending, hlabels⟩ :=
    runOn_retag remove tables sorted room loaded hclient named hheld
  have htags : v.store.tags = (w.store.coined (w.store.made? (!remove) targets)).tags := by
    rw [hlabels.tags, Store.retagged_eq]
  refine ⟨told, v, ⟨⟨_, htags, hmakes _⟩, ?_, ?_, hascending, ?_⟩, ?_, ?_, ?_⟩
  · rw [htags]
    exact Store.names_coined names
  · intro tag
    rw [hmem, htargets _ names, hmakes]
  · intro m
    rw [hlabels.memberships, Store.mem_memberships_retagged]
    rfl
  · rw [haction, changeTags_eq_retag]
    simp only [bind_assoc]
    rw [runOn_bind_ok hretag]
    by_cases hnone : told = []
    · simp [hnone]
    · simp [hnone]
  · intro u ctx htables hsub
    have hmade : u.store.made? (!remove) targets = none := Store.made?_of_coined (htags ▸ hsub)
    have hsame := tags_retag ctx htables named hheld hmade
    rw [haction, snd_runOn_returning, changeTags_eq_retag, runOn_bind]
    rcases hr : (retag ctx (tagEvent remove) targets).runOn u with ⟨fault | _ | e, v⟩ <;>
      rw [hr] at hsame <;> exact hsame
  · exact fun o hspares => (enriches_handle settings o v hspares).2

/-! ### A cinema with a visitor -/

/-- A cinema with a visitor and one tag. -/
def cinema (tag : Tag) : World :=
  { store :=
      { tags := [tag]
        clients := [⟨1, none, some "Ole", none, none, .null⟩]
        conversations :=
          [{ id := 1, channelId := 1, clientId := some 1, operatorId := none, status := "open",
             metadata := .null, unreadCount := 0, lastMessageAt := none }] } }

/-- Who comes to the premiere gets a tag, which was deleted meanwhile. -/
def premiere : Record := [("tag_ids", .list [.int 9, .str "x"]), ("tag_name", .str " premiere ")]

/-- The visitor comes. -/
def visited (tag : Tag) : World :=
  ((runAction {} quiet ⟨1, 1, 1⟩ "s1" { stepId := "s1", kind := "add_tag" }
    (.addTag ⟨[9], some "premiere"⟩)).runOn (cinema tag)).2

/-- At the cinema the tag is made again, once. -/
theorem targets_exactly_cinema :
    (∃ told, ∃ v : World, Aims false premiere 1 (cinema ⟨3, "regular", none⟩).store v.store told
      ∧ ∀ (u : World) (ctx : Context), u.store.absent = [] → v.store.tags ⊆ u.store.tags →
        ((runAction {} quiet ctx "s1" { stepId := "s1", kind := "add_tag" }
          (.addTag ⟨[9], some "premiere"⟩)).runOn u).2.store.tags = u.store.tags)
      ∧ ((visited ⟨3, "regular", none⟩).store.tags.map fun t => (t.id, t.name))
        = [(3, "regular"), (4, "premiere")]
      ∧ (visited ⟨3, "regular", none⟩).store.carried 1 = {4} := by
  have hheld : ∀ id ∈ Value.ids (namingValues premiere), Transaction.fits id = true := by
    intro id hid
    have hnamed : distinctIds (namingValues premiere) = .ok [9] := by decide +kernel
    cases List.mem_singleton.mp ((mem_distinctIds hnamed).mpr hid)
    decide
  have hparsed : StepAction.parse (deed false) premiere = .ok (.addTag ⟨[9], some "premiere"⟩) := by
    decide +kernel
  refine ⟨?_, by decide +kernel, by decide +kernel⟩
  obtain ⟨told, v, haims, -, hagain, -⟩ := targets_exactly (w := cinema ⟨3, "regular", none⟩) {}
    quiet ⟨1, 1, 1⟩ "s1" { stepId := "s1", kind := "add_tag" } false rfl (by decide) (by decide)
    (by decide) rfl rfl hparsed hheld
  exact ⟨told, v, haims, hagain⟩

/-- **A tag that is made is not always attached**: after a tag of an id below -1 it gets one that is
not positive. -/
theorem not_always_attached :
    ((visited ⟨-5, "regular", none⟩).store.tags.map fun t => (t.id, t.name))
        = [(-5, "regular"), (-4, "premiere")]
      ∧ (visited ⟨-5, "regular", none⟩).store.carried 1 = ∅ := by
  constructor <;> decide +kernel

end Engine

end Deskflow
