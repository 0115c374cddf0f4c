import Deskflow.Proofs.TagNotes
import Mathlib.Data.Set.Basic

/-!
# The tags of a client as a set

Tags are attached and detached by lists of free-form values. Of these the positive integers count
that the values stand for, however often they do and in whatever form; what stands for no integer is
passed over. On the ids that a client carries, attaching is then a union and detaching a difference,
and the ids of which no tag exists have no part in it.

A list is refused as a whole, with nothing changed, if an infinite number is in it or if it names an
id that no column can hold.

These are `add_to_client` and `remove_from_client`.

* `mem_distinctIds`, `exists_distinctIds`: what a list of values names, and when it can be read.
* `Tagging.run_change`: how a change of tags goes.
* `Store.mem_carried_retagged`: what a client carries once its tags were changed.
* `Tagging.changes_as_sets`: the result.
-/

namespace Deskflow

/-! ## Naming ids -/

namespace Value

/-- The ids that values name: the positive integers that they stand for. -/
def ids (values : List Value) : Set Int := {n | 0 < n ∧ ∃ v ∈ values, v.toInt = .ok n}

theorem toInt?_eq_some {v : Value} {n : Int} : v.toInt? = .ok (some n) ↔ v.toInt = .ok n := by
  unfold toInt?
  split <;> simp_all

/-- No value is refused where an integer may be missing, but an infinite number. -/
theorem exists_toInt? {v : Value} (h : v.toInt ≠ .error .infiniteNumber) :
    ∃ r, v.toInt? = .ok r := by
  cases hv : v.toInt? with
  | ok r => exact ⟨r, rfl⟩
  | error fault => exact absurd (toInt?_eq_error hv).1 h

theorem mem_ids {values : List Value} {n : Int} :
    n ∈ ids values ↔ 0 < n ∧ ∃ v ∈ values, v.toInt = .ok n := Iff.rfl

theorem mem_ids_cons {v : Value} {values : List Value} {n : Int} :
    n ∈ ids (v :: values) ↔ 0 < n ∧ v.toInt = .ok n ∨ n ∈ ids values := by
  simp only [mem_ids, List.mem_cons, exists_eq_or_imp]
  exact and_or_left

theorem mem_ids_append {values others : List Value} {n : Int} :
    n ∈ ids (values ++ others) ↔ n ∈ ids values ∨ n ∈ ids others := by
  induction values with
  | nil => simp [mem_ids]
  | cons v values ih => rw [List.cons_append, mem_ids_cons, mem_ids_cons, ih, or_assoc]

end Value

open Value in
theorem mem_addDistinctIds {values : List Value} {known out : List Int}
    (h : addDistinctIds values known = .ok out) {n : Int} :
    n ∈ out ↔ n ∈ known ∨ n ∈ ids values := by
  induction values generalizing known with
  | nil =>
    cases h
    simp [mem_ids]
  | cons v values ih =>
    obtain ⟨r, hr, h⟩ := Fault.bind_eq_ok.mp h
    rw [mem_ids_cons, ← toInt?_eq_some, hr]
    cases r with
    | none => simpa using ih h
    | some k =>
      -- An id is added where it is positive and new, so it is there in the end if it is positive.
      rw [ih h]
      split
      · rename_i hk
        simp only [Bool.and_eq_true, decide_eq_true_eq] at hk
        simp only [List.mem_append, List.mem_singleton, Except.ok.injEq, Option.some.injEq]
        constructor
        · rintro ((hn | rfl) | hn)
          · exact .inl hn
          · exact .inr (.inl ⟨hk.1, rfl⟩)
          · exact .inr (.inr hn)
        · rintro (hn | ⟨-, rfl⟩ | hn)
          · exact .inl (.inl hn)
          · exact .inl (.inr rfl)
          · exact .inr hn
      · rename_i hk
        simp only [Bool.and_eq_true, decide_eq_true_eq, Bool.not_eq_true', not_and,
          Bool.not_eq_false, List.contains_iff_mem] at hk
        simp only [Except.ok.injEq, Option.some.injEq]
        constructor
        · rintro (hn | hn)
          · exact .inl hn
          · exact .inr (.inr hn)
        · rintro (hn | ⟨hpos, rfl⟩ | hn)
          · exact .inl hn
          · exact .inl (hk hpos)
          · exact .inr hn

/-- **What a list of values names.** -/
theorem mem_distinctIds {values : List Value} {out : List Int} (h : distinctIds values = .ok out)
    {n : Int} : n ∈ out ↔ n ∈ Value.ids values := by
  simpa using mem_addDistinctIds h (n := n)

/-- A list is read unless an infinite number is in it. -/
theorem exists_distinctIds {values : List Value}
    (finite : ∀ v ∈ values, v.toInt ≠ .error .infiniteNumber) :
    ∃ out, distinctIds values = .ok out := by
  suffices h : ∀ known, ∃ out, addDistinctIds values known = .ok out from h []
  induction values with
  | nil => exact fun known => ⟨known, rfl⟩
  | cons v values ih =>
    intro known
    have ih := ih fun u hu => finite u (List.mem_cons_of_mem v hu)
    obtain ⟨r, hr⟩ := Value.exists_toInt? (finite v List.mem_cons_self)
    simp only [addDistinctIds, hr]
    cases r with
    | none => exact ih known
    | some n => exact ih _

/-- Of ids those that are positive name themselves. -/
theorem exists_distinctIds_int (ids : List Int) :
    ∃ out, distinctIds (ids.map Value.int) = .ok out ∧ ∀ n, n ∈ out ↔ 0 < n ∧ n ∈ ids := by
  have hfinite : ∀ v ∈ ids.map Value.int, v.toInt ≠ .error .infiniteNumber := by simp
  obtain ⟨out, hout⟩ := exists_distinctIds hfinite
  refine ⟨out, hout, fun n => ?_⟩
  rw [mem_distinctIds hout, Value.mem_ids]
  simp

/-! ## Changing the tags of a client -/

namespace Store

/-- The ids of the tags that exist. -/
def tagIds (s : Store) : Set Int := {n | ∃ t ∈ s.tags, t.id = n}

/-- The tags of some ids that exist. -/
def tagsAmong (s : Store) (ids : List Int) : List Tag := s.tags.filter fun t => ids.contains t.id

theorem mem_tagsAmong {s : Store} {ids : List Int} {t : Tag} :
    t ∈ s.tagsAmong ids ↔ t ∈ s.tags ∧ t.id ∈ ids := by
  simp [tagsAmong]

theorem tagsAmong_congr {s : Store} {ids others : List Int}
    (h : ∀ t ∈ s.tags, t.id ∈ ids ↔ t.id ∈ others) : s.tagsAmong ids = s.tagsAmong others := by
  refine List.filter_congr fun t ht => ?_
  rw [Bool.eq_iff_iff, List.contains_iff_mem, List.contains_iff_mem]
  exact h t ht

theorem mem_map_tagsAmong {s : Store} {ids : List Int} {n : Int} :
    n ∈ (s.tagsAmong ids).map Tag.id ↔ n ∈ ids ∧ n ∈ s.tagIds := by
  simp only [List.mem_map, mem_tagsAmong]
  constructor
  · rintro ⟨t, ⟨ht, hid⟩, rfl⟩
    exact ⟨hid, t, ht, rfl⟩
  · rintro ⟨hn, t, ht, rfl⟩
    exact ⟨t, ⟨ht, hn⟩, rfl⟩

/-- A client carries the tags that exist and are attached. -/
theorem mem_carried_iff {s : Store} {n id : Int} :
    id ∈ s.carried n ↔ id ∈ s.tagIds ∧ (⟨n, id⟩ : Membership) ∈ s.memberships := by
  rw [carried, List.mem_toFinset, List.mem_map]
  constructor
  · rintro ⟨t, ht, rfl⟩
    obtain ⟨htag, hmember⟩ := List.mem_filter.mp ht
    exact ⟨⟨t, htag, rfl⟩, List.contains_iff_mem.mp hmember⟩
  · rintro ⟨⟨t, ht, rfl⟩, hmember⟩
    exact ⟨t, List.mem_filter.mpr ⟨ht, List.contains_iff_mem.mpr hmember⟩, rfl⟩

/-- The store with tags attached to a client, or with `remove` detached from it. -/
def retagged (s : Store) (remove : Bool) (n : Int) (ids : List Int) : Store :=
  (if remove then Tagging.detached else Tagging.attached) s n ids

variable {s : Store} {remove : Bool} {n : Int} {ids : List Int}

theorem retagged_eq : s.retagged remove n ids
    = { s with memberships := (s.retagged remove n ids).memberships } := by
  cases remove <;> rfl

theorem tagIds_retagged : (s.retagged remove n ids).tagIds = s.tagIds := by
  cases remove <;> rfl

theorem retagged_nil : s.retagged remove n [] = s := by
  cases remove <;> simp [retagged, Tagging.attached, Tagging.detached]

theorem mem_memberships_retagged {m : Membership} :
    m ∈ (s.retagged remove n ids).memberships ↔
      if remove then m ∈ s.memberships ∧ ¬(m.clientId = n ∧ m.tagId ∈ ids)
      else m ∈ s.memberships ∨ m.clientId = n ∧ m.tagId ∈ ids := by
  cases remove
  · exact Tagging.mem_attached
  · exact Tagging.mem_detached

/-- **What a client carries once its tags were changed**, in any store: of the ids that are attached
only those count that are ids of tags. -/
theorem mem_carried_retagged {id : Int} :
    id ∈ (s.retagged remove n ids).carried n ↔
      if remove then id ∈ s.carried n ∧ id ∉ ids
      else id ∈ s.carried n ∨ id ∈ ids ∧ id ∈ s.tagIds := by
  rw [mem_carried_iff, tagIds_retagged, mem_memberships_retagged, mem_carried_iff]
  cases remove
  · simp only [Bool.false_eq_true, if_false, true_and]
    rw [and_or_left, and_comm (a := id ∈ ids)]
  · simp only [if_true, true_and, and_assoc]

/-- To change the same tags once more changes nothing. -/
theorem retagged_retagged :
    (s.retagged remove n ids).retagged remove n ids = s.retagged remove n ids := by
  have hattached : ∀ m ∈ ids.map (Membership.mk n),
      (s.retagged false n ids).memberships.contains m = true := by
    intro m hm
    obtain ⟨id, hid, rfl⟩ := List.mem_map.mp hm
    exact List.contains_iff_mem.mpr (mem_memberships_retagged.mpr (.inr ⟨rfl, hid⟩))
  cases remove with
  | false =>
    have hnone : ((ids.map (Membership.mk n)).filter fun m =>
        !(s.retagged false n ids).memberships.contains m) = [] :=
      List.filter_eq_nil_iff.mpr fun m hm => by rw [hattached m hm]; simp
    have hsame : (s.retagged false n ids).memberships
        ++ ((ids.map (Membership.mk n)).filter fun m =>
          !(s.retagged false n ids).memberships.contains m)
          = (s.retagged false n ids).memberships := by rw [hnone, List.append_nil]
    exact congrArg (fun memberships => { s with memberships }) hsame
  | true =>
    have hsame : ((s.retagged true n ids).memberships.filter fun m =>
        !(m.clientId == n && ids.contains m.tagId)) = (s.retagged true n ids).memberships := by
      refine List.filter_eq_self.mpr fun m hm => ?_
      exact (List.mem_filter.mp hm).2
    exact congrArg (fun memberships => { s with memberships }) hsame

end Store

namespace Transaction

variable {s : Store}

theorem run_need_of_table {t : Table} (h : s.absent.contains t = false) :
    (need t).run s = .ok ((), s) := by
  rw [run_need, h]
  rfl

theorem run_forM_fit (ids : List Int) (s : Store) :
    (ids.forM fit).run s = if ids.all fits then .ok ((), s) else .error .integerRange := by
  induction ids with
  | nil => rfl
  | cons n ids ih =>
    rw [show (n :: ids).forM fit = (fit n >>= fun _ => ids.forM fit) from rfl, List.all_cons]
    have hfit := run_fit n s
    cases hn : fits n <;> rw [hn] at hfit
    · exact run_bind_of_error hfit
    · exact (run_bind_of_ok hfit).trans ih

end Transaction

namespace Tagging

open Transaction

variable {s : Store} {remove : Bool} {n : Int} {values : List Value} {ids : List Int}

/-- What a change of the tags of a client asks for: the tables, and an id that its column can
hold. -/
structure AtHand (s : Store) (n : Int) : Prop where
  clients : s.absent.contains .clients = false
  memberships : s.absent.contains .clientTags = false
  tags : s.absent.contains .tags = false
  fits : fits n = true

theorem AtHand.retagged (h : AtHand s n) {m : Int} : AtHand (s.retagged remove m ids) n := by
  cases remove <;> exact ⟨h.clients, h.memberships, h.tags, h.fits⟩

theorem AtHand.run_client? (h : AtHand s n) :
    (client? n).run s = .ok (s.find? Client n, s) := by
  refine run_bind_eq_ok.mpr ⟨_, s, run_load_of_fits h.clients h.fits, ?_⟩
  cases s.find? Client n with
  | none => rfl
  | some client =>
    exact run_bind_eq_ok.mpr ⟨(), s, run_need_of_table h.memberships,
      run_bind_eq_ok.mpr ⟨(), s, run_need_of_table h.tags, rfl⟩⟩

theorem run_existing (htags : s.absent.contains .tags = false) (ids : List Int) :
    (existing ids).run s
      = if ids.all Transaction.fits then .ok (s.tagsAmong ids, s) else .error .integerRange := by
  have hrows : (rows Tag).run s = .ok (s.tags, s) := run_rows_eq_ok.mpr ⟨htags, rfl, rfl⟩
  have hfit := run_forM_fit ids s
  refine (run_bind_of_ok hrows).trans ?_
  cases hids : ids.all Transaction.fits <;> rw [hids] at hfit
  · exact run_bind_of_error hfit
  · exact run_bind_of_ok hfit

/-- Nothing is changed for a client that is not there. -/
theorem AtHand.run_change_of_none (h : AtHand s n) (hclient : s.find? Client n = none)
    (hids : distinctIds values = .ok ids) : (change remove n values).run s = .ok ([], s) := by
  refine (run_bind_of_ok (run_lift_ok hids s)).trans ?_
  rw [run_bind_of_ok h.run_client?, hclient]
  rfl

/-- **How the tags of a client are changed**: all that are named at once, or none. -/
theorem AtHand.run_change (h : AtHand s n) {client : Client}
    (hclient : s.find? Client n = some client) (hids : distinctIds values = .ok ids) :
    (change remove n values).run s
      = if ids.all Transaction.fits
        then .ok (s.tagsAmong ids, s.retagged remove n ((s.tagsAmong ids).map Tag.id))
        else .error .integerRange := by
  refine (run_bind_of_ok (run_lift_ok hids s)).trans ?_
  rw [run_bind_of_ok h.run_client?, hclient]
  dsimp only
  by_cases hempty : ids = []
  · subst hempty
    have hnone : s.tagsAmong [] = [] := by simp [Store.tagsAmong]
    rw [hnone, List.map_nil, Store.retagged_nil, if_pos List.all_nil]
    rfl
  · rw [if_neg (by simpa using hempty)]
    have hexisting := run_existing h.tags ids
    cases hfits : ids.all Transaction.fits <;> rw [hfits] at hexisting
    · exact run_bind_of_error hexisting
    · refine (run_bind_of_ok hexisting).trans ?_
      rw [show client.id = n from Store.id_of_find? hclient]
      rfl

/-- Asking which tags a client carries. -/
theorem AtHand.run_idsOfClient (h : AtHand s n) {client : Client}
    (hclient : s.find? Client n = some client) :
    (idsOfClient n).run s = .ok ((s.tagsOf n).map Tag.id, s) := by
  have hid : client.id = n := Store.id_of_find? hclient
  refine (run_bind_of_ok h.run_client?).trans ?_
  rw [hclient, ← hid]
  rfl

/-! ## The result -/

/-- A change of the tags of a client that is there, as an operation on sets of ids: -/
structure ActsOnSets (remove : Bool) (n : Int) (values : List Value) (s t : Store)
    (told : List Tag) : Prop where
  /-- the client carries less by a difference, or more by a union, -/
  carried : (t.carried n : Set Int) =
    if remove then (s.carried n : Set Int) \ Value.ids values
    else (s.carried n : Set Int) ∪ (Value.ids values ∩ s.tagIds)
  /-- and that is told when it is asked; -/
  asked : ∃ ids, (idsOfClient n).run t = .ok (ids, t) ∧ ids.toFinset = t.carried n
  /-- the tags are told that are named and exist, each once and by ascending id; -/
  mem_told : ∀ tag, tag ∈ told ↔ tag ∈ s.tags ∧ tag.id ∈ Value.ids values
  ascending : told.Pairwise fun a b => a.id < b.id
  /-- to do the same again changes nothing more; -/
  again : (change remove n values).run t = .ok (told, t)
  /-- nothing changes for other clients, -/
  others : ∀ m : Membership, m.clientId ≠ n → (m ∈ t.memberships ↔ m ∈ s.memberships)
  /-- nor in other tables. -/
  rest : t = { s with memberships := t.memberships }

/-- **Tags are attached and detached as sets are joined and diminished**, where no infinite number
is among the values and the ids that they name can be held by their column. -/
theorem changes_as_sets (remove : Bool) (ready : AtHand s n)
    (sorted : s.tags.Pairwise fun a b => a.id < b.id)
    (finite : ∀ v ∈ values, v.toInt ≠ .error .infiniteNumber)
    (held : ∀ id ∈ Value.ids values, Transaction.fits id = true) :
    ∃ told t, (change remove n values).run s = .ok (told, t) ∧
      match s.find? Client n with
      | some _ => ActsOnSets remove n values s t told
      | none => told = [] ∧ t = s := by
  obtain ⟨ids, hids⟩ := exists_distinctIds finite
  cases hclient : s.find? Client n with
  | none => exact ⟨[], s, ready.run_change_of_none hclient hids, rfl, rfl⟩
  | some client =>
    have hheld : ids.all Transaction.fits = true :=
      List.all_eq_true.mpr fun id hid => held id ((mem_distinctIds hids).mp hid)
    let t := s.retagged remove n ((s.tagsAmong ids).map Tag.id)
    have hclient' : t.find? Client n = some client := by
      rw [← hclient]
      cases remove <;> rfl
    have hsame : t.tagsAmong ids = s.tagsAmong ids := by cases remove <;> rfl
    refine ⟨s.tagsAmong ids, t, by rw [ready.run_change hclient hids, if_pos hheld], ?_, ?_, ?_, ?_,
      ?_, ?_, Store.retagged_eq⟩
    · ext id
      rw [Finset.mem_coe, Store.mem_carried_retagged, Store.mem_map_tagsAmong, mem_distinctIds hids]
      cases remove
      · simp
      · have hexists : id ∈ s.carried n → id ∈ s.tagIds := fun h => (Store.mem_carried_iff.mp h).1
        simp only [if_true, Set.mem_sdiff, Finset.mem_coe]
        tauto
    · exact ⟨_, ready.retagged.run_idsOfClient hclient', rfl⟩
    · intro tag
      rw [Store.mem_tagsAmong, mem_distinctIds hids]
    · exact sorted.sublist List.filter_sublist
    · rw [ready.retagged.run_change hclient' hids, if_pos hheld, hsame]
      exact congrArg (fun u => Except.ok (s.tagsAmong ids, u)) Store.retagged_retagged
    · intro m hm
      rw [Store.mem_memberships_retagged]
      cases remove <;> simp [hm]

/-! ### A library with two readers -/

/-- A library with two readers. -/
def library : Store :=
  { tags := [⟨2, "novels", none⟩, ⟨5, "poems", none⟩, ⟨7, "plays", none⟩]
    clients := [⟨1, none, some "Una", none, none, .null⟩, ⟨2, none, some "Vic", none, none, .null⟩]
    memberships := [⟨1, 2⟩, ⟨2, 5⟩] }

/-- What Una says she likes: 5 in two forms, 7, 9, which does not exist, and more that is no id. -/
def likes : List Value :=
  [.str " 5 ", .int 7, .int 5, .int 9, .int (-2), .str "prose", .null, .bool false]

/-- At the library Una comes to carry two tags more, and Vic is left alone. -/
theorem changes_as_sets_library : ∃ t,
    (change false 1 likes).run library = .ok ([⟨5, "poems", none⟩, ⟨7, "plays", none⟩], t)
      ∧ ActsOnSets false 1 likes library t [⟨5, "poems", none⟩, ⟨7, "plays", none⟩]
      ∧ t.carried 1 = {2, 5, 7} ∧ t.carried 2 = {5} := by
  have hnamed : distinctIds likes = .ok [5, 7, 9] := by decide +kernel
  have hfinite : ∀ v ∈ likes, v.toInt ≠ .error .infiniteNumber := by decide +kernel
  have hheld : ∀ id ∈ Value.ids likes, Transaction.fits id = true := by
    intro id hid
    have hmem := (mem_distinctIds hnamed).mpr hid
    simp only [List.mem_cons, List.not_mem_nil, or_false] at hmem
    rcases hmem with rfl | rfl | rfl <;> decide
  obtain ⟨told, t, hrun, hacts⟩ := changes_as_sets (s := library) (n := 1) false
    ⟨rfl, rfl, rfl, rfl⟩ (by decide) hfinite hheld
  have hgoes : (change false 1 likes).run library
      = .ok ([⟨5, "poems", none⟩, ⟨7, "plays", none⟩],
        { library with memberships := [⟨1, 2⟩, ⟨2, 5⟩, ⟨1, 5⟩, ⟨1, 7⟩] }) := by decide +kernel
  cases hgoes.symm.trans hrun
  exact ⟨_, hgoes, hacts, by decide +kernel, by decide +kernel⟩

end Tagging

end Deskflow
