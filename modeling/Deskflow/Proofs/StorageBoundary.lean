import Mathlib.Data.List.Infix
import Mathlib.Data.List.Induction
import Deskflow.Media
import Deskflow.Settings

/-!
# The boundary of the storage

A reference to a file is looked up under the storage root. It is taken for a relative path whatever
it starts with, and so an absolute path does not lead elsewhere. Double dots are left in it as they
are: a path that has more of them than names before goes above the root, and comes back only where
it names the directories that it left.

Double dots are resolved by the text of a path alone (`Path.place`): each takes back the name before
it, and where there is none it goes above the start of a relative path, and nowhere at the top of an
absolute one.

The place that a reference names is told by `local_path`. Out of scope: links between directories,
which no text tells of.

* `Place.moves_eq`: where a path leads to from any place.
* `under_join_iff`: when a path leads to a place below the one it starts at.
* `never_above_iff`: the paths that never go above their start.
* `under_root_exactly`: the result.
* `climbs_out`: a reference to the system's passwords.
-/

namespace Deskflow

namespace Path

/-! ## Where paths lead -/

/-- A place that a path leads to, seen from where it starts: how many directories up, and the names
from there down, the last one first. -/
structure Place where
  ups : Nat
  names : List String
deriving DecidableEq, Repr

/-- A part further on; `absolute` says that there is nothing above the start. -/
def Place.move (absolute : Bool) (here : Place) (part : String) : Place :=
  if part = ".." then
    match here.names with
    | [] => if absolute then here else ⟨here.ups + 1, []⟩
    | _ :: before => ⟨here.ups, before⟩
  else ⟨here.ups, part :: here.names⟩

/-- Some parts further on. -/
def Place.moves (absolute : Bool) (start : Place) (parts : List String) : Place :=
  parts.foldl (Place.move absolute) start

/-- Where a path leads to. -/
def place (p : Path) : Place := Place.moves (p.root != "") ⟨0, []⟩ p.parts

/-- A path leads to the place of another one, or to a place below it. -/
structure Under (p base : Path) : Prop where
  root : p.root = base.root
  ups : p.place.ups = base.place.ups
  names : base.place.names <:+ p.place.names

instance (p base : Path) : Decidable (p.Under base) :=
  decidable_of_iff
    (p.root = base.root ∧ p.place.ups = base.place.ups ∧ base.place.names <:+ p.place.names)
    ⟨fun h => ⟨h.1, h.2.1, h.2.2⟩, fun h => ⟨h.root, h.ups, h.names⟩⟩

section

variable {absolute : Bool} {here : Place} {part : String} {parts : List String}

theorem Place.move_name (h : part ≠ "..") :
    here.move absolute part = ⟨here.ups, part :: here.names⟩ := if_neg h

theorem Place.move_back (ups : Nat) (name : String) (before : List String) :
    (⟨ups, name :: before⟩ : Place).move absolute ".." = ⟨ups, before⟩ := rfl

theorem Place.move_up (ups : Nat) :
    (⟨ups, []⟩ : Place).move absolute ".." = ⟨ups + if absolute then 0 else 1, []⟩ := by
  cases absolute <;> rfl

theorem Place.moves_snoc :
    here.moves absolute (parts ++ [part]) = (here.moves absolute parts).move absolute part :=
  List.foldl_concat ..

/-- **Where a path leads to from any place**: it takes back as many names as it goes up, and further
up where there are no more, and then goes down its own. -/
theorem Place.moves_eq (start : Place) (parts : List String) :
    start.moves absolute parts =
      let way := Place.moves false ⟨0, []⟩ parts
      ⟨start.ups + if absolute then 0 else way.ups - start.names.length,
        way.names ++ start.names.drop way.ups⟩ := by
  -- By the last part: a double dot takes back a name of the way, or one of the start, or goes up.
  induction parts using List.reverseRecOn with
  | nil => simp [moves]
  | append_singleton parts part ih =>
    dsimp only at ih ⊢
    rw [moves_snoc, moves_snoc, ih]
    generalize Place.moves false ⟨0, []⟩ parts = way
    obtain ⟨ups, names⟩ := way
    by_cases hpart : part = ".."
    · subst hpart
      cases names with
      | cons name before => rw [move_back, List.cons_append, move_back]
      | nil =>
        have htail := List.tail_drop (l := start.names) (i := ups)
        rw [move_up, List.nil_append]
        cases hstart : start.names.drop ups with
        | cons name before =>
          have hlength : ups < start.names.length := by
            by_contra! hlength
            rw [List.drop_eq_nil_of_le hlength] at hstart
            cases hstart
          rw [hstart, List.tail_cons] at htail
          rw [move_back]
          cases absolute
          · simp [← htail]
            omega
          · simp [← htail]
        | nil =>
          have hlength := List.drop_eq_nil_iff.mp hstart
          rw [hstart, List.tail_nil] at htail
          rw [move_up]
          cases absolute
          · simp [← htail]
            omega
          · simp [← htail]
    · rw [move_name hpart, move_name hpart, List.cons_append]

theorem Place.moves_append (start : Place) (parts more : List String) :
    start.moves absolute (parts ++ more) = (start.moves absolute parts).moves absolute more :=
  List.foldl_append

/-- **Where a joined path stays under the first one**: it goes up no further than there are names,
unless there is nothing above, and it goes down again by the names that it took back. -/
theorem under_join_iff {base p : Path} (hp : p.root = "") :
    (base.join p).Under base ↔
      (base.root ≠ "" ∨ p.place.ups ≤ base.place.names.length)
        ∧ base.place.names.take p.place.ups <:+ p.place.names := by
  have hroot : (base.join p).root = base.root := by simp [join, hp]
  have hway : Place.moves false ⟨0, []⟩ p.parts = p.place := by simp [place, hp]
  have hplace : (base.join p).place
      = ⟨base.place.ups + if base.root != "" then 0 else p.place.ups - base.place.names.length,
        p.place.names ++ base.place.names.drop p.place.ups⟩ := by
    rw [place, hroot, join_parts hp, Place.moves_append, ← place, Place.moves_eq, hway]
  have hups : (base.join p).place.ups = base.place.ups ↔
      base.root ≠ "" ∨ p.place.ups ≤ base.place.names.length := by
    rw [hplace]
    by_cases habsolute : base.root = ""
    · simp [habsolute, Nat.sub_eq_zero_iff_le]
    · simp [habsolute]
  have hnames : base.place.names <:+ (base.join p).place.names ↔
      base.place.names.take p.place.ups <:+ p.place.names := by
    rw [hplace]
    constructor
    · rintro ⟨below, hbelow⟩
      refine ⟨below, (List.append_left_inj (base.place.names.drop p.place.ups)).mp ?_⟩
      rw [List.append_assoc, List.take_append_drop, hbelow]
    · rintro ⟨below, hbelow⟩
      refine ⟨below, ?_⟩
      rw [← hbelow, List.append_assoc, List.take_append_drop]
  rw [← hups, ← hnames]
  exact ⟨fun h => ⟨h.ups, h.names⟩, fun h => ⟨hroot, h.1, h.2⟩⟩

/-! ## Paths that never go above their start -/

/-- At no point has a path had more double dots than names. -/
def NeverAbove (p : Path) : Prop :=
  ∀ start, start <+: p.parts → 2 * start.count ".." ≤ start.length

/-- Each part is a name that is left, a double dot that went up, or one of a pair that cancels. -/
theorem Place.length_names_moves (parts : List String) :
    (Place.moves false ⟨0, []⟩ parts).names.length + 2 * parts.count ".."
      = parts.length + (Place.moves false ⟨0, []⟩ parts).ups := by
  induction parts using List.reverseRecOn with
  | nil => rfl
  | append_singleton parts part ih =>
    rw [moves_snoc]
    generalize Place.moves false ⟨0, []⟩ parts = way at ih
    obtain ⟨ups, names⟩ := way
    by_cases hpart : part = ".."
    · subst hpart
      cases names with
      | nil =>
        rw [move_up]
        simp at ih ⊢
        omega
      | cons name before =>
        rw [move_back]
        simp at ih ⊢
        omega
    · rw [move_name hpart]
      simp [hpart] at ih ⊢
      omega

/-- A part goes further up only where there is no name to take back. -/
theorem Place.ups_move (absolute : Bool) (here : Place) (part : String) :
    (here.move absolute part).ups = here.ups
      ∨ here.ups < (here.move absolute part).ups ∧ (here.move absolute part).names = [] := by
  obtain ⟨ups, names⟩ := here
  by_cases hpart : part = ".."
  · subst hpart
    cases names with
    | nil =>
      rw [move_up]
      cases absolute <;> simp
    | cons name before => exact .inl rfl
  · exact .inl (by rw [move_name hpart])

theorem Place.ups_eq_zero_iff (parts : List String) :
    (Place.moves false ⟨0, []⟩ parts).ups = 0 ↔
      ∀ start, start <+: parts → 2 * start.count ".." ≤ start.length := by
  induction parts using List.reverseRecOn with
  | nil => simp [moves]
  | append_singleton parts part ih =>
    have hlength := length_names_moves (parts ++ [part])
    have hups := ups_move false (Place.moves false ⟨0, []⟩ parts) part
    rw [← moves_snoc] at hups
    constructor
    · intro hzero start hstart
      rcases List.prefix_concat_iff.mp hstart with rfl | hstart
      · omega
      · exact ih.mp (by omega) start hstart
    · intro hall
      have hwhole := hall _ (List.prefix_refl _)
      have hzero := ih.mpr fun start hstart => hall start (hstart.trans (List.prefix_append _ _))
      rcases hups with hsame | ⟨-, hnames⟩
      · rw [hsame, hzero]
      -- No names are left, so the whole path has more double dots than it had names.
      · rw [hnames, List.length_nil] at hlength
        omega

/-- **The paths that never go above their start.** -/
theorem never_above_iff {p : Path} (hp : p.root = "") : p.place.ups = 0 ↔ NeverAbove p := by
  rw [NeverAbove, ← Place.ups_eq_zero_iff]
  simp [place, hp]

end

end Path

namespace Media

section

variable (publicPrefix ref : String)

/-- What a reference names under the storage root is a relative path, whatever it starts with. -/
theorem root_relativePath : (relativePath publicPrefix ref).root = "" := by
  rw [relativePath, Path.read, Text.trimStartBy, String.toList_ofList]
  generalize (withoutPrefix publicPrefix ref).toList = cs
  induction cs with
  | nil => rfl
  | cons c cs ih =>
    by_cases hc : c = '/'
    · subst hc
      exact ih
    · rw [List.dropWhile_cons_of_neg (by simpa using hc)]
      unfold Path.rootOf
      split <;> simp_all

/-- Two storages side by side: a path that goes above their root comes back to one of them at
most. -/
theorem exists_not_under (h : 0 < (relativePath publicPrefix ref).place.ups) :
    ∃ storageRoot, Settings.isAbsolute storageRoot = true
      ∧ ¬(localPath storageRoot publicPrefix ref).Under (Path.read storageRoot) := by
  have hone : (localPath "/a" publicPrefix ref).Under (Path.read "/a") ↔ _ :=
    Path.under_join_iff (root_relativePath publicPrefix ref)
  have hother : (localPath "/b" publicPrefix ref).Under (Path.read "/b") ↔ _ :=
    Path.under_join_iff (root_relativePath publicPrefix ref)
  have ha : (Path.read "/a").place = ⟨0, ["a"]⟩ := by decide +kernel
  have hb : (Path.read "/b").place = ⟨0, ["b"]⟩ := by decide +kernel
  rw [ha, List.take_of_length_le h] at hone
  rw [hb, List.take_of_length_le h] at hother
  by_cases hsuffix : ["a"] <:+ (relativePath publicPrefix ref).place.names
  · refine ⟨"/b", by decide +kernel, fun hunder => ?_⟩
    have hsame := List.suffix_of_suffix_length_le hsuffix (hother.mp hunder).2 (Nat.le_refl 1)
    revert hsame
    decide
  · exact ⟨"/a", by decide +kernel, fun hunder => hsuffix (hone.mp hunder).2⟩

end

/-! ## The result -/

/-- **The files that a reference names are those under the storage root**, as far as it does not go
above it. -/
structure StaysUnderRoot (publicPrefix ref : String) : Prop where
  /-- It stays under a root just where it goes up no further than there are names, unless there is
  nothing above, and goes down again by the names that it took back. -/
  exactly : ∀ storageRoot,
    let base := (Path.read storageRoot).place
    let way := (relativePath publicPrefix ref).place
    (localPath storageRoot publicPrefix ref).Under (Path.read storageRoot) ↔
      ((Path.read storageRoot).root ≠ "" ∨ way.ups ≤ base.names.length)
        ∧ base.names.take way.ups <:+ way.names
  /-- A path that at no point has more double dots than names stays under every root, -/
  always : Path.NeverAbove (relativePath publicPrefix ref) →
    ∀ storageRoot, (localPath storageRoot publicPrefix ref).Under (Path.read storageRoot)
  /-- and any other one leaves some root, an absolute path. -/
  otherwise : ¬Path.NeverAbove (relativePath publicPrefix ref) →
    ∃ storageRoot, Settings.isAbsolute storageRoot = true
      ∧ ¬(localPath storageRoot publicPrefix ref).Under (Path.read storageRoot)

theorem under_root_exactly (publicPrefix ref : String) : StaysUnderRoot publicPrefix ref where
  exactly _ := Path.under_join_iff (root_relativePath publicPrefix ref)
  always hnever storageRoot := by
    have hzero := (Path.never_above_iff (root_relativePath publicPrefix ref)).mpr hnever
    refine (Path.under_join_iff (root_relativePath publicPrefix ref)).mpr ⟨.inr ?_, ?_⟩
    · rw [hzero]
      exact Nat.zero_le _
    · rw [hzero, List.take_zero]
      exact List.nil_suffix
  otherwise habove := by
    refine exists_not_under publicPrefix ref (Nat.pos_of_ne_zero fun hzero => habove ?_)
    exact (Path.never_above_iff (root_relativePath publicPrefix ref)).mp hzero

/-- Double dots that take back names of the reference itself do no harm. -/
example :
    (localPath "/srv/storage" "/storage" "images/../a.png").Under (Path.read "/srv/storage") := by
  decide +kernel

/-- **A path out of the storage**: two double dots lead from it to the system's passwords. -/
theorem climbs_out :
    isRemote "../../etc/passwd" = false
      ∧ (localPath "/srv/storage" "/storage" "../../etc/passwd").place
        = (Path.read "/etc/passwd").place
      ∧ ¬(localPath "/srv/storage" "/storage" "../../etc/passwd").Under
          (Path.read "/srv/storage") := by
  decide +kernel

end Media

end Deskflow
