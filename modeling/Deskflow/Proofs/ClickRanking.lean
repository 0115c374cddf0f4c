import Mathlib.Data.List.Find
import Deskflow.Proofs.CallbackCodec
import Deskflow.Proofs.ClickRefusal
import Deskflow.Proofs.HomeSteps

/-!
# Which step a hashed click goes to

Hashed callback data tells the index of a button and a digest, and several stored steps may have
the callback key that it was made from: a step id is unique within an automation only. The click
goes to the first row, by id, of the automations that have a run in the conversation, that is or
holds a step with that key and enough buttons, and in a group to the first such member. A row of
fewer buttons is passed over, and what is stored for other automations does not matter.

This takes that the rows on the way can be read, and that different texts that are hashed for
stored buttons have different digests.

The order is that of `_ranked_steps`, and the search is `_find_step_by_digest`.

* `hasDigest_eq_hasButton`: a digest stands for a callback key and an index.
* `exists_foremost`: where a button is stored, there is a first row that bears it.
* `findDigest?_of_first`: the search for its digest ends there.
* `resolves_by_rank`: the result.
-/

namespace Deskflow

namespace Click

/-! ## Searching for a digest -/

section

variable {digest : String} {index : Nat} {t : Step}

theorem findDigest?_append_of_passedOver {before : List StepRow}
    (h : ∀ r ∈ before, PassedOver digest index r) (rest : List StepRow) :
    findDigest? digest index (before ++ rest) = findDigest? digest index rest := by
  induction before with
  | nil => rfl
  | cons r before ih =>
    rw [List.cons_append, findDigest?_of_passedOver (h r List.mem_cons_self),
      ih fun q hq => h q (List.mem_cons_of_mem r hq)]

/-- A search for a digest finds the first step with it in a row, where all rows before are passed
over. The rows after are not read. -/
theorem findDigest?_of_split {before after : List StepRow} {row : StepRow} {step : Step}
    (hbefore : ∀ r ∈ before, PassedOver digest index r) (hparse : Step.parse row.draft = .ok step)
    (hfind : (candidatesOf step).find? (hasDigest digest index) = some t) :
    findDigest? digest index (before ++ row :: after) = .ok (some t) := by
  rw [findDigest?_append_of_passedOver hbefore, findDigest?_cons hparse, hfind]

end

/-! ## Rows that bear a button -/

/-- The steps that a row stands for; one that cannot be read stands for none. -/
def candidatesOfRow (r : StepRow) : List Step :=
  match Step.parse r.draft with
  | .ok step => candidatesOf step
  | .error _ => []

theorem candidatesOfRow_of_parse {r : StepRow} {step : Step} (h : Step.parse r.draft = .ok step) :
    candidatesOfRow r = candidatesOf step := by
  simp [candidatesOfRow, h]

/-- Whether a step has a callback key, and a button at an index. -/
def hasButton (key : String) (index : Nat) (t : Step) : Bool :=
  match buttonsOf? t with
  | some buttons => index < buttons.length && t.head.callbackKey == key
  | none => false

/-- The first step in a row with a callback key and a button at an index. -/
def bearer? (key : String) (index : Nat) (r : StepRow) : Option Step :=
  (candidatesOfRow r).find? (hasButton key index)

/-- The texts that are hashed for the buttons of a step. -/
def textsOf (t : Step) : List String :=
  (List.range ((buttonsOf? t).getD []).length).map (Callback.hashedText t.head.callbackKey)

/-- The texts that are hashed for the buttons of stored steps. -/
def hashedTexts (rows : List StepRow) : List String :=
  (rows.flatMap candidatesOfRow).flatMap textsOf

/-- Of the texts that are hashed for stored buttons no two have the same digest. -/
def DigestsDiffer (rows : List StepRow) : Prop :=
  ∀ text ∈ hashedTexts rows, ∀ other ∈ hashedTexts rows,
    Callback.shortDigest text = Callback.shortDigest other → text = other

instance (rows : List StepRow) : Decidable (DigestsDiffer rows) :=
  inferInstanceAs (Decidable (∀ text ∈ hashedTexts rows, ∀ other ∈ hashedTexts rows,
    Callback.shortDigest text = Callback.shortDigest other → text = other))

section

variable {rows : List StepRow} {r : StepRow} {key : String} {index : Nat} {t : Step}

theorem hasButton_iff :
    hasButton key index t = true ↔
      (∃ buttons, buttonsOf? t = some buttons ∧ index < buttons.length)
        ∧ t.head.callbackKey = key := by
  unfold hasButton
  cases buttonsOf? t <;> simp

theorem hasDigest_iff {digest : String} :
    hasDigest digest index t = true ↔
      (∃ buttons, buttonsOf? t = some buttons ∧ index < buttons.length)
        ∧ Callback.digest t.head.callbackKey index = digest := by
  unfold hasDigest
  cases buttonsOf? t <;> simp

theorem mem_hashedTexts (hr : r ∈ rows) (ht : t ∈ candidatesOfRow r) {buttons : List Button}
    (hbuttons : buttonsOf? t = some buttons) (hindex : index < buttons.length) :
    Callback.hashedText t.head.callbackKey index ∈ hashedTexts rows := by
  refine List.mem_flatMap.mpr ⟨t, List.mem_flatMap.mpr ⟨r, hr, ht⟩, ?_⟩
  exact List.mem_map.mpr ⟨index, by simpa [hbuttons] using hindex, rfl⟩

theorem exists_of_bearer? (h : bearer? key index r = some t) :
    t ∈ candidatesOfRow r ∧ (∃ buttons, buttonsOf? t = some buttons ∧ index < buttons.length)
      ∧ t.head.callbackKey = key :=
  ⟨List.mem_of_find?_eq_some h, hasButton_iff.mp (List.find?_some h)⟩

/-- **A digest stands for a callback key and an index** among stored steps. -/
theorem hasDigest_eq_hasButton (hdiffer : DigestsDiffer rows)
    (hkey : Callback.hashedText key index ∈ hashedTexts rows) (hr : r ∈ rows)
    (ht : t ∈ candidatesOfRow r) :
    hasDigest (Callback.digest key index) index t = hasButton key index t := by
  rw [Bool.eq_iff_iff, hasDigest_iff, hasButton_iff]
  refine and_congr_right fun ⟨buttons, hbuttons, hindex⟩ => ⟨fun hsame => ?_, fun hsame => ?_⟩
  · rw [Callback.digest_eq_shortDigest, Callback.digest_eq_shortDigest] at hsame
    have htexts := hdiffer _ (mem_hashedTexts hr ht hbuttons hindex) _ hkey hsame
    exact (Callback.hashedText_injective htexts).1
  · rw [hsame]

theorem exists_parse_of_mem_candidatesOfRow (h : t ∈ candidatesOfRow r) :
    ∃ step, Step.parse r.draft = .ok step ∧ t ∈ candidatesOf step := by
  unfold candidatesOfRow at h
  split at h
  · exact ⟨_, ‹_›, h⟩
  · cases h

theorem mem_singlesOf_of_candidate {head : StepHead} {action : StepAction} {step : Step}
    (h : .single head action ∈ candidatesOf step) : (head, action) ∈ step.singlesOf := by
  cases step with
  | single head' action' =>
    cases List.mem_singleton.mp h
    exact List.mem_singleton.mpr rfl
  | group head' name members =>
    rw [Step.singlesOf, Step.singles_eq_flatMap]
    exact List.mem_flatMap_of_mem h (List.mem_singleton.mpr rfl)

/-- A row that bears a button is one that is looked at for a digest. -/
theorem mayBear_of_bearer? (h : bearer? key index r = some t) : mayBear r = true := by
  obtain ⟨ht, ⟨buttons, hbuttons, -⟩, -⟩ := exists_of_bearer? h
  obtain ⟨step, hparse, ht⟩ := exists_parse_of_mem_candidatesOfRow ht
  unfold buttonsOf? at hbuttons
  split at hbuttons
  · exact mayBear_of_parse hparse (mem_singlesOf_of_candidate ht)
  · cases hbuttons

theorem key_ne_empty_of_bearer? (h : bearer? key index r = some t) : key ≠ "" := by
  obtain ⟨ht, -, rfl⟩ := exists_of_bearer? h
  obtain ⟨step, hparse, ht⟩ := exists_parse_of_mem_candidatesOfRow ht
  exact Step.callbackKey_ne_empty hparse (mem_entriesOf_of_candidate ht)

/-- In a row, the first step with a digest is the first with the callback key and the index. -/
theorem find?_hasDigest_eq_bearer? (hdiffer : DigestsDiffer rows)
    (hkey : Callback.hashedText key index ∈ hashedTexts rows) (hr : r ∈ rows) :
    (candidatesOfRow r).find? (hasDigest (Callback.digest key index) index)
      = bearer? key index r :=
  List.find?_congr fun _ ht => hasDigest_eq_hasButton hdiffer hkey hr ht

end

/-! ## The row that comes first -/

/-- Of some rows the one with the least id that bears a button, with its first step that does. -/
structure Foremost (rows : List StepRow) (key : String) (index : Nat) (row : StepRow) (t : Step) :
    Prop where
  stored : row ∈ rows
  bears : bearer? key index row = some t
  least : ∀ r ∈ rows, (bearer? key index r).isSome → row.id ≤ r.id

section

variable {rows : List StepRow} {key : String} {index : Nat}

/-- Where a row bears a button there is a foremost one, and no row before it does. -/
theorem exists_foremost (sorted : rows.Pairwise fun a b => a.id < b.id) {r : StepRow}
    (hr : r ∈ rows) (hbears : (bearer? key index r).isSome) :
    ∃ row t before after, Foremost rows key index row t ∧ rows = before ++ row :: after
      ∧ ∀ q ∈ before, bearer? key index q = none := by
  have hfirst : (rows.find? fun q => (bearer? key index q).isSome).isSome :=
    List.find?_isSome.mpr ⟨r, hr, hbears⟩
  obtain ⟨row, hrow⟩ := Option.isSome_iff_exists.mp hfirst
  obtain ⟨hsome, before, after, rfl, hbefore⟩ := List.find?_eq_some_iff_append.mp hrow
  obtain ⟨t, ht⟩ := Option.isSome_iff_exists.mp hsome
  have hnone : ∀ q ∈ before, bearer? key index q = none := by simpa using hbefore
  refine ⟨row, t, before, after, ⟨by simp, ht, fun q hq hbears => ?_⟩, rfl, hnone⟩
  rcases List.mem_append.mp hq with hq | hq
  · rw [hnone q hq] at hbears
    cases hbears
  · rcases List.mem_cons.mp hq with rfl | hq
    · exact le_rfl
    · exact ((List.pairwise_cons.mp (List.pairwise_append.mp sorted).2.1).1 q hq).le

/-- **The search for a digest finds the first step that bears the button**, whatever rows come
after the one it is in. -/
theorem findDigest?_of_first {before after : List StepRow} {row : StepRow} {t : Step}
    (readable : ∀ r ∈ before ++ row :: after, mayBear r = true →
      ∃ step, Step.parse r.draft = .ok step)
    (hdiffer : DigestsDiffer (before ++ row :: after))
    (hbefore : ∀ q ∈ before, bearer? key index q = none) (hrow : bearer? key index row = some t)
    (more : List StepRow) :
    findDigest? (Callback.digest key index) index
        (((before ++ row :: after) ++ more).filter mayBear) = .ok (some t) := by
  have hmem : row ∈ before ++ row :: after := by simp
  have hkey : Callback.hashedText key index ∈ hashedTexts (before ++ row :: after) := by
    obtain ⟨ht, ⟨buttons, hbuttons, hindex⟩, rfl⟩ := exists_of_bearer? hrow
    exact mem_hashedTexts hmem ht hbuttons hindex
  have hmay := mayBear_of_bearer? hrow
  obtain ⟨step, hparse⟩ := readable row hmem hmay
  have hpassed : ∀ q ∈ before.filter mayBear, PassedOver (Callback.digest key index) index q := by
    intro q hq
    obtain ⟨hq, hqmay⟩ := List.mem_filter.mp hq
    have hqmem : q ∈ before ++ row :: after := List.mem_append_left _ hq
    obtain ⟨other, hother⟩ := readable q hqmem hqmay
    have hnone := (find?_hasDigest_eq_bearer? hdiffer hkey hqmem).trans (hbefore q hq)
    rw [candidatesOfRow_of_parse hother] at hnone
    exact (passedOver_iff hother).mpr hnone
  have hfind := (find?_hasDigest_eq_bearer? hdiffer hkey hmem).trans hrow
  rw [candidatesOfRow_of_parse hparse] at hfind
  rw [List.append_assoc, List.filter_append, List.cons_append, List.filter_cons_of_pos hmay]
  exact findDigest?_of_split hpassed hparse hfind

end

/-- **A hashed click goes by rank**: a click on the button at an index of a step `u`, of an
automation that has a run in the conversation, goes to the button at that index of the foremost step
with its callback key and enough buttons among the steps of such automations, whatever is stored for
others. Of the rows it is only theirs that must be readable, and have digests that differ. -/
theorem resolves_by_rank {s : Store} {c : Int} (sorted : s.steps.Pairwise fun a b => a.id < b.id)
    (readable : ∀ r ∈ home s c, mayBear r = true → ∃ step, Step.parse r.draft = .ok step)
    (hdiffer : DigestsDiffer (home s c)) {r : StepRow} {u : Step} {key : String} {index : Nat}
    (hr : r ∈ home s c) (hu : u ∈ candidatesOfRow r) (hbutton : hasButton key index u = true)
    (hform : Callback.encode key index = Callback.hashed key index) :
    ∃ row t buttons button, Foremost (home s c) key index row t ∧ buttonsOf? t = some buttons
      ∧ buttons[index]? = some button
      ∧ Undisturbed s c (Callback.encode key index) button := by
  have hhomeSorted : (home s c).Pairwise fun a b => a.id < b.id :=
    sorted.sublist List.filter_sublist
  have hbears : (bearer? key index r).isSome := List.find?_isSome.mpr ⟨u, hu, hbutton⟩
  obtain ⟨row, t, before, after, hfirst, hsplit, hbefore⟩ :=
    exists_foremost hhomeSorted hr hbears
  obtain ⟨-, ⟨buttons, hbuttons, hlt⟩, -⟩ := exists_of_bearer? hfirst.bears
  refine ⟨row, t, buttons, buttons[index], hfirst, hbuttons, List.getElem?_eq_getElem hlt, ?_⟩
  intro v hv hhome
  have hkey := key_ne_empty_of_bearer? hfirst.bears
  obtain ⟨hlong, hindex⟩ := (Callback.encode_eq_hashed_iff hkey).mp hform
  have hread := Callback.read?_encode hkey hindex
  rw [Callback.refOf, if_neg hlong] at hread
  rw [run_findButton hv hread, sought_some, hhome]
  have hstep : stepOfRef? (home s c ++ foreign v c) (.hashed (Callback.digest key index) index)
      = .ok (some t) := by
    rw [hsplit] at readable hdiffer ⊢
    exact findDigest?_of_first readable hdiffer hbefore hfirst.bears (foreign v c)
  unfold buttonOf?
  rw [hstep]
  simp [bind, Except.bind, pure, Except.pure, hbuttons, Callback.Ref.index, hlt]

/-! ## A leaflet and a folder -/

/-- The id of a group, so long that the callback data of its members is hashed. -/
def longId : String := "a-folder-that-is-handed-out-to-guests-who-stay-for-a-year"

/-- The settings of a step with buttons of some texts. -/
def choices (texts : List String) : Value :=
  .object [("text", .str "Pick"),
    ("buttons", .list (texts.map fun text => .object [("text", .str text),
      ("action", .str "send_text"), ("action_config", .object [("text", .str text)])]))]

/-- A step of automation 1 with a button, whose id is that of a member of the folder. -/
def leaflet : StepRow :=
  { id := 1, automationId := 1, stepId := longId ++ "-s1", kind := buttonsKind,
    config := choices ["Map"], position := .null, order := 0, nextStepId := none,
    trueStepId := none, falseStepId := none }

/-- A group of automation 2, whose second member has two buttons. -/
def folder : StepRow :=
  { id := 2, automationId := 2, stepId := longId, kind := groupKind,
    config := .object [("steps", .list [.object [("type", .str "close_conversation")],
      .object [("type", .str buttonsKind), ("config", choices ["Rules", "Prices"])]])],
    position := .null, order := 0, nextStepId := none, trueStepId := none, falseStepId := none }

/-- Automations 1 and 2 ran in conversation 1. -/
def handedOut : Store :=
  { steps := [leaflet, folder], runs := [ranOnce, { ranOnce with id := 2, automationId := 2 }] }

/-- The second button of the folder. -/
def prices : Button := ⟨"Prices", none, some "send_text", [("text", .str "Prices")]⟩

/-- The second member of the folder. -/
def folded : Step :=
  .single { placed (longId ++ "-s1") buttonsKind with order := 1 }
    (.sendButtons "Pick" "" [⟨"Rules", none, some "send_text", [("text", .str "Rules")]⟩, prices])

theorem home_handedOut : home handedOut 1 = [leaflet, folder] := by decide +kernel

theorem candidatesOfRow_folder :
    candidatesOfRow folder
      = [.single (placed (longId ++ "-s0") "close_conversation") .close, folded] := by rfl

theorem bearer?_folder : bearer? (longId ++ "-s1") 1 folder = some folded := by
  have hclose : hasButton (longId ++ "-s1") 1
      (.single (placed (longId ++ "-s0") "close_conversation") .close) = false := rfl
  have hfolded : hasButton (longId ++ "-s1") 1 folded = true := by decide +kernel
  rw [bearer?, candidatesOfRow_folder, List.find?_cons_of_neg (by simp [hclose]),
    List.find?_cons_of_pos hfolded]

/-- The leaflet comes first, but has no second button: the click goes to the folder. -/
theorem resolves_by_rank_folder :
    Undisturbed handedOut 1 (Callback.encode (longId ++ "-s1") 1) prices := by
  have hreadable : ∀ r ∈ home handedOut 1, mayBear r = true →
      ∃ step, Step.parse r.draft = .ok step := by
    intro r hr _
    rw [home_handedOut] at hr
    rcases List.mem_cons.mp hr with rfl | hr
    · exact ⟨_, rfl⟩
    · obtain rfl := List.mem_singleton.mp hr
      exact ⟨_, rfl⟩
  have hdiffer : DigestsDiffer (home handedOut 1) := by
    rw [home_handedOut]
    decide +kernel
  obtain ⟨row, t, buttons, button, hfirst, hbuttons, hbutton, hall⟩ :=
    @resolves_by_rank handedOut 1 (by decide) hreadable hdiffer folder folded (longId ++ "-s1") 1
      (by decide +kernel) (by simp [candidatesOfRow_folder]) (by decide +kernel)
      (by decide +kernel)
  have hleaflet : (bearer? (longId ++ "-s1") 1 leaflet).isSome = false := by decide +kernel
  have hstored := hfirst.stored
  have hbears := hfirst.bears
  rw [home_handedOut] at hstored
  rcases List.mem_cons.mp hstored with rfl | hrow
  · rw [hbears] at hleaflet
    cases hleaflet
  · obtain rfl := List.mem_singleton.mp hrow
    rw [bearer?_folder] at hbears
    cases hbears
    cases hbuttons
    cases hbutton
    exact hall

end Click

end Deskflow
