import Mathlib.Data.Fintype.EquivFin
import Deskflow.Proofs.FindButton

/-!
# Clicks and automations that never ran here

A click in a conversation looks at the steps of automations that have a run there, its home steps,
before all others. But it looks twice: for a group that the key may be a member of, and only then
for a step with buttons of that key. Each time the home steps come first, and so a group of any
automation comes before a home step whose id only looks like the key of a member.

Both looks are in `_find_step`, each at what `_ranked_steps` puts first.

* `stepOfKey?_append`: a key that is settled among the first rows is settled by them alone.
* `exists_disturbance`: a key that is not settled among the home steps can be kept from its button.
* `undisturbed_iff`: exactly which buttons are found whatever is stored for other automations.
* `not_always_undisturbed`: not all that are the only ones of their key here.
-/

namespace Deskflow

namespace Click

/-- The stored steps of automations that have a run in a conversation. -/
def home (s : Store) (c : Int) : List StepRow :=
  s.steps.filter fun r => (ranIn s.runs c).contains r.automationId

/-- The stored steps of all other automations. -/
def foreign (s : Store) (c : Int) : List StepRow :=
  s.steps.filter fun r => !(ranIn s.runs c).contains r.automationId

theorem sought_some (s : Store) (c : Int) : sought s (some c) = home s c ++ foreign s c := rfl

/-- Whatever is stored for automations that have no run in a conversation, callback data leads to a
button there. -/
def Undisturbed (s : Store) (c : Int) (data : String) (button : Button) : Prop :=
  ∀ t, Searchable t (some c) → home t c = home s c →
    (findButton data (some c)).run t = .ok (some button, t)

/-! ## Settled keys -/

/-- Whether a row ends the search for a key: a group that the key is a member of by its form, or
else a step with buttons of that id. -/
def ends (key : String) : StepRow → Bool :=
  match Callback.memberOf? key with
  | some (group, _) => isFor group groupKind
  | none => isFor key buttonsKind

/-- Among some rows there is one that ends the search for a key. -/
def Settled (rows : List StepRow) (key : String) : Prop := ∃ r ∈ rows, ends key r = true

theorem stepOf?_append {rows : List StepRow} {stepId kind : String}
    (h : ∃ r ∈ rows, isFor stepId kind r = true) (more : List StepRow) :
    stepOf? (rows ++ more) stepId kind = stepOf? rows stepId kind := by
  obtain ⟨r, hr⟩ := Option.isSome_iff_exists.mp (List.find?_isSome.mpr h)
  simp [stepOf?, hr]

/-- A group that is found is one. -/
theorem members?_of_stepOf? {rows : List StepRow} {group : String} {t : Step}
    (h : stepOf? rows group groupKind = .ok (some t)) : ∃ members, members? t = some members := by
  obtain ⟨r, hfind, hparse⟩ := stepOf?_eq_some.mp h
  obtain ⟨-, -, hkind⟩ := mem_of_find?_isFor hfind
  obtain ⟨head, name, members, rfl⟩ := Step.group_of_parse hparse hkind
  exact ⟨members, rfl⟩

/-- **A key that is settled among the first rows is settled by them alone.** -/
theorem stepOfKey?_append {rows : List StepRow} {key : String} (h : Settled rows key)
    (more : List StepRow) : stepOfKey? (rows ++ more) key = stepOfKey? rows key := by
  unfold Settled ends at h
  unfold stepOfKey?
  cases hmember : Callback.memberOf? key with
  | none =>
    rw [hmember] at h
    exact stepOf?_append h more
  | some p =>
    rw [hmember] at h
    simp only
    rw [stepOf?_append h more]
    -- The id of a step with buttons is looked up only where no group was found.
    cases hgroup : stepOf? rows p.1 groupKind with
    | error fault => rfl
    | ok found =>
      cases found with
      | none =>
        obtain ⟨r, hr, hfor⟩ := h
        exact absurd hfor (List.find?_eq_none.mp (stepOf?_eq_none.mp hgroup) r hr)
      | some t =>
        obtain ⟨members, ht⟩ := members?_of_stepOf? hgroup
        simp [bind, Except.bind, ht]

/-- A group of an id with nothing in it. -/
def emptyGroup (automationId : Int) (stepId : String) : StepRow :=
  { id := 0, automationId, stepId, kind := groupKind, config := .object [], position := .null,
    order := 0, nextStepId := none, trueStepId := none, falseStepId := none }

/-- The group that the key of a member names, and for any other key one that is no one's. -/
def decoy (automationId : Int) (key : String) : StepRow :=
  emptyGroup automationId ((Callback.memberOf? key).map Prod.fst |>.getD "")

theorem stepOf?_decoy {rows : List StepRow} {group index key : String}
    (hmember : Callback.memberOf? key = some (group, index))
    (h : ∀ r ∈ rows, isFor group groupKind r = false) (automationId : Int) :
    ∃ head name,
      stepOf? (rows ++ [decoy automationId key]) group groupKind
        = .ok (some (.group head name [])) := by
  have hrows : rows.find? (isFor group groupKind) = none := by simpa using h
  have hfor : isFor group groupKind (decoy automationId key) = true := by
    simp [isFor, decoy, emptyGroup, hmember]
  refine ⟨_, _, stepOf?_eq_some.mpr ⟨decoy automationId key, ?_, rfl⟩⟩
  rw [List.find?_append, hrows]
  simp [hfor]

/-- Beside a decoy, a key that is not settled leads nowhere. -/
theorem stepOfKey?_decoy {rows : List StepRow} {key : String} (h : ¬ Settled rows key)
    (automationId : Int) {t : Step} :
    stepOfKey? (rows ++ [decoy automationId key]) key ≠ .ok (some t) := by
  intro hfound
  have hrows : ∀ r ∈ rows, ends key r = false := by simpa [Settled] using h
  unfold ends at hrows
  unfold stepOfKey? at hfound
  cases hmember : Callback.memberOf? key with
  | none =>
    rw [hmember] at hrows hfound
    obtain ⟨r, hfind, -⟩ := stepOf?_eq_some.mp hfound
    obtain ⟨hr, hid, hkind⟩ := mem_of_find?_isFor hfind
    rcases List.mem_append.mp hr with hr | hr
    · have := hrows r hr
      simp [isFor, hid, hkind] at this
    · obtain rfl := List.mem_singleton.mp hr
      simp [decoy, emptyGroup, groupKind, buttonsKind] at hkind
  | some p =>
    obtain ⟨group, index⟩ := p
    rw [hmember] at hrows hfound
    obtain ⟨head, name, hdecoy⟩ := stepOf?_decoy hmember hrows automationId
    obtain ⟨_, hgroup, hfound⟩ := Fault.bind_eq_ok.mp hfound
    cases hdecoy.symm.trans hgroup
    obtain ⟨_, -, hfound⟩ := Fault.bind_eq_ok.mp hfound
    cases hfound

/-- **A key that is not settled among the home steps can be kept from its button** by what is
stored for an automation that never ran here. -/
theorem exists_disturbance {s : Store} {c : Int} (hs : Searchable s (some c)) {key : String}
    (h : ¬ Settled (home s c) key) :
    ∃ t, Searchable t (some c) ∧ home t c = home s c ∧
      ∀ step, stepOfKey? (sought t (some c)) key ≠ .ok (some step) := by
  obtain ⟨other, hother⟩ := Infinite.exists_notMem_finset (ranIn s.runs c).toFinset
  have hnever : (decoy other key).automationId ∉ ranIn s.runs c := by
    simpa [decoy, emptyGroup] using hother
  let t : Store := { s with steps := home s c ++ [decoy other key] }
  have hhome : home t c = home s c := by
    change (home s c ++ [decoy other key]).filter _ = home s c
    rw [List.filter_append, List.filter_cons_of_neg (by simpa [t] using hnever)]
    simp [home, t, List.filter_filter]
  have hforeign : foreign t c = [decoy other key] := by
    change (home s c ++ [decoy other key]).filter _ = [decoy other key]
    rw [List.filter_append, List.filter_cons_of_pos (by simpa [t] using hnever)]
    simp [home, t, List.filter_filter]
  refine ⟨t, ⟨hs.steps, hs.runs⟩, hhome, fun step => ?_⟩
  rw [sought_some, hhome, hforeign]
  exact stepOfKey?_decoy h other

/-! ## Buttons that are found whatever else is stored -/

/-- Whether the key of `target`, which lies in the step of a row, leads to it whatever is stored
after the rows. A row has to have an id of its own, and one that does not look like the key of a
member. A member of a group has to lie in it directly; the group's id must not hold a line feed, and
no group of that id may come before it. -/
def Secluded (rows : List StepRow) (row : StepRow) (key : String) (target : Step) : Step → Prop
  | .single _ _ => row.stepId ≠ "" ∧ Callback.memberOf? key = none
  | .group _ _ members =>
    target ∈ members ∧ '\n' ∉ (Step.idOf row.draft).toList
      ∧ rows.find? (isFor (Step.idOf row.draft) groupKind) = some row

section

variable {rows : List StepRow} {row : StepRow} {step : Step} {head : StepHead}
  {text imageUrl : String} {buttons : List Button}

/-- A row with buttons ends the search for its own id. -/
theorem settled_of_row (h : Sole rows row step head (.sendButtons text imageUrl buttons))
    (hstep : step = .single head (.sendButtons text imageUrl buttons)) (hne : row.stepId ≠ "")
    (hmember : Callback.memberOf? head.callbackKey = none) : Settled rows head.callbackKey := by
  have hparsed := h.parsed
  rw [hstep] at hparsed
  have hkind : row.kind = buttonsKind := Step.kind_of_parse_sendButtons hparsed
  have hid : row.stepId = head.callbackKey := by
    rw [← Step.idOf_of_ne_empty hne]
    exact (Step.callbackKey_of_parse hparsed).symm
  refine ⟨row, h.stored, ?_⟩
  simp [ends, hmember, isFor, hid, hkind]

/-- A group ends the search for the keys of its members. -/
theorem settled_of_group {head' : StepHead} {name : String} {members : List Step}
    {action : StepAction} (h : Sole rows row (.group head' name members) head action)
    (hmember : .single head action ∈ members) (hline : '\n' ∉ (Step.idOf row.draft).toList)
    (hfirst : rows.find? (isFor (Step.idOf row.draft) groupKind) = some row) :
    Settled rows head.callbackKey := by
  obtain ⟨place, hplace⟩ := Step.Keyed.exists_place (Step.keyed_of_parse h.parsed) hmember
  have hkey : head.callbackKey = memberKey (Step.idOf row.draft) place := hplace
  refine ⟨row, h.stored, ?_⟩
  unfold ends
  rw [hkey, Callback.memberOf?_memberKey, if_neg (by simpa [Step.idOf_ne_empty] using hline)]
  exact List.find?_some hfirst

/-- A step is secluded where its key leads to it among the rows and is settled there. -/
theorem secluded_iff (h : Sole rows row step head (.sendButtons text imageUrl buttons)) :
    Secluded rows row head.callbackKey (.single head (.sendButtons text imageUrl buttons)) step ↔
      FoundByKey rows row head.callbackKey (.single head (.sendButtons text imageUrl buttons)) step
        ∧ Settled rows head.callbackKey := by
  cases step with
  | single head' action' =>
    have hstep : Step.single head' action' = .single head (.sendButtons text imageUrl buttons) := by
      cases List.mem_singleton.mp h.inside
      rfl
    constructor
    · rintro ⟨hne, hmember⟩
      refine ⟨⟨hne, fun group index hsome => ?_⟩, settled_of_row h hstep hne hmember⟩
      rw [hmember] at hsome
      cases hsome
    · rintro ⟨⟨hne, hgroups⟩, r, hr, hends⟩
      refine ⟨hne, ?_⟩
      cases hmember : Callback.memberOf? head.callbackKey with
      | none => rfl
      | some p =>
        unfold ends at hends
        rw [hmember] at hends
        exact absurd hends (List.find?_eq_none.mp (hgroups p.1 p.2 hmember) r hr)
  | group head' name members =>
    constructor
    · intro hfound
      exact ⟨hfound, settled_of_group h hfound.1 hfound.2.1 hfound.2.2⟩
    · exact And.left

/-- **Exactly which buttons are found whatever is stored for automations that never ran here**,
among those whose key is there once in the steps of automations that did. The callback data is in
plain form. -/
theorem undisturbed_iff {s : Store} {c : Int} (hs : Searchable s (some c))
    (h : Sole (home s c) row step head (.sendButtons text imageUrl buttons)) {index : Nat}
    {button : Button} {label data : String} (hbutton : buttons[index]? = some button)
    (hkey : Callback.keyFor? head.callbackKey button index = some ⟨label, .callback data⟩)
    (hshort : (Callback.plain head.callbackKey index).utf8ByteSize ≤ Callback.plainLimit) :
    Undisturbed s c data button ↔
      Secluded (home s c) row head.callbackKey
        (.single head (.sendButtons text imageUrl buttons)) step := by
  have hlen : head.callbackKey.toList.length ≤ Numeral.maxDigits := by
    have hplain := Callback.plain_length_le hshort
    rw [Callback.plain_toList, List.length_append, Callback.plainLimit] at hplain
    rw [Numeral.maxDigits]
    omega
  have hread : Callback.read? data = .ok (some (.plain head.callbackKey index)) := by
    rw [data_of_keyFor? hkey]
    exact Callback.read?_encode_short h.key_ne_empty hshort
  rw [secluded_iff h]
  constructor
  · intro hall
    have hsettled : Settled (home s c) head.callbackKey := by
      by_contra hopen
      obtain ⟨t, ht, hhome, hnone⟩ := exists_disturbance hs hopen
      obtain ⟨found, hfound, hsome⟩ :=
        Fault.bind_eq_ok.mp ((run_findButton ht hread).mp (hall t ht hhome))
      cases found with
      | none => cases hsome
      | some u => exact hnone u hfound
    refine ⟨?_, hsettled⟩
    -- What is settled by the home steps is found in them, whatever comes after.
    obtain ⟨found, hfound, hsome⟩ :=
      Fault.bind_eq_ok.mp ((run_findButton hs hread).mp (hall s hs rfl))
    change stepOfKey? (home s c ++ foreign s c) head.callbackKey = .ok found at hfound
    rw [stepOfKey?_append hsettled] at hfound
    cases found with
    | none => cases hsome
    | some u => exact (h.of_stepOfKey? hfound).2
  · rintro ⟨hfound, hsettled⟩ t ht hhome
    rw [run_findButton ht hread, sought_some, hhome]
    have hstep (u : Step) :
        stepOfRef? (home s c ++ foreign t c) (.plain head.callbackKey index) = .ok (some u) ↔
          u = .single head (.sendButtons text imageUrl buttons) ∧
            FoundByKey (home s c) row head.callbackKey
              (.single head (.sendButtons text imageUrl buttons)) step := by
      rw [stepOfRef?, stepOfKey?_append hsettled]
      exact stepOfKey?_iff h hlen
    exact (buttonOf?_iff hstep hbutton).mpr hfound

end

/-! ## A menu and a postcard -/

/-- Automation 1 ran in conversation 1, and nothing else did. -/
def ranOnce : Run :=
  { id := 1, automationId := 1, conversationId := 1, clientId := none, status := "completed",
    triggerData := .null, stepsExecuted := .list [], error := none, startedAt := none,
    completedAt := none }

/-- What is stored when only automation 1 ever ran. -/
def visited (steps : List StepRow) : Store := { steps, runs := [ranOnce] }

theorem searchable_visited (steps : List StepRow) : Searchable (visited steps) (some 1) :=
  ⟨rfl, fun _ h => by cases h; exact ⟨rfl, rfl⟩⟩

/-- A button in a group of the automation that ran is found whatever else is stored. -/
theorem undisturbed_iff_menu : Undisturbed (visited [menu [offer]]) 1 "s1-s0:0" info := by
  have hsole : Sole (home (visited [menu [offer]]) 1) (menu [offer])
      (menuStep [.single (placed "s1-s0" buttonsKind) offering]) (placed "s1-s0" buttonsKind)
      offering :=
    { stored := List.mem_singleton.mpr rfl
      parsed := by rfl
      inside := List.mem_singleton.mpr rfl
      unique := by decide +kernel }
  have hbutton : [info][0]? = some info := rfl
  have hkey : Callback.keyFor? (placed "s1-s0" buttonsKind).callbackKey info 0
      = some ⟨"Info", .callback "s1-s0:0"⟩ := by decide +kernel
  refine (undisturbed_iff (searchable_visited _) hsole hbutton hkey (by decide +kernel)).mpr ?_
  exact ⟨List.mem_singleton.mpr rfl, by decide +kernel, by decide +kernel⟩

/-- The row of a step with a button, whose id looks like the key of a member. -/
def postcard : StepRow :=
  { id := 1, automationId := 1, stepId := "menu-s1", kind := buttonsKind,
    config := .object [("text", .str "Pick"),
      ("buttons", .list [.object [("text", .str "Info"), ("action", .str "send_text"),
        ("action_config", .object [("text", .str "We are open.")])]])],
    position := .null, order := 0, nextStepId := none, trueStepId := none, falseStepId := none }

/-- The head of the step of the postcard. -/
def postcardHead : StepHead := { stepId := "menu-s1", kind := buttonsKind, rowId := some 1 }

/-- The row of a group of an automation that never ran, with a button in second place. -/
def intruder : StepRow :=
  { id := 2, automationId := 2, stepId := "menu", kind := groupKind,
    config := .object [("steps", .list [.object [("type", .str "close_conversation")],
      .object [("type", .str buttonsKind),
        ("config", .object [("text", .str "Pick"),
          ("buttons", .list [.object [("text", .str "Offers"), ("action", .str "send_text"),
            ("action_config", .object [("text", .str "Buy now.")])]])])]])],
    position := .null, order := 0, nextStepId := none, trueStepId := none, falseStepId := none }

/-- The button of the intruder. -/
def offers : Button := ⟨"Offers", none, some "send_text", [("text", .str "Buy now.")]⟩

theorem sole_postcard : Sole (home (visited [postcard]) 1) postcard (.single postcardHead offering)
    postcardHead offering where
  stored := List.mem_singleton.mpr rfl
  parsed := by rfl
  inside := List.mem_singleton.mpr rfl
  unique := by decide +kernel

/-- A button can be the only one of its key among the steps of automations that ran here, and a
click on it be answered with that of an automation that never did. -/
theorem not_always_undisturbed :
    ¬ ∀ (s : Store) (c : Int) (row : StepRow) (step : Step) (head : StepHead)
        (text imageUrl : String) (buttons : List Button) (index : Nat) (button : Button)
        (label data : String),
      Searchable s (some c) →
      Sole (home s c) row step head (.sendButtons text imageUrl buttons) →
      buttons[index]? = some button →
      Callback.keyFor? head.callbackKey button index = some ⟨label, .callback data⟩ →
      (Callback.plain head.callbackKey index).utf8ByteSize ≤ Callback.plainLimit →
      Undisturbed s c data button := by
  intro h
  have hall := h _ 1 _ _ _ _ _ _ 0 info "Info" "menu-s1:0" (searchable_visited [postcard])
    sole_postcard rfl (by decide +kernel) (by decide +kernel)
  have hfound := hall (visited [postcard, intruder]) (searchable_visited _) (by decide +kernel)
  have hoffers : ((findButton "menu-s1:0" (some 1)).run
      (visited [postcard, intruder])).toOption.map Prod.fst = some (some offers) := by
    decide +kernel
  rw [hfound] at hoffers
  exact absurd hoffers (by decide)

end Click

end Deskflow
