import Deskflow.Step
import Deskflow.Desk.Row
import Deskflow.Sort

/-!
# Reading steps from their settings

How the stored settings of a step become a step. Settings that are not an object are read as an
empty one, and a missing or malformed setting is read as an empty text, list or number; only an
infinite number, where an integer is expected, is a fault.

Members of a group are known by their place: the member at index `i` of the group with id `g` has
the key `g-si`, and so has what lies inside it. Entries of a group that are not objects are left
out, but keep their places.

Models `parse_steps`, `parse_step`, `parse_kind` and `_parse_group_steps`.

* `ordered_pairwise`, `ordered_perm`: steps are read in the order of their `order`, and then of
  their row ids, and none is lost.
* `distinctIds_nodup`, `distinctIds_pos`: the ids read for a tag step are positive and distinct.
-/

namespace Deskflow

/-- A step as it is stored. -/
structure StepDraft where
  id : Option Int
  stepId : Option String
  kind : String
  config : Value
  order : Option Int
  nextStepId : Option String
  trueStepId : Option String
  falseStepId : Option String
deriving DecidableEq, Repr

/-- What a stored row says about a step. -/
def StepRow.draft (r : StepRow) : StepDraft :=
  { id := some r.id
    stepId := some r.stepId
    kind := r.kind
    config := r.config
    order := some r.order
    nextStepId := r.nextStepId
    trueStepId := r.trueStepId
    falseStepId := r.falseStepId }

/-- Adds the integers that values stand for to a list of ids, leaving out those that are not
positive or are there already. -/
def addDistinctIds : List Value → List Int → Except Fault (List Int)
  | [], ids => .ok ids
  | v :: vs, ids => do
    match ← v.toInt? with
    | some n => addDistinctIds vs (if 0 < n && !ids.contains n then ids ++ [n] else ids)
    | none => addDistinctIds vs ids

/-- The distinct positive integers among what values stand for, in order. -/
def distinctIds (vs : List Value) : Except Fault (List Int) := addDistinctIds vs []

/-- The items of a list; any other value has none. -/
def Value.listItems : Value → List Value
  | .list xs => xs
  | _ => []

/-- The ids that the settings of a tag step name (`_tag_ids`): those of its list, and then the
single one. -/
def tagIdsIn (config : Record) : Except Fault (List Int) :=
  let single := config.getD "tag_id"
  distinctIds ((config.getD "tag_ids").listItems ++ (if single.isLeftOut then [] else [single]))

/-- The tags that the settings of a tag step name. -/
def tagTargetsIn (config : Record) : Except Fault TagTargets := do
  return ⟨← tagIdsIn config, (config.getD "tag_name").trimmedText?⟩

/-- A button from its settings. -/
def Button.ofValue (v : Value) : Button :=
  let fields := v.fields
  { text := (fields.getD "text").givenText
    url := (fields.getD "url").trimmedText?
    action := (fields.getD "action").trimmedText?
    actionConfig := (fields.getD "action_config").fields }

/-- The buttons of a list of settings (`_parse_buttons`); each keeps its place. -/
def buttonsIn (v : Value) : List Button := v.listItems.map Button.ofValue

/-- What a single step of a kind does (`parse_kind`). -/
def StepAction.parse (kind : String) (config : Record) : Except Fault StepAction :=
  let text (name : String) : String := (config.getD name).givenText
  let media (k : MediaKind) : Except Fault StepAction :=
    .ok (.sendMedia k (text "url") (text "text"))
  match kind with
  | "send_text" => .ok (.sendText (text "text"))
  | "send_text_with_buttons" =>
    .ok (.sendButtons (text "text") (text "url") (buttonsIn (config.getD "buttons")))
  | "send_image" => media .image
  | "send_video" => media .video
  | "send_file" => media .file
  | "delay" => do return .delay ((← (config.getD "delay_seconds").toInt?).getD 0)
  | "condition" => .ok (.condition ⟨text "condition_type", text "condition_value"⟩)
  | "add_tag" => do return .addTag (← tagTargetsIn config)
  | "remove_tag" => do return .removeTag (← tagTargetsIn config)
  | "assign_operator" => do return .assignOperator (← (config.getD "operator_id").toInt?)
  | "close_conversation" => .ok .close
  | "close_chat" => .ok .close
  | other => .ok (.unknown other)

/-- The kind of steps that hold other steps. -/
def groupKind : String := "group"

/-- The key of the member of a group at an index (`group_member_id`). -/
def memberKey (group : String) (index : Nat) : String :=
  group ++ "-s" ++ Decimal.digitText index

/-- The head of a member of a group. It may have an id of its own; its key tells its place. -/
def memberHead (group : String) (index : Nat) (fields : Record) : StepHead :=
  { stepId := ((fields.getD "step_id").orElse (.str (memberKey group index))).text
    kind := ((fields.getD "type").orElse (.str "send_text")).text
    order := index
    buttonKey := some (memberKey group index) }

namespace Step

/-- A step from its head and settings, with the members that the settings hold. -/
def assemble (head : StepHead) (fields : Record) (members : List Step) : Except Fault Step :=
  if head.kind = groupKind then
    .ok (.group head ((fields.getD "name").orElse (.str "Unnamed group")).text members)
  else do
    return .single head (← StepAction.parse head.kind fields)

mutual

/-- A step from its head and settings; `key` is the key that its members' keys start with. -/
def ofConfig (head : StepHead) (key : String) : Value → Except Fault Step
  | .object fields => do
    let members ← if head.kind = groupKind then membersIn key fields else .ok []
    assemble head fields members
  | _ => assemble head [] []

/-- The members that the settings of a group hold. -/
def membersIn (key : String) : List (String × Value) → Except Fault (List Step)
  | [] => .ok []
  | (name, v) :: rest => if name = "steps" then membersOf key v else membersIn key rest

/-- The members in a list of entries; a value of another kind holds none. -/
def membersOf (key : String) : Value → Except Fault (List Step)
  | .list items => membersFrom key 0 items
  | _ => .ok []

/-- The members in the entries of a group from an index on (`_parse_group_steps`). -/
def membersFrom (key : String) (index : Nat) : List Value → Except Fault (List Step)
  | [] => .ok []
  | .object fields :: rest => do
    let member ← memberIn (memberHead key index fields) (memberKey key index) fields
    return member :: (← membersFrom key (index + 1) rest)
  | _ :: rest => membersFrom key (index + 1) rest

/-- The member whose settings are among the fields of an entry. -/
def memberIn (head : StepHead) (key : String) : List (String × Value) → Except Fault Step
  | [] => assemble head [] []
  | (name, v) :: rest => if name = "config" then ofConfig head key v else memberIn head key rest

end

/-- The id of a step: its own, or one made from its row's. -/
def idOf (d : StepDraft) : String :=
  match d.stepId with
  | some "" => "step-" ++ (Value.ofInt? d.id).text
  | some s => s
  | none => "step-" ++ (Value.ofInt? d.id).text

/-- A stored step (`parse_step`). -/
def parse (d : StepDraft) : Except Fault Step :=
  ofConfig
    { stepId := idOf d
      kind := d.kind
      order := d.order.getD 0
      rowId := d.id
      nextStepId := d.nextStepId
      trueStepId := d.trueStepId
      falseStepId := d.falseStepId }
    (idOf d) d.config

/-- Whether a stored step comes before another: by `order`, and then by row id. -/
def precedes (a b : StepDraft) : Bool :=
  let order (d : StepDraft) := d.order.getD 0
  let id (d : StepDraft) := d.id.getD 0
  order a < order b || (order a = order b && id a ≤ id b)

/-- Stored steps in the order in which they run. -/
def ordered (drafts : List StepDraft) : List StepDraft := sortBy precedes drafts

/-- The steps that are stored, in the order in which they run (`parse_steps`). -/
def parseSteps (drafts : List StepDraft) : Except Fault (List Step) := (ordered drafts).mapM parse

end Step

/-! ## Lemmas -/

theorem addDistinctIds_nodup {vs : List Value} {ids out : List Int} (hids : ids.Nodup)
    (h : addDistinctIds vs ids = .ok out) : out.Nodup := by
  induction vs generalizing ids with
  | nil =>
    have : ids = out := by simpa [addDistinctIds] using h
    exact this ▸ hids
  | cons v vs ih =>
    obtain ⟨r, -, h⟩ := Fault.bind_eq_ok.mp h
    cases r with
    | none => exact ih hids h
    | some n =>
      refine ih ?_ h
      split
      · rename_i hn
        have hnot : n ∉ ids := by
          have := (Bool.and_eq_true _ _ ▸ hn : _ ∧ _).2
          simpa using this
        exact List.nodup_append.2 ⟨hids, by simp, by
          rintro a ha b hb rfl
          exact hnot (by simpa using (List.mem_singleton.1 hb) ▸ ha)⟩
      · exact hids

theorem addDistinctIds_pos {vs : List Value} {ids out : List Int} (hids : ∀ n ∈ ids, 0 < n)
    (h : addDistinctIds vs ids = .ok out) : ∀ n ∈ out, 0 < n := by
  induction vs generalizing ids with
  | nil =>
    have : ids = out := by simpa [addDistinctIds] using h
    exact this ▸ hids
  | cons v vs ih =>
    obtain ⟨r, -, h⟩ := Fault.bind_eq_ok.mp h
    cases r with
    | none => exact ih hids h
    | some n =>
      refine ih (fun m hm => ?_) h
      split at hm
      · rename_i hn
        rcases List.mem_append.1 hm with hm | hm
        · exact hids m hm
        · have hpos : 0 < n := by
            have := (Bool.and_eq_true _ _ ▸ hn : _ ∧ _).1
            simpa using this
          exact List.mem_singleton.1 hm ▸ hpos
      · exact hids m hm

theorem distinctIds_nodup {vs : List Value} {out : List Int} (h : distinctIds vs = .ok out) :
    out.Nodup :=
  addDistinctIds_nodup List.nodup_nil h

theorem distinctIds_pos {vs : List Value} {out : List Int} (h : distinctIds vs = .ok out) :
    ∀ n ∈ out, 0 < n :=
  addDistinctIds_pos (by simp) h

namespace Step

theorem precedes_trans (a b c : StepDraft) (h₁ : precedes a b = true) (h₂ : precedes b c = true) :
    precedes a c = true := by
  simp only [precedes, Bool.or_eq_true, Bool.and_eq_true, decide_eq_true_eq] at *
  omega

theorem precedes_total (a b : StepDraft) : (precedes a b || precedes b a) = true := by
  simp only [precedes, Bool.or_eq_true, Bool.and_eq_true, decide_eq_true_eq]
  omega

theorem ordered_pairwise (drafts : List StepDraft) :
    (ordered drafts).Pairwise fun a b => precedes a b = true :=
  sortBy_pairwise precedes_trans precedes_total drafts

theorem ordered_perm (drafts : List StepDraft) : (ordered drafts).Perm drafts :=
  sortBy_perm drafts

end Step

end Deskflow
