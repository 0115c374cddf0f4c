import Deskflow.Step
import Deskflow.Text.Case

/-!
# Conditions

What an automation can wait for. A condition is judged on a snapshot of what is known about the
conversation and its client.

Models `evaluate_condition`; what is known is put together by `Engine.loadFacts`.

* `evaluate_record`: a condition kept in a suspension is judged as the step that suspended.
* `holds_anyMessage`: the condition that every message fulfils.
-/

namespace Deskflow

/-- What conditions look at (`ConditionState`): the tags of the client, the text that came in last,
and the number of conversations of the client. -/
structure Facts where
  tagIds : List Int := []
  latestText : Option String := none
  conversations : Int := 0
deriving DecidableEq, Repr

namespace Condition

/-- Whether a condition holds, given its type and value as they were stored (`evaluate_condition`).
An unknown type never holds. -/
def evaluate (facts : Facts) (kind value : Value) : Except Fault Bool :=
  match kind with
  | .str "has_tag" => do
    match ← value.toInt? with
    | some id => return facts.tagIds.contains id
    | none => return false
  | .str "message_contains" =>
    let needle := Text.lower value.givenText
    match facts.latestText with
    | some text => .ok (needle != "" && Text.holds (Text.lower text) needle)
    | none => .ok false
  | .str "any_message" => .ok true
  | .str "is_new_client" => .ok (facts.conversations == 1)
  | _ => .ok false

/-- Whether a condition holds. -/
def holds (facts : Facts) (c : Condition) : Except Fault Bool :=
  evaluate facts (.str c.kind) (.str c.value)

/-- A condition as it is kept in a suspension (`to_config`). -/
def record (c : Condition) : Record :=
  [("condition_type", .str c.kind), ("condition_value", .str c.value)]

/-! ## Lemmas -/

theorem evaluate_record (facts : Facts) (c : Condition) :
    evaluate facts (c.record.getD "condition_type") (c.record.getD "condition_value")
      = holds facts c := rfl

theorem holds_anyMessage (facts : Facts) (value : String) :
    holds facts ⟨"any_message", value⟩ = .ok true := rfl

end Condition

end Deskflow
