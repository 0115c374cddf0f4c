import Deskflow.Value.Reading

/-!
# Steps

What an automation does, step by step. A step is a single action or a group of steps that run
one after another in its place, so a list of steps is a forest. `Step.entries` lists a forest in
the order in which it is run, groups before their members; `Step.singles` lists the actions alone.

Models `StepSpec` and the kinds of steps.

* `entries_append`, `singles_append`: both go through a forest from left to right.
* `singles_sublist_entries`: the actions are among the entries, in the same order.
-/

namespace Deskflow

/-- The kinds of media that can be sent. -/
inductive MediaKind where
  | image | video | file
deriving DecidableEq, Repr

/-- The word for a kind of media in stored messages. -/
def MediaKind.word : MediaKind → String
  | .image => "image"
  | .video => "video"
  | .file => "file"

/-- A button under a message: a link, or an action with its settings. -/
structure Button where
  text : String
  url : Option String
  action : Option String
  actionConfig : Record
deriving DecidableEq, Repr

/-- A condition by its type and value. -/
structure Condition where
  kind : String
  value : String
deriving DecidableEq, Repr

/-- The tags that a step is about: ids, and a name to fall back to. -/
structure TagTargets where
  ids : List Int
  name : Option String
deriving DecidableEq, Repr

/-- What a single step does. -/
inductive StepAction where
  | sendText (text : String)
  | sendButtons (text imageUrl : String) (buttons : List Button)
  | sendMedia (kind : MediaKind) (url caption : String)
  | delay (seconds : Int)
  | condition (c : Condition)
  | addTag (targets : TagTargets)
  | removeTag (targets : TagTargets)
  | assignOperator (operatorId : Option Int)
  | close
  /-- A step of a kind that is not known, which does nothing. -/
  | unknown (kind : String)
deriving DecidableEq, Repr

/-- The longest delay, in seconds. -/
def maxDelay : Int := 300

/-- Whether a delay is carried out. -/
def isValidDelay (seconds : Int) : Bool := 0 < seconds && seconds ≤ maxDelay

/-- What is known of a step beside its action (`StepSpec`). Only `order` decides the sequence. A
member of a group answers clicks under its button key. -/
structure StepHead where
  stepId : String
  kind : String
  order : Int := 0
  rowId : Option Int := none
  nextStepId : Option String := none
  trueStepId : Option String := none
  falseStepId : Option String := none
  buttonKey : Option String := none
deriving DecidableEq, Repr

/-- The key under which clicks on a step's buttons are answered (`callback_key`). -/
def StepHead.callbackKey (h : StepHead) : String :=
  match h.buttonKey with
  | some key => if key = "" then h.stepId else key
  | none => h.stepId

/-- A step: a single action, or a group of steps. -/
inductive Step where
  | single (head : StepHead) (action : StepAction)
  | group (head : StepHead) (name : String) (members : List Step)
deriving Repr

namespace Step

/-- The head of a step. -/
def head : Step → StepHead
  | single h _ => h
  | group h _ _ => h

mutual

/-- The heads of a step and of its members at every depth, in the order in which they run. -/
def entriesOf : Step → List StepHead
  | single h _ => [h]
  | group h _ members => h :: entries members

/-- The heads of a forest in the order in which its steps run. -/
def entries : List Step → List StepHead
  | [] => []
  | s :: rest => entriesOf s ++ entries rest

end

mutual

/-- The single steps of a step at every depth, in the order in which they run. -/
def singlesOf : Step → List (StepHead × StepAction)
  | single h a => [(h, a)]
  | group _ _ members => singles members

/-- The single steps of a forest in the order in which they run. -/
def singles : List Step → List (StepHead × StepAction)
  | [] => []
  | s :: rest => singlesOf s ++ singles rest

end

/-! ## Lemmas -/

theorem entries_eq_flatMap (steps : List Step) : entries steps = steps.flatMap entriesOf := by
  induction steps with
  | nil => rfl
  | cons s rest ih => simp [entries, ih]

theorem singles_eq_flatMap (steps : List Step) : singles steps = steps.flatMap singlesOf := by
  induction steps with
  | nil => rfl
  | cons s rest ih => simp [singles, ih]

theorem head_mem_entriesOf (s : Step) : s.head ∈ entriesOf s := by
  cases s with
  | single h action => simp [head, entriesOf]
  | group h name members => simp [head, entriesOf]

theorem entries_append (xs ys : List Step) : entries (xs ++ ys) = entries xs ++ entries ys := by
  induction xs with
  | nil => rfl
  | cons x xs ih => simp [entries, ih]

theorem singles_append (xs ys : List Step) : singles (xs ++ ys) = singles xs ++ singles ys := by
  induction xs with
  | nil => rfl
  | cons x xs ih => simp [singles, ih]

mutual

theorem singlesOf_sublist_entriesOf :
    (s : Step) → ((singlesOf s).map Prod.fst).Sublist (entriesOf s)
  | single _ _ => by simp [singlesOf, entriesOf]
  | group _ _ members => by
    simpa [singlesOf, entriesOf] using (singles_sublist_entries members).cons _

theorem singles_sublist_entries :
    (steps : List Step) → ((singles steps).map Prod.fst).Sublist (entries steps)
  | [] => by simp [singles, entries]
  | s :: rest => by
    simpa [singles, entries] using
      (singlesOf_sublist_entriesOf s).append (singles_sublist_entries rest)

end

end Step

end Deskflow
