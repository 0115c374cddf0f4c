import Deskflow.Value
import Deskflow.Number.Shortest
import Deskflow.Text.Quoted

/-!
# The text of a value

How a value that is used as a text is written. A text stands for itself; inside a list or an
object it is quoted. Lists and objects are written with brackets, a comma and a blank between
entries.

* `text_str`, `text_eq_quoted`: only a text at the top is written without marks.
* `integerText_injective`: no two integers have the same text.
-/

namespace Deskflow

/-- The text of an integer. -/
def integerText (n : Int) : String :=
  (if n < 0 then "-" else "") ++ Decimal.digitText n.natAbs

namespace Value

/-- The pieces with `between` between neighbours. -/
def joinWith (between : String) : List String → String
  | [] => ""
  | [s] => s
  | s :: rest => s ++ between ++ joinWith between rest

mutual

/-- The text of a value inside a list or an object. -/
def quoted : Value → String
  | .null => "None"
  | .bool true => "True"
  | .bool false => "False"
  | .int n => integerText n
  | .float x => x.render
  | .str s => Text.quote s
  | .list xs => "[" ++ joinWith ", " (quotedItems xs) ++ "]"
  | .object fs => "\x7b" ++ joinWith ", " (quotedFields fs) ++ "\x7d"

/-- The texts of the items of a list. -/
def quotedItems : List Value → List String
  | [] => []
  | v :: vs => quoted v :: quotedItems vs

/-- The texts of the fields of an object. -/
def quotedFields : List (String × Value) → List String
  | [] => []
  | (n, v) :: fs => (Text.quote n ++ ": " ++ quoted v) :: quotedFields fs

end

/-- The text of a value. -/
def text : Value → String
  | .str s => s
  | v => v.quoted

/-- The text of a value that counts as given, and the empty text otherwise. -/
def givenText (v : Value) : String := if v.isGiven then v.text else ""

/-- The trimmed text of a value, if the value is not null and the text not blank. -/
def trimmedText? (v : Value) : Option String :=
  if v = .null then none
  else
    let t := Text.trim v.text
    if t = "" then none else some t

/-! ## Lemmas -/

@[simp] theorem text_str (s : String) : (Value.str s).text = s := rfl

theorem text_eq_quoted {v : Value} (h : v.kind ≠ .str) : v.text = v.quoted := by
  cases v with
  | str s => exact absurd rfl h
  | _ => rfl

@[simp] theorem givenText_str (s : String) : (Value.str s).givenText = s := by
  by_cases h : s = "" <;> simp [givenText, isGiven, h]

end Value

@[simp] theorem integerText_natCast (n : Nat) : integerText n = Decimal.digitText n := by
  have hn : ¬ (n : Int) < 0 := by omega
  simp [integerText, hn]

theorem integerText_injective : Function.Injective integerText := by
  have hsign : ∀ n : Nat, (Decimal.digitText n).toList.head? ≠ some '-' := by
    intro n hn
    have := Decimal.isDigit_of_mem_digitText (List.mem_of_head? hn)
    simp at this
  intro m n h
  have hhead := congrArg (fun s => s.toList.head?) h
  unfold integerText at h hhead
  by_cases hm : m < 0 <;> by_cases hn : n < 0
  · have := Decimal.digitText_injective (by simpa [hm, hn] using h)
    omega
  · simp only [hm, hn, String.toList_append, if_true, if_false] at hhead
    exact absurd (by simpa using hhead.symm) (hsign n.natAbs)
  · simp only [hm, hn, String.toList_append, if_true, if_false] at hhead
    exact absurd (by simpa using hhead) (hsign m.natAbs)
  · have := Decimal.digitText_injective (by simpa [hm, hn] using h)
    omega

end Deskflow
