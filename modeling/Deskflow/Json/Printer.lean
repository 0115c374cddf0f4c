import Deskflow.Value.Text

/-!
# Writing values as JSON

Values in one line. A number that is not an integer always has a point or an exponent; one that is
not finite is an object whose only field, `$float`, says which it is.

* `escape_plain`: a character that needs no escape is written as it is.
-/

namespace Deskflow

namespace Json

/-- The field of an object that stands for a number that is not finite. -/
def floatField : String := "$float"

/-- A character in a string. -/
def escape (c : Char) : List Char :=
  if c = '"' then ['\\', '"']
  else if c = '\\' then ['\\', '\\']
  else if c.toNat < 32 then '\\' :: 'u' :: Text.hexDigits 4 c.toNat
  else [c]

/-- A string. -/
def string (s : String) : String := "\"" ++ String.ofList (s.toList.flatMap escape) ++ "\""

/-- A number that is not an integer. -/
def number (x : Binary64) : String :=
  if x.isNaN || x.isInfinite then
    "\x7b" ++ string floatField ++ ":" ++ string x.render ++ "\x7d"
  else x.render

mutual

/-- A value. -/
def print : Value → String
  | .null => "null"
  | .bool true => "true"
  | .bool false => "false"
  | .int n => integerText n
  | .float x => number x
  | .str s => string s
  | .list xs => "[" ++ Value.joinWith "," (printItems xs) ++ "]"
  | .object fs => "\x7b" ++ Value.joinWith "," (printFields fs) ++ "\x7d"

/-- The items of a list. -/
def printItems : List Value → List String
  | [] => []
  | v :: vs => print v :: printItems vs

/-- The fields of an object. -/
def printFields : List (String × Value) → List String
  | [] => []
  | (n, v) :: fs => (string n ++ ":" ++ print v) :: printFields fs

end

/-! ## Lemmas -/

theorem escape_plain {c : Char} (h₁ : c ≠ '"') (h₂ : c ≠ '\\') (h₃ : 32 ≤ c.toNat) :
    escape c = [c] := by
  simp [escape, h₁, h₂, Nat.not_lt.2 h₃]

end Json

end Deskflow
