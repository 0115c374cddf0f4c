import Deskflow.Text.Printable

/-!
# Quoted text

The quoted form of a text, in which every character is visible. Single quotes enclose it, unless
it holds a single quote and no double quote; a character that is not printable is written by its
code in hexadecimal, with two, four or eight digits.

* `hexDigits_length`: a code is written with as many digits as asked for.
* `quoteMark_eq_double`: when double quotes enclose the text.
-/

namespace Deskflow.Text

/-- The digit for a number below sixteen. -/
def hexDigit (n : Nat) : Char :=
  if n < 10 then Char.ofNat (48 + n) else Char.ofNat (87 + n)

/-- The last `width` hexadecimal digits of `n`. -/
def hexDigits : Nat → Nat → List Char
  | 0, _ => []
  | width + 1, n => hexDigits width (n / 16) ++ [hexDigit (n % 16)]

/-- The mark that encloses the quoted form. -/
def quoteMark (cs : List Char) : Char :=
  if cs.contains '\'' && !cs.contains '"' then '"' else '\''

/-- The form of one character between marks. -/
def quoteChar (mark c : Char) : List Char :=
  if c = mark || c = '\\' then ['\\', c]
  else if c = '\t' then ['\\', 't']
  else if c = '\n' then ['\\', 'n']
  else if c = '\r' then ['\\', 'r']
  else if isPrintable c then [c]
  else if c.toNat < 0x100 then '\\' :: 'x' :: hexDigits 2 c.toNat
  else if c.toNat < 0x10000 then '\\' :: 'u' :: hexDigits 4 c.toNat
  else '\\' :: 'U' :: hexDigits 8 c.toNat

/-- The quoted form of a list of characters. -/
def quoteChars (cs : List Char) : List Char :=
  let mark := quoteMark cs
  mark :: cs.flatMap (quoteChar mark) ++ [mark]

/-- The quoted form of a text. -/
def quote (s : String) : String := String.ofList (quoteChars s.toList)

/-! ## Lemmas -/

@[simp] theorem hexDigits_length (width n : Nat) : (hexDigits width n).length = width := by
  induction width generalizing n with
  | zero => rfl
  | succ width ih => simp [hexDigits, ih]

theorem quoteMark_eq_double {cs : List Char} :
    quoteMark cs = '"' ↔ '\'' ∈ cs ∧ '"' ∉ cs := by
  unfold quoteMark
  split
  · rename_i h
    simpa using h
  · rename_i h
    simpa using h

end Deskflow.Text
