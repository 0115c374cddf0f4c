import Deskflow.Text.Blank

/-!
# Decimal digits

Which characters are decimal digits, of any script, and their values. `isDigitLike` is a wider
class: it also holds superscripts, circled digits and other forms that have a digit value but do
not take part in decimal numerals.

* `isDigitLike_of_digitValue?`: every decimal digit is in the wider class.
* `digitValue?_lt`: the value of a decimal digit is below ten.
* `digitValue?_of_isDigit`: the ten digits of ASCII have their values.
-/

namespace Deskflow.Text

/-- The zeros of the scripts that have decimal digits; each is followed by the other nine. -/
def zeroDigits : List Nat := [
   48, 1632, 1776, 1984, 2406, 2534, 2662, 2790, 2918, 3046, 3174, 3302,
   3430, 3558, 3664, 3792, 3872, 4160, 4240, 6112, 6160, 6470, 6608, 6784,
   6800, 6992, 7088, 7232, 7248, 42528, 43216, 43264, 43472, 43504, 43600, 44016,
   65296, 66720, 68912, 69734, 69872, 69942, 70096, 70384, 70736, 70864, 71248, 71360,
   71472, 71904, 72016, 72784, 73040, 73120, 92768, 92864, 93008, 120782, 120792, 120802,
   120812, 120822, 123200, 123632, 125264, 130032]

/-- The value of a decimal digit of any script. -/
def digitValue? (c : Char) : Option Nat :=
  zeroDigits.findSome? fun z =>
    if z ≤ c.toNat && c.toNat < z + 10 then some (c.toNat - z) else none

/-- Whether a character is a decimal digit of any script. -/
def isDecimalDigit (c : Char) : Bool := (digitValue? c).isSome

/-- Characters with a digit value that are not decimal digits. -/
def digitFormRanges : List (Nat × Nat) := [
   (178, 179), (185, 185), (4969, 4977), (6618, 6618), (8304, 8304), (8308, 8313),
   (8320, 8329), (9312, 9320), (9332, 9340), (9352, 9360), (9450, 9450), (9461, 9469),
   (9471, 9471), (10102, 10110), (10112, 10120), (10122, 10130), (68160, 68163), (69216, 69224),
   (69714, 69722), (127232, 127242)]

/-- Whether a character has a digit value, as a decimal digit or in another form. -/
def isDigitLike (c : Char) : Bool := isDecimalDigit c || inRanges digitFormRanges c

/-! ## Lemmas -/

theorem isDigitLike_of_digitValue? {c : Char} {n : Nat} (h : digitValue? c = some n) :
    isDigitLike c = true := by
  simp [isDigitLike, isDecimalDigit, h]

theorem digitValue?_lt {c : Char} {n : Nat} (h : digitValue? c = some n) : n < 10 := by
  obtain ⟨z, _, hz⟩ := List.exists_of_findSome?_eq_some h
  split at hz
  · rename_i hc
    have hc' : z ≤ c.toNat ∧ c.toNat < z + 10 := by simpa using hc
    have : c.toNat - z = n := by simpa using hz
    omega
  · simp at hz

theorem digitValue?_of_isDigit {c : Char} (h : c.isDigit = true) :
    digitValue? c = some (c.toNat - 48) := by
  have hc : 48 ≤ c.toNat ∧ c.toNat ≤ 57 := by simpa [Char.isDigit, UInt32.le_iff_toNat_le] using h
  unfold digitValue? zeroDigits
  rw [List.findSome?_cons, if_pos (by simp only [Bool.and_eq_true, decide_eq_true_eq]; omega)]

theorem isDecimalDigit_of_isDigit {c : Char} (h : c.isDigit = true) : isDecimalDigit c = true := by
  simp [isDecimalDigit, digitValue?_of_isDigit h]

end Deskflow.Text
