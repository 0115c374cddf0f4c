import Deskflow.Fault
import Deskflow.Text.Digit

/-!
# Numerals

Reading a decimal numeral: blanks around it, a sign, and digits of any script with single
underscores between them. A numeral of more than 4300 digits is refused before its end is looked
at.

* `scan_length`: digits are only taken away from the front of what is read.
* `read_digitText`: a natural number is read back from its digits, if they are not too many.
-/

namespace Deskflow.Numeral

/-- The most digits that are read. -/
def maxDigits : Nat := 4300

/-- What the digits at the start of a text amount to. -/
structure Scan where
  value : Nat
  count : Nat
  rest : List Char
deriving DecidableEq

/-- Reads digits, and single underscores between them, after `count` digits of value `value`;
`gap` tells whether an underscore was read last. A doubled or trailing underscore is refused. -/
def scan : List Char → Nat → Nat → Bool → Option Scan
  | [], value, count, gap => if gap then none else some ⟨value, count, []⟩
  | c :: cs, value, count, gap =>
    match Text.digitValue? c with
    | some d => scan cs (10 * value + d) (count + 1) false
    | none =>
      if c = '_' then if gap || count = 0 then none else scan cs value count true
      else if gap then none else some ⟨value, count, c :: cs⟩

/-- Splits off a sign; the first part tells whether it is a minus. -/
def sign : List Char → Bool × List Char
  | '+' :: cs => (false, cs)
  | '-' :: cs => (true, cs)
  | cs => (false, cs)

/-- The integer that a numeral stands for. -/
def read (text : String) : Except Fault Int :=
  let (negative, digits) := sign (text.toList.dropWhile Text.isNumeralBlank)
  match scan digits 0 0 false with
  | none => .error (.malformedNumeral text)
  | some s =>
    if maxDigits < s.count then .error (.oversizedNumeral s.count)
    else if s.count = 0 || !s.rest.all Text.isNumeralBlank then .error (.malformedNumeral text)
    else .ok (if negative then -s.value else s.value)

/-! ## Lemmas -/

theorem scan_length {cs : List Char} {value count : Nat} {gap : Bool} {s : Scan}
    (h : scan cs value count gap = some s) : s.rest.length ≤ cs.length := by
  induction cs generalizing value count gap with
  | nil =>
    simp only [scan] at h
    split at h <;> simp_all
    simp [← h]
  | cons c cs ih =>
    simp only [scan] at h
    split at h
    · exact Nat.le_succ_of_le (ih h)
    · split at h
      · split at h
        · simp at h
        · exact Nat.le_succ_of_le (ih h)
      · split at h
        · simp at h
        · have : s.rest = c :: cs := by simpa using (congrArg (Option.map Scan.rest) h).symm
          simp [this]

theorem scan_of_isDigit {cs : List Char} (h : ∀ c ∈ cs, c.isDigit = true) (value count : Nat) :
    scan cs value count false = some ⟨Nat.ofDigitChars 10 cs value, count + cs.length, []⟩ := by
  induction cs generalizing value count with
  | nil => rfl
  | cons c cs ih =>
    have hc := h c List.mem_cons_self
    rw [scan, Text.digitValue?_of_isDigit hc, Nat.ofDigitChars_cons]
    simp only
    rw [ih fun x hx => h x (List.mem_cons_of_mem c hx)]
    simp only [List.length_cons, Option.some.injEq, Scan.mk.injEq, and_true]
    exact ⟨rfl, by omega⟩

theorem isNumeralBlank_of_isDigit {c : Char} (h : c.isDigit = true) :
    Text.isNumeralBlank c = false := by
  have hc : 48 ≤ c.toNat ∧ c.toNat ≤ 57 := by simpa [Char.isDigit, UInt32.le_iff_toNat_le] using h
  have hspace : c ≠ ' ' := by rintro rfl; simp at hc
  simp only [Text.isNumeralBlank, if_pos (show c.toNat < 127 by omega)]
  simp [hspace]
  omega

/-- A text that starts with a digit has no sign and no blanks before it. -/
theorem sign_dropWhile_of_isDigit {c : Char} {cs : List Char} (h : c.isDigit = true) :
    sign ((c :: cs).dropWhile Text.isNumeralBlank) = (false, c :: cs) := by
  rw [List.dropWhile_cons_of_neg (by simp [isNumeralBlank_of_isDigit h])]
  unfold sign
  split
  · simp_all [Char.isDigit]
  · simp_all [Char.isDigit]
  · rfl

theorem read_of_isDigit {cs : List Char} (h : ∀ c ∈ cs, c.isDigit = true) (hne : cs ≠ [])
    (hlen : cs.length ≤ maxDigits) :
    read (String.ofList cs) = .ok (Nat.ofDigitChars 10 cs 0 : Nat) := by
  obtain ⟨c, rest, rfl⟩ := List.exists_cons_of_ne_nil hne
  unfold read
  rw [String.toList_ofList, sign_dropWhile_of_isDigit (h c List.mem_cons_self)]
  simp only
  rw [scan_of_isDigit h]
  simp only [Nat.zero_add]
  rw [if_neg (by omega), if_neg (by simp)]
  rfl

theorem read_digitText {n : Nat} (h : (Decimal.digitText n).toList.length ≤ maxDigits) :
    read (Decimal.digitText n) = .ok n := by
  have hread := read_of_isDigit (fun _ => Decimal.isDigit_of_mem_digitText)
    (by simp) h
  rw [String.ofList_toList] at hread
  rw [hread, Decimal.digitText, String.toList_ofList,
    Nat.ofDigitChars_toDigits (by omega) (by omega)]

end Deskflow.Numeral
