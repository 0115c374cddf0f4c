import Deskflow.Number.Shortest

/-!
# Moments

Points in time, counted in microseconds from the start of 1970, and their text with a date and a
time of day. Dates follow the Gregorian calendar in both directions.

Models `isoformat`. Out of scope: time zones and leap seconds.

* `advance_zero`, `advance_advance`: the clock moves by the sum of its steps.
* `isBefore_trans`, `isBefore_or_eq`: moments that may be missing stand in one order.
-/

namespace Deskflow

/-- A point in time. -/
structure Moment where
  micros : Int
deriving DecidableEq, Repr

instance : Inhabited Moment := ⟨⟨0⟩⟩

namespace Moment

/-- Microseconds in a second. -/
def second : Int := 1000000

/-- Microseconds in a day. -/
def day : Int := 86400 * second

/-- The moment a number of microseconds later. -/
def advance (t : Moment) (micros : Int) : Moment := ⟨t.micros + micros⟩

/-- The number of microseconds from one moment to another. -/
def since (t start : Moment) : Int := t.micros - start.micros

/-- The days from the start of 1970 to a date. -/
def daysOf (year month date : Int) : Int :=
  let y := if month ≤ 2 then year - 1 else year
  let era := y.fdiv 400
  let yearOfEra := y - era * 400
  let shifted := (month + 9) % 12
  let dayOfYear := (153 * shifted + 2) / 5 + date - 1
  era * 146097 + (yearOfEra * 365 + yearOfEra / 4 - yearOfEra / 100 + dayOfYear) - 719468

/-- The year, month and date of a number of days from the start of 1970. -/
def dateOf (days : Int) : Int × Int × Int :=
  let z := days + 719468
  let era := z.fdiv 146097
  let dayOfEra := z - era * 146097
  let yearOfEra := (dayOfEra - dayOfEra / 1460 + dayOfEra / 36524 - dayOfEra / 146096) / 365
  let dayOfYear := dayOfEra - (365 * yearOfEra + yearOfEra / 4 - yearOfEra / 100)
  let shifted := (5 * dayOfYear + 2) / 153
  let month := if shifted < 10 then shifted + 3 else shifted - 9
  let year := yearOfEra + era * 400 + (if month ≤ 2 then 1 else 0)
  (year, month, dayOfYear - (153 * shifted + 2) / 5 + 1)

/-- The digits of `n`, with zeros in front up to a width. -/
def padded (width : Nat) (n : Int) : String :=
  let digits := Nat.toDigits 10 n.toNat
  String.ofList (List.replicate (width - digits.length) '0' ++ digits)

/-- The text of a moment (`isoformat`); a fraction of a second is written only if there is one. -/
def text (t : Moment) : String :=
  let days := t.micros.fdiv day
  let rest := t.micros - days * day
  let (year, month, date) := dateOf days
  let seconds := rest / second
  let fraction := rest % second
  padded 4 year ++ "-" ++ padded 2 month ++ "-" ++ padded 2 date ++ "T"
    ++ padded 2 (seconds / 3600) ++ ":" ++ padded 2 (seconds / 60 % 60) ++ ":"
    ++ padded 2 (seconds % 60)
    ++ (if fraction = 0 then "" else "." ++ padded 6 fraction)

/-- The number that a non-empty list of ASCII digits stands for. -/
def number? (cs : List Char) : Option Nat :=
  if cs.isEmpty || !cs.all Char.isDigit then none
  else some (cs.foldl (fun n c => 10 * n + (c.toNat - 48)) 0)

/-- The microseconds that the digits after the point stand for. -/
def fraction? (cs : List Char) : Option Nat :=
  number? ((cs ++ List.replicate (6 - cs.length) '0').take 6)

/-- The moment that a text with a date and a time of day stands for. -/
def read? (s : String) : Option Moment := do
  let cs := s.toList
  let year ← number? (cs.take 4)
  let month ← number? ((cs.drop 5).take 2)
  let date ← number? ((cs.drop 8).take 2)
  let days := daysOf year month date
  if dateOf days ≠ ((year : Int), (month : Int), (date : Int)) then failure
  let time := cs.drop 11
  let part (i limit : Nat) : Option Nat :=
    if time.length ≤ i then some 0 else (number? ((time.drop i).take 2)).filter (· < limit)
  let hour ← part 0 24
  let minute ← part 3 60
  let sec ← part 6 60
  let fraction ← if time.length ≤ 9 then some 0 else fraction? (time.drop 9)
  let seconds : Int := days * 86400 + hour * 3600 + minute * 60 + sec
  return ⟨seconds * second + fraction⟩

/-- The first moment that is counted: the start of the year 1. -/
def earliest : Moment := ⟨daysOf 1 1 1 * day⟩

/-- The first moment that is not counted any more: the start of the year 10000. -/
def tooLate : Moment := ⟨daysOf 10000 1 1 * day⟩

/-- Whether a moment is counted: whether its year is one from 1 to 9999. -/
def isCounted (t : Moment) : Bool := earliest.micros ≤ t.micros && t.micros < tooLate.micros

/-- Whether a moment that may be missing comes before another one; a missing one comes first. -/
def isBefore : Option Moment → Option Moment → Bool
  | none, some _ => true
  | some a, some b => a.micros < b.micros
  | _, none => false

/-- The moment at which the clock starts. -/
def start : Moment := ⟨daysOf 2024 1 1 * day⟩

/-! ## Lemmas -/

@[simp] theorem advance_zero (t : Moment) : t.advance 0 = t := by
  simp [advance]

theorem advance_advance (t : Moment) (a b : Int) : (t.advance a).advance b = t.advance (a + b) := by
  simp [advance, Int.add_assoc]

theorem isBefore_trans {a b c : Option Moment} (h : isBefore a b = true)
    (h' : isBefore b c = true) : isBefore a c = true := by
  cases a <;> cases b <;> cases c <;> simp_all [isBefore]
  omega

theorem isBefore_or_eq (a b : Option Moment) :
    isBefore a b = true ∨ a = b ∨ isBefore b a = true := by
  cases a with
  | none => cases b <;> simp [isBefore]
  | some a =>
    cases b with
    | none => simp [isBefore]
    | some b =>
      obtain ⟨m⟩ := a
      obtain ⟨n⟩ := b
      simp only [isBefore, decide_eq_true_eq, Option.some.injEq, Moment.mk.injEq]
      omega

end Moment

end Deskflow
