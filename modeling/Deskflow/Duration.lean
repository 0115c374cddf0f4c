import Deskflow.Moment
import Deskflow.Value.Reading

/-!
# Durations

How much time a value stands for as a number of seconds, in microseconds, and the moment that lies
so much later. Of a number with a fraction the whole seconds count exactly; its fraction is turned
into microseconds as a double-precision number, and that is rounded to the nearest integer, a tie
to the even one.

* `read_int`: whole seconds are a million microseconds each.
* `after_zero`: no time later it is the same moment.
-/

namespace Deskflow

namespace Duration

/-- The most days that a time may have. -/
def mostDays : Int := 999999999

/-- The days from which on a time is endless. -/
def endlessDays : Int := 2147483648

/-- A time in microseconds, if it is not too long. -/
def within (micros : Int) : Except Fault Int :=
  let days := micros.fdiv Moment.day
  if days < -endlessDays || endlessDays ≤ days then .error .endlessTime
  else if days < -mostDays || mostDays < days then .error (.longTime days)
  else .ok micros

/-- The microseconds in a finite number of seconds. -/
def ofSeconds (x : Binary64) : Int := x.truncate * Moment.second + (x.fractionTimes 1000000).nearest

/-- The microseconds that a value stands for as a number of seconds. -/
def read : Value → Except Fault Int
  | .bool b => within (if b then Moment.second else 0)
  | .int n => within (n * Moment.second)
  | .float x =>
    if x.isNaN then .error .undefinedNumber
    else if x.isInfinite then .error .infiniteNumber
    else within (ofSeconds x)
  | v => .error (.notSeconds v.kind)

end Duration

namespace Moment

/-- The moment a number of microseconds later, if it is counted. -/
def after (t : Moment) (micros : Int) : Except Fault Moment :=
  let later := t.advance micros
  if later.isCounted then .ok later else .error .momentRange

end Moment

/-! ## Lemmas -/

theorem Duration.read_int (n : Int) : read (.int n) = within (n * Moment.second) := rfl

theorem Moment.after_zero {t : Moment} (h : t.isCounted = true) : t.after 0 = .ok t := by
  simp [after, h]

end Deskflow
