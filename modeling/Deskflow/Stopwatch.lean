import Deskflow.Moment
import Deskflow.Number.Difference

/-!
# The stopwatch

How long ago something was is told by a clock that is never turned back, which need not be the one
that tells the time (`monotonic`). It reads seconds in double precision. How many of them lie
between two readings is their difference, which is rounded, and compared with a whole number of
seconds as it is: close to the end of a window what counts is this difference, not the one before
rounding.

Nothing else is known of the clock, so that what is proved holds for every sequence of finite
readings that does not go back.

Out of scope: how finely a clock counts.

* `isRecent_of_earlier`, `isRecent_of_later`: what is recent was so before, and so is what came
  later.
* `isRecent_self_iff`, `not_isRecent`: how it is at the moment itself, and without a window.
* `lt_of_isRecent`: what is recent is less than the window ago before rounding, too.
-/

namespace Deskflow

/-- A clock that is never turned back: what it reads at a moment, in seconds. -/
structure Stopwatch where
  reading : Moment → Binary64
  finite : ∀ t, (reading t).isFinite = true
  mono : ∀ s t : Moment, s.micros ≤ t.micros → (reading s).units ≤ (reading t).units

namespace Stopwatch

/-- The seconds from the start of the clock to a moment; it stands still outside of the years that
are counted. -/
def secondsAt (t : Moment) : Binary64 :=
  let micros := max Moment.earliest.micros (min t.micros Moment.tooLate.micros)
  .ofQuotient (micros - Moment.start.micros) 1000000

/-- Whether something is less than a number of seconds ago, by the readings now and then. -/
def isRecent (seconds : Int) (now reading : Binary64) : Bool := (now.sub reading).isLess seconds

/-! ## Lemmas -/

theorem secondsAt_mono (s t : Moment) (h : s.micros ≤ t.micros) :
    (secondsAt s).units ≤ (secondsAt t).units :=
  Binary64.units_ofQuotient_mono (by decide) (by omega)

theorem secondsAt_finite (t : Moment) : (secondsAt t).isFinite = true := by
  have hlow : -(Binary64.limit : Int) < (secondsAt Moment.earliest).units := by decide +kernel
  have hhigh : (secondsAt Moment.tooLate).units < Binary64.limit := by decide +kernel
  have hfirst : (secondsAt Moment.earliest).units ≤ (secondsAt t).units :=
    Binary64.units_ofQuotient_mono (by decide) (by omega)
  have hlast : (secondsAt t).units ≤ (secondsAt Moment.tooLate).units :=
    Binary64.units_ofQuotient_mono (by decide) (by omega)
  exact Binary64.isFinite_of_units (by omega) (by omega)

/-- The stopwatch that counts from the start of the clock. -/
def fromStart : Stopwatch := ⟨secondsAt, secondsAt_finite, secondsAt_mono⟩

instance : Inhabited Stopwatch := ⟨fromStart⟩

/-- A stopwatch that is stopped at a reading. -/
def stoppedAt (reading : Binary64) (h : reading.isFinite = true) : Stopwatch :=
  ⟨fun _ => reading, fun _ => h, fun _ _ _ => Int.le_refl _⟩

section

variable {seconds : Int} {now later t t' : Binary64}

/-- What is recent was recent before. -/
theorem isRecent_of_earlier (h : now.units ≤ later.units)
    (hrecent : isRecent seconds later t = true) : isRecent seconds now t = true :=
  Binary64.isLess_of_le (Binary64.isNaN_ofQuotient _ Binary64.perOne_pos)
    (Binary64.units_sub_le_left h t) hrecent

/-- What comes after something that is recent is recent, too. -/
theorem isRecent_of_later (h : t.units ≤ t'.units) (hrecent : isRecent seconds now t = true) :
    isRecent seconds now t' = true :=
  Binary64.isLess_of_le (Binary64.isNaN_ofQuotient _ Binary64.perOne_pos)
    (Binary64.units_sub_le_right h now) hrecent

/-- What is now is recent, if there is a window. -/
theorem isRecent_self_iff (t : Binary64) : isRecent seconds t t = true ↔ 0 < seconds := by
  have hunits := Binary64.units_sub_self t
  have hlimit : (0 : Int) < Binary64.limit := by decide +kernel
  have hfinite : (t.sub t).isFinite = true := Binary64.isFinite_of_units (by omega) (by omega)
  have hone : (0 : Int) < Binary64.perOne := Int.natCast_pos.mpr Binary64.perOne_pos
  rw [isRecent, Binary64.isLess_iff_of_isFinite hfinite, hunits]
  constructor
  · intro hpos
    have hclosed (h : seconds ≤ 0) : seconds * Binary64.perOne ≤ 0 :=
      Int.mul_nonpos_of_nonpos_of_nonneg h (Int.le_of_lt hone)
    omega
  · exact fun hopen => Int.mul_pos hopen hone

/-- Without a window nothing is recent that is not to come. -/
theorem not_isRecent (hseconds : seconds ≤ 0) (h : t.units ≤ now.units) :
    isRecent seconds now t = false := by
  refine Bool.eq_false_iff.mpr fun hrecent => ?_
  have := (isRecent_self_iff t).mp (isRecent_of_earlier h hrecent)
  omega

/-- **What is recent is really less than the window ago**, also before the difference is rounded;
but what is less than the window ago can be rounded to the whole of it. -/
theorem lt_of_isRecent {n : Nat} (hn : n < 2 * Binary64.fractions)
    (h : isRecent n now t = true) : now.units - t.units < n * Binary64.perOne := by
  refine Int.lt_of_not_ge fun hmore => ?_
  have hnot := Binary64.not_isLess_ofQuotient hn hmore
  exact Bool.false_ne_true (hnot.symm.trans h)
end

/-- Thirty seconds later to the microsecond, and yet recent, because the later reading was rounded
down. -/
example : isRecent 30 (.ofQuotient 32002973 1000000) (.ofQuotient 2002973 1000000) = true := by
  decide +kernel

end Stopwatch

end Deskflow
