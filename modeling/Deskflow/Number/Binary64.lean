/-!
# Double-precision numbers

A double-precision number is its bit pattern, so equality is decidable and every operation is
exact integer arithmetic. A finite number is `significand * 2 ^ scale`, up to its sign.

* `ofRatio`: the number nearest to a ratio; a tie goes to the even significand.
* `truncate`: the integer part, towards zero; `nearest`: the nearest integer.
* `truncate_of_integer?`: a number that is an integer is its integer part.
* `isNaN_not_infinite`, `significand_lt`: the classes of patterns exclude each other, and the
  significand of a finite number has at most 53 bits.
-/

namespace Deskflow

/-- A double-precision number, by its bit pattern. -/
structure Binary64 where
  bits : UInt64
deriving DecidableEq, Repr, Inhabited

namespace Binary64

/-- The number of patterns of the fifty-two bits of the fraction. -/
def fractions : Nat := 4503599627370496

/-- The number of patterns of the eleven bits of the exponent. -/
def exponents : Nat := 2048

/-- Whether the sign bit is set. -/
def isNegative (x : Binary64) : Bool := x.bits.toNat / (fractions * exponents) = 1

/-- The bits of the exponent. -/
def exponentField (x : Binary64) : Nat := x.bits.toNat / fractions % exponents

/-- The bits of the fraction. -/
def fractionField (x : Binary64) : Nat := x.bits.toNat % fractions

/-- Whether the pattern stands for no number. -/
def isNaN (x : Binary64) : Bool := x.exponentField = 2047 && x.fractionField ≠ 0

/-- Whether the pattern stands for an infinity of either sign. -/
def isInfinite (x : Binary64) : Bool := x.exponentField = 2047 && x.fractionField = 0

/-- Whether the number is zero of either sign. -/
def isZero (x : Binary64) : Bool := x.exponentField = 0 && x.fractionField = 0

/-- The significand as an integer, with the implicit leading bit where there is one. -/
def significand (x : Binary64) : Nat :=
  if x.exponentField = 0 then x.fractionField else fractions + x.fractionField

/-- The power of two that scales the significand. -/
def scale (x : Binary64) : Int := (max x.exponentField 1 : Nat) - 1075

/-- The number with the given sign and fields. -/
def assemble (negative : Bool) (exponent fraction : Nat) : Binary64 :=
  ⟨UInt64.ofNat (((if negative then exponents else 0) + exponent) * fractions + fraction)⟩

/-- The infinity of the given sign. -/
def infinity (negative : Bool) : Binary64 := assemble negative 2047 0

/-- The pattern that stands for no number. -/
def notANumber : Binary64 := assemble false 2047 (fractions / 2)

/-- The integer nearest to `num / den`; a tie goes to the even one. -/
def roundDiv (num den : Nat) : Nat :=
  let floor := num / den
  let rest := 2 * (num % den)
  if rest < den || (rest = den && floor % 2 = 0) then floor else floor + 1

/-- The integer nearest to `num / den / 2 ^ scale`. -/
def roundScaled (num den : Nat) (scale : Int) : Nat :=
  if 0 ≤ scale then roundDiv num (den <<< scale.toNat) else roundDiv (num <<< (-scale).toNat) den

/-- The number `significand * 2 ^ scale`, where the significand has at most 53 bits and has 53
unless the scale is the least one; numbers that are too large become infinite. -/
def pack (negative : Bool) (significand : Nat) (scale : Int) : Binary64 :=
  if significand < fractions then assemble negative 0 significand
  else if 972 ≤ scale then infinity negative
  else assemble negative (scale + 1075).toNat (significand - fractions)

/-- The number nearest to `num / den`. -/
def ofRatio (negative : Bool) (num den : Nat) : Binary64 :=
  if num = 0 then assemble negative 0 0
  else
    let scale : Int := max ((num.log2 : Int) - den.log2 - 53) (-1074)
    let significand := roundScaled num den scale
    if significand < 2 * fractions then pack negative significand scale
    else pack negative (roundScaled num den (scale + 1)) (scale + 1)

/-- The power of ten with exponent `n`. -/
def tenTo (n : Nat) : Nat := Nat.pow 10 n

/-- The number of decimal digits of `n`. -/
def digitCount (n : Nat) : Nat := (Nat.toDigits 10 n).length

/-- The number nearest to `digits * 10 ^ exponent`. -/
def ofDecimal (negative : Bool) (digits : Nat) (exponent : Int) : Binary64 :=
  let size : Int := digitCount digits + exponent
  if digits = 0 || size < -400 then assemble negative 0 0
  else if 400 < size then infinity negative
  else if 0 ≤ exponent then ofRatio negative (digits * tenTo exponent.toNat) 1
  else ofRatio negative digits (tenTo (-exponent).toNat)

/-- The integer part of a finite number, towards zero. -/
def truncate (x : Binary64) : Int :=
  let magnitude : Nat :=
    if 0 ≤ x.scale then x.significand <<< x.scale.toNat else x.significand >>> (-x.scale).toNat
  if x.isNegative then -magnitude else magnitude

/-- The power of two that the fraction of a finite number is counted in. -/
def fractionUnit (x : Binary64) : Nat := 1 <<< (-x.scale).toNat

/-- The integer that a number is, if it is finite and has no fraction. -/
def integer? (x : Binary64) : Option Int :=
  if x.isNaN || x.isInfinite || x.significand % x.fractionUnit ≠ 0 then none else some x.truncate

/-- The integer nearest to a finite number; a tie goes to the even one. -/
def nearest (x : Binary64) : Int :=
  let magnitude : Nat := roundScaled x.significand 1 (-x.scale)
  if x.isNegative then -magnitude else magnitude

/-- The fraction of a finite number, times `factor`. -/
def fractionTimes (x : Binary64) (factor : Nat) : Binary64 :=
  ofRatio x.isNegative (x.significand % x.fractionUnit * factor) x.fractionUnit

/-! ## Lemmas -/

theorem isNaN_not_infinite (x : Binary64) : x.isNaN = true → x.isInfinite = false := by
  simp only [isNaN, isInfinite, Bool.and_eq_true, decide_eq_true_eq, Bool.and_eq_false_iff,
    decide_eq_false_iff_not]
  exact fun h => .inr (by simpa using h.2)

theorem truncate_of_integer? {x : Binary64} {n : Int} (h : x.integer? = some n) :
    x.truncate = n := by
  unfold integer? at h
  split at h
  · simp at h
  · simpa using h

theorem significand_lt (x : Binary64) : x.significand < 2 * fractions := by
  have h : x.fractionField < fractions := Nat.mod_lt _ (by decide)
  unfold significand
  split <;> omega

end Binary64

end Deskflow
