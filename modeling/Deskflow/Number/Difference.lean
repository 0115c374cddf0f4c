import Deskflow.Number.Binary64

/-!
# Differences of double-precision numbers

A difference is rounded once: it is the number nearest to what two finite numbers are apart. Numbers
are told apart by how many times the least positive one goes into them, which is an integer, so that
differences and comparisons are exact integer arithmetic.

Out of scope: differences of infinities, and the sign of a difference that is zero.

* `roundDiv_nearest`, `roundDiv_mono`: rounding goes to a nearest integer, and keeps the order.
* `rounded_mono`: so does rounding to 53 bits, for ratios with one denominator.
* `units_ofQuotient_mono`, `isLess_of_le`: numbers that are rounded stay in order, and what is not
  greater than a number is less than an integer if that number is.
* `not_isLess_ofQuotient`: what is not less than an integer of 53 bits stays so when it is rounded.
-/

namespace Deskflow

namespace Binary64

/-- The power of two with exponent `n`. -/
@[irreducible] def twoTo (n : Nat) : Nat := Nat.pow 2 n

/-- How many times the least positive number goes into one. -/
def perOne : Nat := 1 <<< 1074

/-- How many times it goes into the least power of two that is too large for a finite number. -/
def limit : Nat := fractions <<< 2046

/-- How many times it goes into a number, whatever its sign; into an infinity, `limit` times. -/
def magnitude (x : Binary64) : Nat := x.significand <<< (max x.exponentField 1 - 1)

/-- A number, counted in least positive numbers. -/
def units (x : Binary64) : Int := if x.isNegative then -(x.magnitude : Int) else x.magnitude

/-- Whether the pattern stands for a number that is no infinity. -/
def isFinite (x : Binary64) : Bool := x.exponentField ≠ 2047

/-- The number nearest to `num / den`. -/
def ofQuotient (num : Int) (den : Nat) : Binary64 := ofRatio (num < 0) num.natAbs den

/-- The number nearest to the difference of two finite numbers. -/
def sub (x y : Binary64) : Binary64 := ofQuotient (x.units - y.units) perOne

/-- Whether a number is less than an integer; the comparison is exact. -/
def isLess (x : Binary64) (n : Int) : Bool :=
  if x.isNaN then false else if x.isInfinite then x.isNegative else x.units < n * perOne

/-! ## Powers of two -/

theorem twoTo_pos (n : Nat) : 0 < twoTo n := by
  unfold twoTo
  exact Nat.two_pow_pos n

theorem twoTo_zero : twoTo 0 = 1 := by
  unfold twoTo
  rfl

theorem twoTo_add (m n : Nat) : twoTo (m + n) = twoTo m * twoTo n := by
  unfold twoTo
  exact Nat.pow_add 2 m n

theorem twoTo_succ (n : Nat) : twoTo (n + 1) = twoTo n * 2 := by
  unfold twoTo
  rfl

theorem twoTo_mono {m n : Nat} (h : m ≤ n) : twoTo m ≤ twoTo n := by
  unfold twoTo
  exact Nat.pow_le_pow_right (by decide) h

theorem shiftLeft_eq_twoTo (m n : Nat) : m <<< n = m * twoTo n := by
  unfold twoTo
  exact Nat.shiftLeft_eq m n

theorem twoTo_log2_le {n : Nat} (h : n ≠ 0) : twoTo n.log2 ≤ n := by
  unfold twoTo
  exact Nat.log2_self_le h

theorem lt_twoTo_log2 (n : Nat) : n < twoTo (n.log2 + 1) := by
  unfold twoTo
  exact Nat.lt_log2_self

/-! ## Rounding to an integer -/

section

variable {num num' den k : Nat}

/-- Nothing is rounded by more than a half. -/
theorem roundDiv_nearest (num : Nat) (hden : 0 < den) :
    2 * num ≤ (2 * roundDiv num den + 1) * den ∧ 2 * roundDiv num den * den ≤ 2 * num + den := by
  have hdiv := Nat.div_add_mod num den
  have hrest : num % den < den := Nat.mod_lt _ hden
  have hfloor : 2 * (num / den) * den = 2 * (den * (num / den)) := by
    rw [Nat.mul_assoc, Nat.mul_comm den]
  unfold roundDiv
  simp only [Bool.or_eq_true, Bool.and_eq_true, decide_eq_true_eq]
  split
  · constructor
    · rw [Nat.add_mul, hfloor]
      omega
    · rw [hfloor]
      omega
  · have hnext : 2 * (num / den + 1) * den = 2 * (den * (num / den)) + 2 * den := by
      rw [Nat.mul_add, Nat.add_mul, hfloor]
    constructor
    · rw [Nat.add_mul, hnext]
      omega
    · rw [hnext]
      omega

theorem le_roundDiv (hden : 0 < den) (h : k * den ≤ num) : k ≤ roundDiv num den := by
  have hnear := (roundDiv_nearest num hden).1
  have : 2 * k * den ≤ (2 * roundDiv num den + 1) * den :=
    Nat.le_trans (by rw [Nat.mul_assoc]; omega) hnear
  have := Nat.le_of_mul_le_mul_right this hden
  omega

theorem roundDiv_le (hden : 0 < den) (h : num ≤ k * den) : roundDiv num den ≤ k := by
  have hnear := (roundDiv_nearest num hden).2
  have : 2 * roundDiv num den * den ≤ (2 * k + 1) * den :=
    Nat.le_trans hnear (by rw [Nat.add_mul, Nat.mul_assoc]; omega)
  have := Nat.le_of_mul_le_mul_right this hden
  omega

/-- **Rounding keeps the order.** -/
theorem roundDiv_mono (hden : 0 < den) (h : num ≤ num') : roundDiv num den ≤ roundDiv num' den := by
  refine Nat.le_of_not_lt fun hless => ?_
  have hlow := (roundDiv_nearest num hden).2
  have hhigh := (roundDiv_nearest num' hden).1
  -- Both are half way between two integers, so they are the same.
  have hbetween : (2 * roundDiv num' den + 2) * den ≤ 2 * roundDiv num den * den :=
    Nat.mul_le_mul_right den (by omega)
  have : (2 * roundDiv num' den + 2) * den = (2 * roundDiv num' den + 1) * den + den := by
    rw [← Nat.succ_mul]
  obtain rfl : num = num' := by omega
  omega

/-- What rounds to `2 * k` at least, rounds to `k` at least if the unit is twice as large. -/
theorem le_roundDiv_double (hden : 0 < den) (h : 2 * k ≤ roundDiv num den) :
    k ≤ roundDiv num (den * 2) := by
  have hlow := (roundDiv_nearest num hden).2
  have hhigh := (roundDiv_nearest num (Nat.mul_pos hden (by decide : 0 < 2))).1
  have hk : 2 * (2 * k) * den ≤ 2 * roundDiv num den * den := Nat.mul_le_mul_right den (by omega)
  have hdouble : (2 * roundDiv num (den * 2) + 1) * (den * 2)
      = (4 * roundDiv num (den * 2) + 2) * den := by
    rw [Nat.mul_comm den, ← Nat.mul_assoc]
    congr 1
    omega
  have hsum : (4 * roundDiv num (den * 2) + 3) * den
      = (4 * roundDiv num (den * 2) + 2) * den + den := Nat.succ_mul ..
  have : 2 * (2 * k) * den ≤ (4 * roundDiv num (den * 2) + 3) * den := by omega
  have := Nat.le_of_mul_le_mul_right this hden
  omega

theorem roundDiv_mul (num den : Nat) {c : Nat} (hc : 0 < c) :
    roundDiv (num * c) (den * c) = roundDiv num den := by
  unfold roundDiv
  have hless : 2 * (num % den * c) < den * c ↔ 2 * (num % den) < den := by
    rw [← Nat.mul_assoc]
    exact Nat.mul_lt_mul_right hc
  have hsame : 2 * (num % den * c) = den * c ↔ 2 * (num % den) = den := by
    rw [← Nat.mul_assoc]
    exact Nat.mul_left_inj (Nat.ne_of_gt hc)
  simp only [Nat.mul_div_mul_right _ _ hc, Nat.mul_mod_mul_right, hless, hsame]

end

/-! ## Rounding to 53 bits -/

/-- The first power of two that a ratio is rounded to, in least positive numbers: so many bits are
left that there are 53 or 54 of them. -/
def baseShift (num den : Nat) : Nat :=
  (max ((num.log2 : Int) - den.log2 - 53) (-1074) + 1074).toNat

/-- The power of two that a ratio is rounded to in the end, in least positive numbers: the next one,
if there were 54 bits. -/
def shift (num den : Nat) : Nat :=
  let j := baseShift num den
  if roundDiv (num * perOne) (den * twoTo j) < 2 * fractions then j else j + 1

/-- The significand of a ratio that is rounded. -/
def bits53 (num den : Nat) : Nat := roundDiv (num * perOne) (den * twoTo (shift num den))

/-- A ratio that is rounded, in least positive numbers. -/
def rounded (num den : Nat) : Nat := bits53 num den * twoTo (shift num den)

section

variable {num num' den : Nat}

theorem perOne_eq : perOne = twoTo 1074 := by
  unfold perOne
  rw [shiftLeft_eq_twoTo, Nat.one_mul]

theorem perOne_pos : 0 < perOne := perOne_eq ▸ twoTo_pos _

theorem limit_eq : limit = fractions * twoTo 2046 := by
  unfold limit
  rw [shiftLeft_eq_twoTo]

theorem unit_pos (hden : 0 < den) (j : Nat) : 0 < den * twoTo j :=
  Nat.mul_pos hden (twoTo_pos j)

/-- A ratio that is rounded at a scale is one that is rounded to an integer. -/
theorem roundScaled_eq (num den : Nat) {scale : Int} (h : -1074 ≤ scale) :
    roundScaled num den scale = roundDiv (num * perOne) (den * twoTo (scale + 1074).toNat) := by
  rw [perOne_eq]
  unfold roundScaled
  split
  · have hsum : (scale + 1074).toNat = scale.toNat + 1074 := by omega
    rw [hsum, twoTo_add, ← Nat.mul_assoc, roundDiv_mul _ _ (twoTo_pos _), shiftLeft_eq_twoTo]
  · have hsum : 1074 = (-scale).toNat + (scale + 1074).toNat := by omega
    conv => rhs; rw [hsum]
    rw [twoTo_add, ← Nat.mul_assoc, roundDiv_mul _ _ (twoTo_pos _), shiftLeft_eq_twoTo]

/-- There are 53 bits at most, or the number is a power of two. -/
theorem bits53_le (hden : 0 < den) (num : Nat) : bits53 num den ≤ 2 * fractions := by
  unfold bits53 shift
  dsimp only
  split
  · omega
  · refine roundDiv_le (unit_pos hden _) ?_
    have hnum : num < twoTo (num.log2 + 1) := lt_twoTo_log2 num
    have hlog : twoTo den.log2 ≤ den := twoTo_log2_le (Nat.ne_of_gt hden)
    have hshift : num.log2 + 1 + 1074 ≤ 54 + den.log2 + baseShift num den := by
      unfold baseShift
      omega
    have hpow : twoTo 54 * twoTo den.log2 * twoTo (baseShift num den)
        ≤ twoTo 54 * den * twoTo (baseShift num den) :=
      Nat.mul_le_mul_right _ (Nat.mul_le_mul_left _ hlog)
    calc num * perOne ≤ twoTo (num.log2 + 1) * twoTo 1074 := by
          rw [perOne_eq]
          exact Nat.mul_le_mul_right _ (Nat.le_of_lt hnum)
      _ ≤ twoTo (54 + den.log2 + baseShift num den) := by
          rw [← twoTo_add]
          exact twoTo_mono hshift
      _ ≤ twoTo 54 * den * twoTo (baseShift num den) := by
          rw [twoTo_add, twoTo_add]
          exact hpow
      _ = 2 * fractions * (den * twoTo (baseShift num den + 1)) := by
          have hfour : twoTo 54 = 2 * fractions * 2 := by decide +kernel
          rw [hfour, twoTo_succ]
          ac_rfl

/-- There are no fewer, unless the number is rounded to least positive ones. -/
theorem le_bits53 (hnum : num ≠ 0) (hden : 0 < den) (h : 0 < shift num den) :
    fractions ≤ bits53 num den := by
  unfold bits53
  unfold shift at h ⊢
  dsimp only at h ⊢
  split
  · rename_i hfew
    rw [if_pos hfew] at h
    refine le_roundDiv (unit_pos hden _) ?_
    have hlow : twoTo num.log2 ≤ num := twoTo_log2_le hnum
    have hlog : den ≤ twoTo (den.log2 + 1) := Nat.le_of_lt (lt_twoTo_log2 den)
    have hshift : 52 + (den.log2 + 1) + baseShift num den = num.log2 + 1074 := by
      unfold baseShift at h ⊢
      omega
    calc fractions * (den * twoTo (baseShift num den))
        ≤ fractions * (twoTo (den.log2 + 1) * twoTo (baseShift num den)) :=
          Nat.mul_le_mul_left _ (Nat.mul_le_mul_right _ hlog)
      _ = twoTo (num.log2 + 1074) := by
          have hfractions : fractions = twoTo 52 := by decide +kernel
          rw [← hshift, twoTo_add (52 + _), twoTo_add 52, ← hfractions, Nat.mul_assoc]
      _ ≤ num * perOne := by
          rw [twoTo_add, perOne_eq]
          exact Nat.mul_le_mul_right _ hlow
  · rename_i hmany
    rw [twoTo_succ, ← Nat.mul_assoc]
    exact le_roundDiv_double (unit_pos hden _) (by omega)

theorem baseShift_mono (den : Nat) (h : num ≤ num') : baseShift num den ≤ baseShift num' den := by
  have hlog : num.log2 ≤ num'.log2 := by
    by_cases hnum : num = 0
    · simp [hnum]
    · exact (Nat.le_log2 (by omega)).mpr (Nat.le_trans (Nat.log2_self_le hnum) h)
  unfold baseShift
  omega

/-- Numbers that are greater are not rounded to smaller powers of two. -/
theorem shift_mono (hden : 0 < den) (h : num ≤ num') : shift num den ≤ shift num' den := by
  have hbase := baseShift_mono den h
  unfold shift
  dsimp only
  rcases Nat.lt_or_ge (baseShift num den) (baseShift num' den) with hless | hmore
  · split <;> split <;> omega
  · have hsame : baseShift num den = baseShift num' den := by omega
    have hmono := roundDiv_mono (unit_pos hden (baseShift num' den))
      (Nat.mul_le_mul_right perOne h)
    rw [hsame]
    split <;> split <;> omega

/-- **Rounding to 53 bits keeps the order.** -/
theorem rounded_mono (hden : 0 < den) (h : num ≤ num') : rounded num den ≤ rounded num' den := by
  by_cases hzero : num' = 0
  · obtain rfl : num = num' := by omega
    exact Nat.le_refl _
  unfold rounded
  rcases Nat.lt_or_ge (shift num den) (shift num' den) with hless | hmore
  · calc bits53 num den * twoTo (shift num den)
        ≤ 2 * fractions * twoTo (shift num den) := Nat.mul_le_mul_right _ (bits53_le hden num)
      _ = fractions * twoTo (shift num den + 1) := by
          rw [twoTo_succ, Nat.mul_comm _ 2, ← Nat.mul_assoc, Nat.mul_comm 2]
      _ ≤ fractions * twoTo (shift num' den) :=
          Nat.mul_le_mul_left _ (twoTo_mono hless)
      _ ≤ bits53 num' den * twoTo (shift num' den) :=
          Nat.mul_le_mul_right _ (le_bits53 hzero hden (by omega))
  · have hsame : shift num den = shift num' den := Nat.le_antisymm (shift_mono hden h) hmore
    have hmono := roundDiv_mono (unit_pos hden (shift num' den)) (Nat.mul_le_mul_right perOne h)
    unfold bits53
    rw [hsame]
    exact Nat.mul_le_mul_right _ hmono

theorem le_log2_perOne : 1074 ≤ perOne.log2 := by
  have hlarge := lt_twoTo_log2 perOne
  generalize perOne.log2 = l at hlarge ⊢
  refine Nat.le_of_not_lt fun hless => ?_
  have hsmall : twoTo (l + 1) ≤ twoTo 1074 := twoTo_mono hless
  rw [← perOne_eq] at hsmall
  exact Nat.not_le_of_lt hlarge hsmall

/-- Integers of at most 53 bits are multiples of the power of two that they are rounded to. -/
theorem shift_integer_le {n : Nat} (hn : n < 2 * fractions) : shift (n * perOne) perOne ≤ 1074 := by
  have hlog : (n * perOne).log2 < 53 + 1074 := by
    by_cases hzero : n = 0
    · simp [hzero]
    refine Nat.lt_of_not_le fun hmany => ?_
    have hlow := twoTo_log2_le (Nat.mul_ne_zero hzero (Nat.ne_of_gt perOne_pos))
    have hpow : twoTo (53 + 1074) = 2 * fractions * perOne := by
      have hbits : twoTo 53 = 2 * fractions := by decide +kernel
      rw [twoTo_add, hbits, perOne_eq]
    have hless := Nat.mul_lt_mul_of_pos_right hn perOne_pos
    have := twoTo_mono hmany
    omega
  have hone := le_log2_perOne
  have hbase : baseShift (n * perOne) perOne ≤ 1073 := by
    unfold baseShift
    omega
  unfold shift
  dsimp only
  split <;> omega

/-- What is an integer of at most 53 bits or more is not rounded to less. -/
theorem le_rounded_of_le {n num : Nat} (hn : n < 2 * fractions) (h : n * perOne ≤ num) :
    n * perOne ≤ rounded num perOne := by
  refine Nat.le_trans ?_ (rounded_mono perOne_pos h)
  have hshift := shift_integer_le hn
  unfold rounded bits53
  generalize shift (n * perOne) perOne = j at hshift ⊢
  have hsplit : twoTo (1074 - j) * twoTo j = perOne := by
    rw [← twoTo_add, Nat.sub_add_cancel hshift, perOne_eq]
  have hbits : n * twoTo (1074 - j) ≤ roundDiv (n * perOne * perOne) (perOne * twoTo j) := by
    refine le_roundDiv (unit_pos perOne_pos j) (Nat.le_of_eq ?_)
    calc n * twoTo (1074 - j) * (perOne * twoTo j)
        = n * perOne * (twoTo (1074 - j) * twoTo j) := by ac_rfl
      _ = n * perOne * perOne := by rw [hsplit]
  calc n * perOne = n * twoTo (1074 - j) * twoTo j := by rw [Nat.mul_assoc, hsplit]
    _ ≤ _ := Nat.mul_le_mul_right _ hbits

end

/-! ## Patterns -/

section

variable {exponent fraction : Nat}

theorem toNat_assemble (negative : Bool)
    (h : exponent * fractions + fraction < exponents * fractions) :
    (assemble negative exponent fraction).bits.toNat
      = ((if negative then exponents else 0) + exponent) * fractions + fraction := by
  have hsize : 2 ^ 64 = 2 * (exponents * fractions) := by decide
  have hbound : ((if negative then exponents else 0) + exponent) * fractions + fraction
      < 2 ^ 64 := by
    rw [hsize, Nat.add_mul]
    split <;> omega
  unfold assemble
  rw [UInt64.toNat_ofNat', Nat.mod_eq_of_lt hbound]

theorem isNegative_assemble (negative : Bool)
    (h : exponent * fractions + fraction < exponents * fractions) :
    (assemble negative exponent fraction).isNegative = negative := by
  unfold isNegative
  rw [toNat_assemble negative h]
  unfold exponents fractions at *
  cases negative with
  | true => simp; omega
  | false => simp; omega

theorem exponentField_assemble (negative : Bool) (he : exponent < exponents)
    (hf : fraction < fractions) :
    (assemble negative exponent fraction).exponentField = exponent := by
  unfold exponentField
  rw [toNat_assemble negative (by unfold exponents fractions at *; omega)]
  unfold exponents fractions at *
  split <;> omega

theorem fractionField_assemble (negative : Bool) (he : exponent < exponents)
    (hf : fraction < fractions) :
    (assemble negative exponent fraction).fractionField = fraction := by
  unfold fractionField
  rw [toNat_assemble negative (by unfold exponents fractions at *; omega)]
  unfold fractions at *
  omega

theorem magnitude_assemble (negative : Bool) (he : exponent < exponents) (hpos : 0 < exponent)
    (hf : fraction < fractions) :
    (assemble negative exponent fraction).magnitude
      = (fractions + fraction) * twoTo (exponent - 1) := by
  unfold magnitude significand
  rw [exponentField_assemble negative he hf, fractionField_assemble negative he hf,
    if_neg (Nat.ne_of_gt hpos), Nat.max_eq_left hpos, shiftLeft_eq_twoTo]

/-- A fraction that is too large by one carries over into the exponent. -/
theorem assemble_carry (negative : Bool) (exponent : Nat) :
    assemble negative exponent fractions = assemble negative (exponent + 1) 0 := by
  unfold assemble
  rw [← Nat.add_assoc, Nat.succ_mul, Nat.add_zero]

theorem magnitude_assemble_zero (negative : Bool) (hf : fraction < fractions) :
    (assemble negative 0 fraction).magnitude = fraction := by
  unfold magnitude significand
  rw [exponentField_assemble negative (by decide) hf,
    fractionField_assemble negative (by decide) hf, if_pos rfl]
  rfl

theorem magnitude_infinity (negative : Bool) : (infinity negative).magnitude = limit := by
  have hhighest : 2047 - 1 = 2046 := rfl
  unfold infinity
  rw [magnitude_assemble negative (by decide) (by decide) (by decide), hhighest, limit_eq]
  rfl

variable {significand : Nat} {scale : Int}

/-- What is packed keeps its sign, -/
theorem isNegative_pack (negative : Bool) (hscale : -1074 ≤ scale)
    (hs : significand ≤ 2 * fractions) :
    (pack negative significand scale).isNegative = negative := by
  unfold pack
  split
  · exact isNegative_assemble negative (by unfold exponents fractions at *; omega)
  split
  · exact isNegative_assemble negative (by decide)
  · exact isNegative_assemble negative (by unfold exponents fractions at *; omega)

/-- and its size, unless it is too large. -/
theorem magnitude_pack (negative : Bool) (hscale : -1074 ≤ scale) (hs : significand ≤ 2 * fractions)
    (hleast : significand < fractions → scale = -1074) :
    (pack negative significand scale).magnitude
      = min (significand * twoTo (scale + 1074).toNat) limit := by
  unfold pack
  split
  · rename_i hfew
    have hlimit : significand ≤ limit := by
      rw [limit_eq]
      exact Nat.le_trans (Nat.le_of_lt hfew) (Nat.le_mul_of_pos_right _ (twoTo_pos _))
    have hshift : (scale + 1074).toNat = 0 := by rw [hleast hfew]; rfl
    rw [magnitude_assemble_zero negative hfew, hshift, twoTo_zero, Nat.mul_one,
      Nat.min_eq_left hlimit]
  rename_i hfew
  split
  · rename_i hlarge
    have hlimit : limit ≤ significand * twoTo (scale + 1074).toNat := by
      rw [limit_eq]
      exact Nat.mul_le_mul (by omega) (twoTo_mono (by omega))
    rw [magnitude_infinity, Nat.min_eq_right hlimit]
  · rename_i hsmall
    have hlimit : significand * twoTo (scale + 1074).toNat ≤ limit := by
      have hpow : twoTo ((scale + 1074).toNat + 1) ≤ twoTo 2046 :=
        twoTo_mono (by omega)
      calc significand * twoTo (scale + 1074).toNat
          ≤ 2 * fractions * twoTo (scale + 1074).toNat := Nat.mul_le_mul_right _ hs
        _ = fractions * twoTo ((scale + 1074).toNat + 1) := by rw [twoTo_succ]; ac_rfl
        _ ≤ limit := limit_eq ▸ Nat.mul_le_mul_left _ hpow
    have hexponent : (scale + 1075).toNat = (scale + 1074).toNat + 1 := by omega
    rw [Nat.min_eq_left hlimit, hexponent]
    rcases Nat.lt_or_ge (significand - fractions) fractions with hfraction | hcarry
    · rw [magnitude_assemble negative (by unfold exponents; omega) (by omega) hfraction,
        Nat.add_sub_cancel, Nat.add_sub_cancel' (by omega)]
    · obtain rfl : significand = 2 * fractions := by omega
      have hsub : 2 * fractions - fractions = fractions := by decide
      rw [hsub, assemble_carry, magnitude_assemble negative (by unfold exponents; omega) (by omega)
        (by decide), Nat.add_sub_cancel, Nat.add_zero, twoTo_succ]
      ac_rfl

end

/-! ## Rounding to a number -/

section

variable {num den : Nat}

/-- A ratio that is rounded is packed. -/
theorem ofRatio_eq_pack (negative : Bool) (den : Nat) (hnum : num ≠ 0) :
    ∃ scale : Int, -1074 ≤ scale ∧ shift num den = (scale + 1074).toNat
      ∧ ofRatio negative num den = pack negative (bits53 num den) scale := by
  have hleast : -1074 ≤ max ((num.log2 : Int) - den.log2 - 53) (-1074) := by omega
  have hbase : (max ((num.log2 : Int) - den.log2 - 53) (-1074) + 1 + 1074).toNat
      = baseShift num den + 1 := by
    unfold baseShift
    omega
  unfold ofRatio
  rw [if_neg hnum]
  dsimp only
  rw [roundScaled_eq num den hleast, roundScaled_eq num den (by omega), hbase]
  have hshift : shift num den = if roundDiv (num * perOne) (den * twoTo (baseShift num den))
    < 2 * fractions then baseShift num den else baseShift num den + 1 := rfl
  unfold bits53
  change ∃ scale : Int, _ ∧ _ ∧ (if roundDiv (num * perOne) (den * twoTo (baseShift num den))
    < 2 * fractions then _ else _) = _
  split
  · rename_i hfew
    rw [if_pos hfew] at hshift
    exact ⟨_, hleast, hshift, by rw [hshift]; rfl⟩
  · rename_i hmany
    rw [if_neg hmany] at hshift
    exact ⟨_, by omega, hshift.trans hbase.symm, by rw [hshift]⟩

theorem isNegative_ofRatio (negative : Bool) (hden : 0 < den) :
    (ofRatio negative num den).isNegative = negative := by
  by_cases hnum : num = 0
  · unfold ofRatio
    rw [if_pos hnum]
    exact isNegative_assemble negative (by decide)
  · obtain ⟨scale, hscale, -, hpack⟩ := ofRatio_eq_pack negative den hnum
    rw [hpack]
    exact isNegative_pack negative hscale (bits53_le hden num)

theorem magnitude_ofRatio (negative : Bool) (hden : 0 < den) :
    (ofRatio negative num den).magnitude = min (rounded num den) limit := by
  by_cases hnum : num = 0
  · subst hnum
    have hzero : rounded 0 den = 0 := by
      have hbits : bits53 0 den ≤ 0 := roundDiv_le (unit_pos hden _) (by simp)
      rw [rounded, Nat.le_zero.mp hbits, Nat.zero_mul]
    rw [hzero, Nat.zero_min]
    unfold ofRatio
    rw [if_pos rfl, magnitude_assemble_zero negative (by decide)]
  · obtain ⟨scale, hscale, hshift, hpack⟩ := ofRatio_eq_pack negative den hnum
    rw [hpack, magnitude_pack negative hscale (bits53_le hden num), rounded, hshift]
    intro hfew
    rcases Nat.eq_zero_or_pos (shift num den) with hzero | hpos
    · omega
    · have := le_bits53 hnum hden hpos
      omega

end

/-! ## The order of numbers -/

section

variable {x y z : Binary64} {num num' : Int} {den : Nat}

theorem units_ofQuotient (num : Int) (hden : 0 < den) :
    (ofQuotient num den).units = if num < 0 then -((min (rounded num.natAbs den) limit : Nat) : Int)
      else (min (rounded num.natAbs den) limit : Nat) := by
  unfold ofQuotient units
  rw [isNegative_ofRatio _ hden, magnitude_ofRatio _ hden]
  simp only [decide_eq_true_eq]

/-- **Numbers that are rounded stay in order.** -/
theorem units_ofQuotient_mono (hden : 0 < den) (h : num ≤ num') :
    (ofQuotient num den).units ≤ (ofQuotient num' den).units := by
  rw [units_ofQuotient num hden, units_ofQuotient num' hden]
  split <;> split
  · have := rounded_mono hden (show num'.natAbs ≤ num.natAbs by omega)
    omega
  · omega
  · omega
  · have := rounded_mono hden (show num.natAbs ≤ num'.natAbs by omega)
    omega

theorem units_ofQuotient_zero (hden : 0 < den) : (ofQuotient 0 den).units = 0 := by
  have hbits : bits53 0 den ≤ 0 := roundDiv_le (unit_pos hden _) (by simp)
  rw [units_ofQuotient 0 hden, if_neg (by decide), Int.natAbs_zero, rounded,
    Nat.le_zero.mp hbits, Nat.zero_mul, Nat.zero_min]
  rfl

/-- A number has no difference to itself. -/
@[simp] theorem units_sub_self (x : Binary64) : (x.sub x).units = 0 := by
  rw [sub, Int.sub_self, units_ofQuotient_zero perOne_pos]

theorem units_sub_le_left (h : x.units ≤ y.units) (z : Binary64) :
    (x.sub z).units ≤ (y.sub z).units :=
  units_ofQuotient_mono perOne_pos (by omega)

theorem units_sub_le_right (h : x.units ≤ y.units) (z : Binary64) :
    (z.sub y).units ≤ (z.sub x).units :=
  units_ofQuotient_mono perOne_pos (by omega)

/-- An infinity is as large as the least power of two that is too large. -/
theorem magnitude_of_isInfinite (h : x.isInfinite = true) : x.magnitude = limit := by
  have hhighest : 2047 - 1 = 2046 := rfl
  simp only [isInfinite, Bool.and_eq_true, decide_eq_true_eq] at h
  unfold magnitude significand
  rw [h.1, h.2, if_neg (by decide), Nat.max_eq_left (by decide), hhighest, Nat.add_zero, limit_eq,
    shiftLeft_eq_twoTo]

/-- A pattern that stands for no number would be larger. -/
theorem lt_magnitude_of_isNaN (h : x.isNaN = true) : limit < x.magnitude := by
  have hhighest : 2047 - 1 = 2046 := rfl
  simp only [isNaN, Bool.and_eq_true, decide_eq_true_eq] at h
  unfold magnitude significand
  rw [h.1, if_neg (by decide), Nat.max_eq_left (by decide), shiftLeft_eq_twoTo, hhighest, limit_eq]
  exact Nat.mul_lt_mul_of_pos_right (by omega) (twoTo_pos _)

/-- A finite number is smaller. -/
theorem magnitude_lt_of_isFinite (h : x.isFinite = true) : x.magnitude < limit := by
  have hfield : x.exponentField < exponents := Nat.mod_lt _ (by decide)
  have hne : x.exponentField ≠ 2047 := by simpa [isFinite] using h
  have hpow : twoTo (max x.exponentField 1 - 1 + 1) ≤ twoTo 2046 :=
    twoTo_mono (by unfold exponents at hfield; omega)
  unfold magnitude
  rw [shiftLeft_eq_twoTo, limit_eq]
  calc x.significand * twoTo (max x.exponentField 1 - 1)
      < 2 * fractions * twoTo (max x.exponentField 1 - 1) :=
        Nat.mul_lt_mul_of_pos_right (significand_lt x) (twoTo_pos _)
    _ = fractions * twoTo (max x.exponentField 1 - 1 + 1) := by rw [twoTo_succ]; ac_rfl
    _ ≤ fractions * twoTo 2046 := Nat.mul_le_mul_left _ hpow

theorem isFinite_of_magnitude_lt (h : x.magnitude < limit) : x.isFinite = true := by
  rw [isFinite, decide_eq_true_eq]
  intro hfield
  by_cases hfraction : x.fractionField = 0
  · have := magnitude_of_isInfinite (x := x) (by simp [isInfinite, hfield, hfraction])
    omega
  · have := lt_magnitude_of_isNaN (x := x) (by simp [isNaN, hfield, hfraction])
    omega

theorem isNaN_ofQuotient (num : Int) (hden : 0 < den) : (ofQuotient num den).isNaN = false := by
  refine Bool.eq_false_iff.mpr fun h => ?_
  have hlarge := lt_magnitude_of_isNaN h
  rw [ofQuotient, magnitude_ofRatio _ hden] at hlarge
  omega

theorem isFinite_of_units (hlow : -(limit : Int) < x.units) (hhigh : x.units < limit) :
    x.isFinite = true := by
  refine isFinite_of_magnitude_lt ?_
  unfold units at hlow hhigh
  cases hneg : x.isNegative with
  | true =>
    rw [if_pos hneg] at hlow
    omega
  | false =>
    rw [if_neg (by simp [hneg])] at hhigh
    omega

theorem isFinite_of_not (hnumber : x.isNaN = false) (h : x.isInfinite = false) :
    x.isFinite = true := by
  rw [isFinite, decide_eq_true_eq]
  intro hfield
  simp only [isNaN, isInfinite, hfield, decide_true, Bool.true_and, decide_eq_false_iff_not,
    ne_eq, Decidable.not_not] at hnumber h
  exact h hnumber

theorem units_of_isInfinite (h : x.isInfinite = true) :
    x.units = if x.isNegative then -(limit : Int) else limit := by
  rw [units, magnitude_of_isInfinite h]

theorem units_of_isFinite (h : x.isFinite = true) :
    -(limit : Int) < x.units ∧ x.units < limit := by
  have hless := magnitude_lt_of_isFinite h
  unfold units
  split <;> omega

theorem isLess_iff_of_isFinite (h : x.isFinite = true) {n : Int} :
    x.isLess n = true ↔ x.units < n * perOne := by
  have hfield : x.exponentField ≠ 2047 := by simpa [isFinite] using h
  simp [isLess, isNaN, isInfinite, hfield]

/-- **What is not greater than a number is less than an integer, if that number is.** -/
theorem isLess_of_le (hx : x.isNaN = false) (h : x.units ≤ y.units) {n : Int}
    (hy : y.isLess n = true) : x.isLess n = true := by
  unfold isLess at hy ⊢
  rw [if_neg (by simp [hx])]
  split at hy
  · cases hy
  rename_i hnumber
  cases hxi : x.isInfinite with
  | false =>
    have hfinite := units_of_isFinite (isFinite_of_not hx hxi)
    split at hy
    · rename_i hyi
      have := units_of_isInfinite hyi
      rw [if_pos hy] at this
      omega
    · rw [decide_eq_true_eq] at hy
      simpa using Int.lt_of_le_of_lt h hy
  | true =>
    -- Only the infinity that is less than everything is not greater than a number that is less.
    have hxu := units_of_isInfinite hxi
    cases hneg : x.isNegative with
    | true => rfl
    | false =>
      rw [hneg, if_neg (by decide)] at hxu
      split at hy
      · rename_i hyi
        have := units_of_isInfinite hyi
        rw [if_pos hy] at this
        have hpos : 0 < limit := limit_eq ▸ Nat.mul_pos (by decide) (twoTo_pos _)
        omega
      · rename_i hyi
        have := units_of_isFinite (isFinite_of_not (by simpa using hnumber) (by simpa using hyi))
        omega

/-- **A number that is rounded is not less than an integer, if it was not before.** -/
theorem not_isLess_ofQuotient {n : Nat} {num : Int} (hn : n < 2 * fractions)
    (h : (n * perOne : Nat) ≤ num) : (ofQuotient num perOne).isLess n = false := by
  have hlow : (n * perOne : Nat) ≤ (ofQuotient num perOne).units := by
    have hrounded := le_rounded_of_le hn (show n * perOne ≤ num.natAbs by omega)
    have hlimit : n * perOne ≤ limit := by
      rw [limit_eq, perOne_eq]
      refine Nat.le_trans (Nat.mul_le_mul_right _ (Nat.le_of_lt hn)) ?_
      have hmono := Nat.mul_le_mul_left fractions (twoTo_mono (show 1074 + 1 ≤ 2046 by decide))
      rw [twoTo_succ] at hmono
      calc 2 * fractions * twoTo 1074 = fractions * (twoTo 1074 * 2) := by ac_rfl
        _ ≤ _ := hmono
    rw [units_ofQuotient num perOne_pos, if_neg (by omega)]
    omega
  have hnumber := isNaN_ofQuotient num perOne_pos
  refine Bool.eq_false_iff.mpr fun hless => ?_
  unfold isLess at hless
  rw [if_neg (by simp [hnumber])] at hless
  split at hless
  · rename_i hinfinite
    have hunits := units_of_isInfinite hinfinite
    rw [if_pos hless] at hunits
    have hpos : 0 < limit := limit_eq ▸ Nat.mul_pos (by decide) (twoTo_pos _)
    omega
  · rw [decide_eq_true_eq] at hless
    push_cast at hlow
    omega

end

end Binary64

end Deskflow
