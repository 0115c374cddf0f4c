import Deskflow.Number.Binary64

/-!
# Shortest decimals

The decimal with the fewest digits that reads back as a given double-precision number, and its
text. Among decimals of that length the one nearest to the number is taken, and of two that are
equally near the one with an even last digit.

The reals that round to a number `m * 2 ^ q` form an interval around it, which is open unless `m`
is even. For each count of digits only the two decimals next to the number can lie in the
interval, so the first count for which one of them does is the least.

* `holds_of_neighbour?`: a decimal that is taken lies in the interval.
* `digitText_length_le`: how many digits a natural number has.
* `digitText_injective`: no two natural numbers have the same digits.
-/

namespace Deskflow

/-- The decimal `digits * 10 ^ exponent`. -/
structure Decimal where
  digits : Nat
  exponent : Int
deriving DecidableEq, Repr

namespace Decimal

/-- The reals that round to a number: those between `low / unit` and `high / unit`, where the
number itself is `middle / unit`, with the ends if `closed`. -/
structure Interval where
  low : Nat
  middle : Nat
  high : Nat
  unit : Nat
  closed : Bool

/-- The interval of a positive finite number. The distance to the number below is half as large
where the significand is the least of its scale. -/
def Interval.of (x : Binary64) : Interval :=
  let m := x.significand
  let below := if x.fractionField = 0 && 1 < x.exponentField then 1 else 2
  let power := x.scale - 2
  { low := (4 * m - below) <<< power.toNat
    middle := (4 * m) <<< power.toNat
    high := (4 * m + 2) <<< power.toNat
    unit := 1 <<< (-power).toNat
    closed := m % 2 = 0 }

/-- The numerator and denominator of `digits * 10 ^ exponent`. -/
def ratio (d : Decimal) : Nat × Nat :=
  (d.digits * Binary64.tenTo d.exponent.toNat, Binary64.tenTo (-d.exponent).toNat)

/-- Whether a decimal lies in an interval. -/
def Interval.holds (i : Interval) (d : Decimal) : Bool :=
  let (num, den) := d.ratio
  let lower := i.low * den
  let upper := i.high * den
  let value := num * i.unit
  if i.closed then lower ≤ value && value ≤ upper else lower < value && value < upper

/-- The distance of a decimal from the middle of an interval, as a numerator over
`unit * den` with the decimal's denominator. -/
def Interval.distance (i : Interval) (d : Decimal) : Nat :=
  let (num, den) := d.ratio
  let value := num * i.unit
  let middle := i.middle * den
  if value ≤ middle then middle - value else value - middle

/-- The exponent of the first digit of `num / den`: the largest `e` with `10 ^ e ≤ num / den`. -/
def leadingExponent (num den : Nat) : Int :=
  let estimate : Int := ((num.log2 : Int) - den.log2) * 30103 / 100000 - 1
  let reaches (e : Int) : Bool :=
    den * Binary64.tenTo e.toNat ≤ num * Binary64.tenTo (-e).toNat
  if reaches (estimate + 2) then estimate + 2
  else if reaches (estimate + 1) then estimate + 1
  else if reaches estimate then estimate
  else estimate - 1

/-- The largest multiple of `10 ^ exponent` that does not exceed `num / den`. -/
def floorAt (num den : Nat) (exponent : Int) : Decimal :=
  ⟨num * Binary64.tenTo (-exponent).toNat / (den * Binary64.tenTo exponent.toNat), exponent⟩

/-- The nearer of two decimals to the middle of an interval; of two that are equally near the one
with even digits. -/
def Interval.nearer (i : Interval) (low high : Decimal) : Decimal :=
  let toLow := i.distance low
  let toHigh := i.distance high
  if toLow < toHigh || (toLow = toHigh && low.digits % 2 = 0) then low else high

/-- The better of the two neighbours of the middle of an interval on a decimal grid, if one of
them lies in the interval. -/
def Interval.neighbour? (i : Interval) (exponent : Int) : Option Decimal :=
  let low := floorAt i.middle i.unit exponent
  let high : Decimal := ⟨low.digits + 1, exponent⟩
  match i.holds low, i.holds high with
  | true, true => some (i.nearer low high)
  | true, false => some low
  | false, true => some high
  | false, false => none

/-- The decimal without trailing zeros in its digits, at most `count` of them. -/
def dropZeros : Nat → Decimal → Decimal
  | 0, d => d
  | count + 1, d =>
    if d.digits % 10 = 0 && d.digits ≠ 0 then dropZeros count ⟨d.digits / 10, d.exponent + 1⟩
    else d

/-- The shortest decimal that reads back as a positive finite number. -/
def shortest (x : Binary64) : Decimal :=
  let i := Interval.of x
  let lead := leadingExponent i.middle i.unit
  let found := (List.range 17).findSome? fun (n : Nat) => i.neighbour? (lead - n)
  dropZeros 20 (found.getD (floorAt i.middle i.unit (lead - 16)))

/-- The decimal digits of a natural number. -/
def digitText (n : Nat) : String := String.ofList (Nat.toDigits 10 n)

/-- The text of an exponent, with its sign and at least two digits. -/
def exponentText (e : Int) : String :=
  let digits := digitText e.natAbs
  (if e < 0 then "-" else "+") ++ (if digits.length < 2 then "0" ++ digits else digits)

/-- The text of a decimal: positional where the point falls between four zeros before the first
digit and sixteen digits, and with an exponent otherwise. A positional text always has a point. -/
def render (d : Decimal) : String :=
  let digits := Nat.toDigits 10 d.digits
  let point : Int := digits.length + d.exponent
  let zeros (n : Int) : String := String.ofList (List.replicate n.toNat '0')
  let text := String.ofList digits
  if -4 < point && point ≤ 16 then
    if point ≤ 0 then "0." ++ zeros (-point) ++ text
    else if digits.length ≤ point.toNat then text ++ zeros (point - digits.length) ++ ".0"
    else String.ofList (digits.take point.toNat) ++ "." ++ String.ofList (digits.drop point.toNat)
  else
    let mantissa := match digits with
      | [c] => String.ofList [c]
      | c :: cs => String.ofList (c :: '.' :: cs)
      | [] => "0"
    mantissa ++ "e" ++ exponentText (point - 1)

end Decimal

/-- The text of a double-precision number: the shortest that reads back, with a point or an
exponent; a zero keeps its sign. -/
def Binary64.render (x : Binary64) : String :=
  if x.isNaN then "nan"
  else
    let sign := if x.isNegative then "-" else ""
    if x.isInfinite then sign ++ "inf"
    else if x.isZero then sign ++ "0.0"
    else sign ++ (Decimal.shortest x).render

/-! ## Lemmas -/

theorem Decimal.holds_of_neighbour? {i : Interval} {exponent : Int} {d : Decimal}
    (h : i.neighbour? exponent = some d) : i.holds d = true := by
  simp only [Interval.neighbour?] at h
  split at h
  · rename_i hlow hhigh
    have hd : i.nearer _ _ = d := Option.some.inj h
    simp only [Interval.nearer] at hd
    split at hd
    · exact hd ▸ hlow
    · exact hd ▸ hhigh
  · rename_i hlow _
    exact Option.some.inj h ▸ hlow
  · rename_i _ hhigh
    exact Option.some.inj h ▸ hhigh
  · simp at h

theorem Decimal.isDigit_of_mem_digitText {n : Nat} {c : Char} (h : c ∈ (digitText n).toList) :
    c.isDigit = true := by
  rw [digitText, String.toList_ofList] at h
  exact Nat.isDigit_of_mem_toDigits (by omega) (by omega) h

@[simp] theorem Decimal.digitText_ne_empty (n : Nat) : digitText n ≠ "" := by
  simp [digitText, Nat.toDigits_ne_nil]

theorem Decimal.digitText_injective : Function.Injective digitText := by
  intro m n h
  have h := congrArg (fun s => Nat.ofDigitChars 10 s.toList 0) h
  simpa [digitText] using h

theorem Decimal.digitText_length_le {n k : Nat} (hk : 0 < k) :
    (digitText n).toList.length ≤ k ↔ n < Nat.pow 10 k := by
  rw [digitText, String.toList_ofList]
  exact Nat.length_toDigits_le_iff (by omega) hk

end Deskflow
