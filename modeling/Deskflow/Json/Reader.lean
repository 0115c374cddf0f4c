import Deskflow.Json.Printer

/-!
# Reading values from JSON

A number with a point or an exponent is a double-precision number, and any other an integer of any
size. Of fields with one name the last counts, in the place of the first. An object whose only
field is `$float` stands for a number that is not finite.

The reader goes down into lists and objects no deeper than the text is long, so it always ends.

* `skipBlanks_idem`: blanks between tokens are skipped at once.
* `read?_null`: blanks around a word do not change what it stands for.
-/

namespace Deskflow

namespace Json

/-- Whether a character may stand between tokens. -/
def isBlank (c : Char) : Bool := c = ' ' || c = '\t' || c = '\n' || c = '\r'

/-- The text from the next token on. -/
def skipBlanks (cs : List Char) : List Char := cs.dropWhile isBlank

/-- The value of a hexadecimal digit. -/
def hexValue? (c : Char) : Option Nat :=
  if '0' ≤ c && c ≤ '9' then some (c.toNat - '0'.toNat)
  else if 'a' ≤ c && c ≤ 'f' then some (c.toNat - 'a'.toNat + 10)
  else if 'A' ≤ c && c ≤ 'F' then some (c.toNat - 'A'.toNat + 10)
  else none

/-- The number that four hexadecimal digits at the start of a text stand for, and the rest. -/
def hex4? : List Char → Option (Nat × List Char)
  | a :: b :: c :: d :: rest => do
    let value := (((← hexValue? a) * 16 + (← hexValue? b)) * 16 + (← hexValue? c)) * 16
      + (← hexValue? d)
    return (value, rest)
  | _ => none

/-- The character that two halves of a pair stand for. -/
def joinPair (high low : Nat) : Char :=
  Char.ofNat (0x10000 + (high - 0xD800) * 0x400 + (low - 0xDC00))

/-- The character that stands for half a pair. -/
def replacement : Char := Char.ofNat 0xFFFD

/-- The character that follows an escaped `u`, and the rest. -/
def unicode? (cs : List Char) : Option (Char × List Char) := do
  let (high, rest) ← hex4? cs
  if 0xD800 ≤ high && high < 0xDC00 then
    match rest with
    | '\\' :: 'u' :: more =>
      let (low, after) ← hex4? more
      if 0xDC00 ≤ low && low < 0xE000 then return (joinPair high low, after)
      return (replacement, rest)
    | _ => return (replacement, rest)
  if 0xDC00 ≤ high && high < 0xE000 then return (replacement, rest)
  return (Char.ofNat high, rest)

/-- The character that a short escape stands for. -/
def shortEscape? : Char → Option Char
  | '"' => some '"'
  | '\\' => some '\\'
  | '/' => some '/'
  | 'b' => some (Char.ofNat 8)
  | 'f' => some (Char.ofNat 12)
  | 'n' => some '\n'
  | 'r' => some '\r'
  | 't' => some '\t'
  | _ => none

/-- The rest of a string after its opening quote, and what follows; `done` holds the characters
read, last one first. -/
def stringFrom? : Nat → List Char → List Char → Option (String × List Char)
  | 0, _, _ => none
  | fuel + 1, done, cs =>
    match cs with
    | '"' :: rest => some (String.ofList done.reverse, rest)
    | '\\' :: 'u' :: rest => do
      let (c, rest) ← unicode? rest
      stringFrom? fuel (c :: done) rest
    | '\\' :: c :: rest => do stringFrom? fuel ((← shortEscape? c) :: done) rest
    | c :: rest => stringFrom? fuel (c :: done) rest
    | [] => none

/-- The number that ASCII digits stand for. -/
def digitsValue (cs : List Char) : Nat := cs.foldl (fun n c => 10 * n + (c.toNat - '0'.toNat)) 0

/-- A sign at the start of a text, and the rest. -/
def takeSign : List Char → Bool × List Char
  | '-' :: rest => (true, rest)
  | '+' :: rest => (false, rest)
  | cs => (false, cs)

/-- The exponent at the start of a text, if there is one, and the rest. -/
def exponent? : List Char → Option (Option Int × List Char)
  | c :: rest =>
    if c = 'e' || c = 'E' then
      let (negative, rest) := takeSign rest
      let digits := rest.takeWhile Char.isDigit
      if digits.isEmpty then none
      else
        let value : Int := digitsValue digits
        some (some (if negative then -value else value), rest.dropWhile Char.isDigit)
    else some (none, c :: rest)
  | [] => some (none, [])

/-- A number without its sign, and what follows. -/
def number? (negative : Bool) (cs : List Char) : Option (Value × List Char) := do
  let whole := cs.takeWhile Char.isDigit
  if whole.isEmpty then none
  let rest := cs.dropWhile Char.isDigit
  let (places, rest) ← match rest with
    | '.' :: rest =>
      let places := rest.takeWhile Char.isDigit
      if places.isEmpty then none else some (some places, rest.dropWhile Char.isDigit)
    | _ => some (none, rest)
  let (exponent, rest) ← exponent? rest
  match places, exponent with
  | none, none =>
    let n : Int := digitsValue whole
    return (.int (if negative then -n else n), rest)
  | _, _ =>
    let places := places.getD []
    return (.float (Binary64.ofDecimal negative (digitsValue (whole ++ places))
      (exponent.getD 0 - places.length)), rest)

/-- The words of JSON and what they stand for. -/
def words : List (List Char × Value) :=
  [("null".toList, .null), ("true".toList, .bool true), ("false".toList, .bool false),
    ("NaN".toList, .float Binary64.notANumber),
    ("Infinity".toList, .float (Binary64.infinity false)),
    ("-Infinity".toList, .float (Binary64.infinity true))]

/-- A word, and what follows. -/
def word? (cs : List Char) : Option (Value × List Char) :=
  words.findSome? fun w => if w.1.isPrefixOf cs then some (w.2, cs.drop w.1.length) else none

/-- The number that is not finite with a name. -/
def nonFinite? : Value → Option Binary64
  | .str "inf" => some (Binary64.infinity false)
  | .str "-inf" => some (Binary64.infinity true)
  | .str "nan" => some Binary64.notANumber
  | _ => none

/-- What the fields of an object stand for. -/
def objectValue (fields : Record) : Value :=
  match fields with
  | [(name, v)] =>
    if name = floatField then ((nonFinite? v).map Value.float).getD (.object fields)
    else .object fields
  | _ => .object fields

mutual

/-- A value at the start of a text, and what follows. -/
def value? : Nat → List Char → Option (Value × List Char)
  | 0, _ => none
  | fuel + 1, cs =>
    match cs with
    | '"' :: rest => (stringFrom? (rest.length + 1) [] rest).map fun r => (.str r.1, r.2)
    | '[' :: rest =>
      match skipBlanks rest with
      | ']' :: rest => some (.list [], rest)
      | rest => items? fuel [] rest
    | '\x7b' :: rest =>
      match skipBlanks rest with
      | '\x7d' :: rest => some (.object [], rest)
      | rest => fields? fuel [] rest
    | '-' :: rest => if rest.head?.any Char.isDigit then number? true rest else word? cs
    | c :: _ => if c.isDigit then number? false cs else word? cs
    | [] => none

/-- The items of a list from one of them on, and what follows the list; `done` holds those before,
last one first. -/
def items? : Nat → List Value → List Char → Option (Value × List Char)
  | 0, _, _ => none
  | fuel + 1, done, cs => do
    let (v, rest) ← value? fuel cs
    match skipBlanks rest with
    | ',' :: rest => items? fuel (v :: done) (skipBlanks rest)
    | ']' :: rest => return (.list (v :: done).reverse, rest)
    | _ => none

/-- The fields of an object from one of them on, and what follows the object. -/
def fields? : Nat → Record → List Char → Option (Value × List Char)
  | 0, _, _ => none
  | fuel + 1, done, cs => do
    let '"' :: rest := cs | none
    let (name, rest) ← stringFrom? (rest.length + 1) [] rest
    let ':' :: rest := skipBlanks rest | none
    let (v, rest) ← value? fuel (skipBlanks rest)
    let done := done.put name v
    match skipBlanks rest with
    | ',' :: rest => fields? fuel done (skipBlanks rest)
    | '\x7d' :: rest => return (objectValue done, rest)
    | _ => none

end

/-- The value that a text stands for. -/
def read? (s : String) : Option Value := do
  let cs := skipBlanks s.toList
  let (v, rest) ← value? (cs.length + 1) cs
  if (skipBlanks rest).isEmpty then some v else none

/-! ## Lemmas -/

theorem skipBlanks_idem (cs : List Char) : skipBlanks (skipBlanks cs) = skipBlanks cs := by
  induction cs with
  | nil => rfl
  | cons c cs ih =>
    by_cases h : isBlank c = true
    · simpa [skipBlanks, h] using ih
    · simp [skipBlanks, h]

theorem read?_null : read? " null " = some .null := by decide +kernel

end Json

end Deskflow
