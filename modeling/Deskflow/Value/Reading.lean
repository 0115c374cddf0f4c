import Deskflow.Number.Numeral

/-!
# Reading values

What a free-form value stands for where an integer, a list or a record is expected. Each reader
says by its fault what is wrong with the value.

* `toInt?_eq_error`: only an infinite number is not taken for a missing integer.
* `toRecord_object`, `field_object`: an object stands for its own record.
* `field_eq_error_iff`: what has no fields.
* `toInt_eq_infinite_iff`: only an infinite number is refused as one.
-/

namespace Deskflow.Value

/-- The integer that a value stands for: of a number its part towards zero, of a truth value
zero or one, of a text the numeral it holds. -/
def toInt : Value → Except Fault Int
  | .int n => .ok n
  | .bool b => .ok (if b then 1 else 0)
  | .float x =>
    if x.isNaN then .error .undefinedNumber
    else if x.isInfinite then .error .infiniteNumber
    else .ok x.truncate
  | .str s => Numeral.read s
  | v => .error (.notNumeric v.kind)

/-- The integer that a value stands for, or none if it stands for none. An infinite number is
not taken for a missing one. -/
def toInt? (v : Value) : Except Fault (Option Int) :=
  match v.toInt with
  | .ok n => .ok (some n)
  | .error .infiniteNumber => .error .infiniteNumber
  | .error _ => .ok none

/-- The items of a list, the names of an object's fields, or the characters of a text. -/
def items : Value → Except Fault (List Value)
  | .list xs => .ok xs
  | .object fs => .ok (fs.map fun f => .str f.1)
  | .str s => .ok (s.toList.map fun c => .str (String.singleton c))
  | v => .error (.notIterable v.kind)

/-- The items of a value that counts as given; any other value has none. -/
def givenItems (v : Value) : Except Fault (List Value) := if v.isGiven then v.items else .ok []

/-- A field of an object that may be missing as a whole: a value that does not count as given has
no fields, and one that does has to be an object. -/
def field (v : Value) (name : String) : Except Fault Value :=
  if v.isGiven then
    match v with
    | .object fs => .ok (Record.getD fs name)
    | _ => .error (.noField v.kind "get")
  else .ok .null

/-- What a value counts as where it names a field: a truth value and a number without a fraction
count as the integer they are. -/
def key : Value → Value
  | .bool b => .int (if b then 1 else 0)
  | .float x => (x.integer?.map Value.int).getD (.float x)
  | v => v

/-- The name under which a field is written that a value names. -/
def writtenName : Value → String
  | .str s => s
  | .null => "null"
  | .bool b => if b then "true" else "false"
  | .float x =>
    if x.isNaN then "NaN"
    else if x.isInfinite then (if x.isNegative then "-Infinity" else "Infinity")
    else x.render
  | v => v.text

/-- Fields with one more: in the place of the field whose name counts as the same, if there is one,
and at the end otherwise. -/
def putNamed : List (Value × Value) → Value → Value → List (Value × Value)
  | [], name, v => [(name, v)]
  | (n, w) :: fs, name, v =>
    if n.key = name.key then (n, v) :: fs else (n, w) :: putNamed fs name v

/-- The two parts of an item that is used as a field of a record. -/
def toPair (index : Nat) : Value → Except Fault (Value × Value)
  | .list [a, b] => .ok (a, b)
  | .list xs => .error (.fieldSize index xs.length)
  | .object [(a, _), (b, _)] => .ok (.str a, .str b)
  | .object fs => .error (.fieldSize index fs.length)
  | .str s =>
    match s.toList with
    | [a, b] => .ok (.str (String.singleton a), .str (String.singleton b))
    | cs => .error (.fieldSize index cs.length)
  | _ => .error (.fieldKind index)

/-- The value if it can name a field, which lists and objects cannot. -/
def toName : Value → Except Fault Value
  | .list _ => .error (.notName .list)
  | .object _ => .error (.notName .object)
  | v => .ok v

/-- The fields that a list of items stands for, the first of which has this index, put to others. -/
def toFields : List Value → Nat → List (Value × Value) → Except Fault (List (Value × Value))
  | [], _, fs => .ok fs
  | v :: vs, index, fs => do
    let (name, w) ← v.toPair index
    toFields vs (index + 1) (putNamed fs (← name.toName) w)

/-- The record of fields with written names; of fields that are written alike the last counts. -/
def ofFields (fs : List (Value × Value)) : Record :=
  fs.foldl (fun r f => r.put f.1.writtenName f.2) []

/-- The record that a value stands for: that of an object, and else that of the items read as
fields. -/
def asRecord : Value → Except Fault Record
  | .object fs => .ok fs
  | v => do return ofFields (← toFields (← v.items) 0 [])

/-- The record that a value stands for if it counts as given, and the empty one otherwise. -/
def toRecord (v : Value) : Except Fault Record := if v.isGiven then v.asRecord else .ok []

/-! ## Lemmas -/

@[simp] theorem toInt_int (n : Int) : (Value.int n).toInt = .ok n := rfl

@[simp] theorem toRecord_object (r : Record) : (Value.object r).toRecord = .ok r := by
  cases r <;> rfl

@[simp] theorem toRecord_null : Value.null.toRecord = .ok [] := rfl

@[simp] theorem field_object (r : Record) (name : String) :
    (Value.object r).field name = .ok (r.getD name) := by
  cases r <;> rfl

/-- What counts as given and is no object has no fields, and nothing else has none. -/
theorem field_eq_error_iff {v : Value} {name : String} :
    (∃ fault, v.field name = .error fault) ↔ v.isGiven = true ∧ v.kind ≠ .object := by
  unfold field
  by_cases hgiven : v.isGiven = true
  · rw [if_pos hgiven]
    cases v <;> simp [hgiven, kind]
  · rw [if_neg hgiven]
    simp [hgiven]

/-- What is read of a value by name is what the record of it says. -/
theorem getD_of_toRecord {m v : Value} {r : Record} {name : String} (hr : m.toRecord = .ok r)
    (hv : m.field name = .ok v) : r.getD name = v := by
  unfold toRecord at hr
  unfold field at hv
  split at hr
  · rename_i hgiven
    rw [if_pos hgiven] at hv
    cases m with
    | object fs =>
      cases hr
      exact Except.ok.inj hv
    | _ => cases hv
  · rename_i hgiven
    rw [if_neg hgiven] at hv
    cases hr
    exact Except.ok.inj hv

/-- Only an infinite number is refused as one: of a text it is not asked. -/
theorem toInt_eq_infinite_iff {v : Value} :
    v.toInt = .error .infiniteNumber ↔ ∃ x, v = .float x ∧ x.isInfinite = true := by
  cases v with
  | float x =>
    have hnan := x.isNaN_not_infinite
    simp only [toInt]
    split
    · simp_all
    · split <;> simp_all
  | str s =>
    simp only [toInt, reduceCtorEq, false_and, exists_false, iff_false]
    unfold Numeral.read
    repeat' split
    all_goals simp
  | _ => simp [toInt]

theorem toInt?_eq_error {v : Value} {f : Fault} (h : v.toInt? = .error f) :
    v.toInt = .error .infiniteNumber ∧ f = .infiniteNumber := by
  unfold toInt? at h
  split at h
  · simp at h
  · rename_i h'
    exact ⟨h', by simpa using h.symm⟩
  · simp at h

end Deskflow.Value
