import Deskflow.Number.Binary64

/-!
# Values

The free-form values that step settings, metadata and requests hold, and the records that objects
are. A record keeps its fields in the order in which they were first written.

* `Value.beq_iff_eq`: equality of values is decidable.
* `Record.get?_put_self`, `Record.get?_put_ne`, `Record.get?_erase_ne`: reading a field after a
  write returns what was written there, and no other field notices.
* `Record.erase_put_self`, `Record.erase_put`: what is written to a field that is erased then leaves
  no trace.
-/

namespace Deskflow

/-- A free-form value. -/
inductive Value where
  | null
  | bool (b : Bool)
  | int (n : Int)
  | float (x : Binary64)
  | str (s : String)
  | list (items : List Value)
  | object (fields : List (String × Value))
deriving Repr, Inhabited

/-- The fields of an object, with distinct names, in the order of their first writing. -/
abbrev Record := List (String × Value)

namespace Record

/-- The value of a field. -/
def get? (r : Record) (name : String) : Option Value := r.lookup name

/-- The value of a field; a missing field is null. -/
def getD (r : Record) (name : String) : Value := (r.get? name).getD .null

/-- Whether a field is present. -/
def has (r : Record) (name : String) : Bool := (r.get? name).isSome

/-- The record with a field set: in its place if it is present, and at the end otherwise. -/
def put : Record → String → Value → Record
  | [], name, v => [(name, v)]
  | (n, w) :: r, name, v => if name == n then (n, v) :: r else (n, w) :: put r name v

/-- The record without a field. -/
def erase (r : Record) (name : String) : Record := r.filter fun f => name != f.1

/-- The first record with the fields of the second written over it. -/
def merge (r s : Record) : Record := s.foldl (fun r f => r.put f.1 f.2) r

end Record

namespace Value

mutual

/-- Equality of values, field by field. -/
def beq : Value → Value → Bool
  | .null, .null => true
  | .bool a, .bool b => a == b
  | .int a, .int b => a == b
  | .float a, .float b => a == b
  | .str a, .str b => a == b
  | .list a, .list b => beqList a b
  | .object a, .object b => beqFields a b
  | _, _ => false

/-- Equality of lists of values. -/
def beqList : List Value → List Value → Bool
  | [], [] => true
  | a :: as, b :: bs => beq a b && beqList as bs
  | _, _ => false

/-- Equality of lists of fields. -/
def beqFields : List (String × Value) → List (String × Value) → Bool
  | [], [] => true
  | (n, a) :: as, (m, b) :: bs => n == m && beq a b && beqFields as bs
  | _, _ => false

end

mutual

theorem beq_iff_eq : (a b : Value) → (beq a b = true ↔ a = b)
  | .null, b => by cases b <;> simp [beq]
  | .bool _, b => by cases b <;> simp [beq]
  | .int _, b => by cases b <;> simp [beq]
  | .float _, b => by cases b <;> simp [beq]
  | .str _, b => by cases b <;> simp [beq]
  | .list as, b => by cases b <;> simp [beq, beqList_iff_eq as]
  | .object as, b => by cases b <;> simp [beq, beqFields_iff_eq as]

theorem beqList_iff_eq : (as bs : List Value) → (beqList as bs = true ↔ as = bs)
  | [], bs => by cases bs <;> simp [beqList]
  | a :: as, bs => by cases bs <;> simp [beqList, beq_iff_eq a, beqList_iff_eq as]

theorem beqFields_iff_eq :
    (as bs : List (String × Value)) → (beqFields as bs = true ↔ as = bs)
  | [], bs => by cases bs <;> simp [beqFields]
  | (n, a) :: as, bs => by
    cases bs <;> simp [beqFields, beq_iff_eq a, beqFields_iff_eq as, Prod.ext_iff, and_assoc]

end

instance : DecidableEq Value := fun a b => decidable_of_iff _ (beq_iff_eq a b)

/-- The kinds of values. -/
inductive Kind where
  | null | bool | int | float | str | list | object
deriving DecidableEq, Repr

/-- The kind of a value. -/
def kind : Value → Kind
  | .null => .null
  | .bool _ => .bool
  | .int _ => .int
  | .float _ => .float
  | .str _ => .str
  | .list _ => .list
  | .object _ => .object

/-- The word for a kind in messages. -/
def Kind.word : Kind → String
  | .null => "NoneType"
  | .bool => "bool"
  | .int => "int"
  | .float => "float"
  | .str => "str"
  | .list => "list"
  | .object => "dict"

/-- Whether a value counts as given: null, false, zeros, and empty texts, lists and objects do
not. -/
def isGiven : Value → Bool
  | .null => false
  | .bool b => b
  | .int n => n != 0
  | .float x => !x.isZero
  | .str s => s != ""
  | .list xs => !xs.isEmpty
  | .object fs => !fs.isEmpty

/-- The value if it counts as given, and `other` otherwise. -/
def orElse (v other : Value) : Value := if v.isGiven then v else other

/-- The fields of an object; any other value has none. -/
def fields : Value → Record
  | .object fs => fs
  | _ => []

/-- Whether a value is null or the empty text, the two ways to leave a setting out. -/
def isLeftOut : Value → Bool
  | .null => true
  | .str s => s == ""
  | _ => false

/-- A text, or null. -/
def ofText? : Option String → Value
  | some s => .str s
  | none => .null

/-- An integer, or null. -/
def ofInt? : Option Int → Value
  | some n => .int n
  | none => .null

/-- The text if the value is one. -/
def text? : Value → Option String
  | .str s => some s
  | _ => none

end Value

/-! ## Lemmas -/

namespace Record

@[simp] theorem get?_nil (name : String) : get? [] name = none := rfl

theorem get?_cons (n name : String) (v : Value) (r : Record) :
    get? ((n, v) :: r) name = if name == n then some v else get? r name := by
  simp only [get?, List.lookup_cons]
  cases h : name == n <;> simp

@[simp] theorem get?_put_self (r : Record) (name : String) (v : Value) :
    (r.put name v).get? name = some v := by
  induction r with
  | nil => simp [put, get?_cons]
  | cons f r ih =>
    obtain ⟨n, w⟩ := f
    simp only [put]
    split
    · rename_i h
      simp [get?_cons, h]
    · rename_i h
      simp [get?_cons, h, ih]

theorem get?_put_ne (r : Record) {name other : String} (v : Value) (h : other ≠ name) :
    (r.put name v).get? other = r.get? other := by
  induction r with
  | nil => simp [put, get?_cons, h]
  | cons f r ih =>
    obtain ⟨n, w⟩ := f
    simp only [put]
    split
    · rename_i hn
      have : other ≠ n := fun e => h (e.trans (by simpa using hn : name = n).symm)
      simp [get?_cons, this]
    · simp [get?_cons, ih]

theorem getD_cons (n name : String) (v : Value) (r : Record) :
    getD ((n, v) :: r) name = if name == n then v else r.getD name := by
  rw [getD, get?_cons]
  cases name == n <;> rfl

theorem getD_put_ne (r : Record) {name other : String} (v : Value) (h : other ≠ name) :
    (r.put name v).getD other = r.getD other := by
  rw [getD, get?_put_ne r v h, getD]

theorem has_put (r : Record) (name other : String) (v : Value) :
    (r.put name v).has other = (other == name || r.has other) := by
  by_cases h : other = name
  · simp [has, h]
  · simp [has, get?_put_ne r v h, h]

theorem has_cons (n name : String) (v : Value) (r : Record) :
    has ((n, v) :: r) name = (name == n || r.has name) := by
  rw [has, get?_cons]
  cases name == n <;> rfl

/-- A merged record has the fields of both. -/
theorem has_merge (r s : Record) (name : String) :
    (merge r s).has name = (r.has name || s.has name) := by
  induction s generalizing r with
  | nil => simp [merge, has]
  | cons f s ih =>
    obtain ⟨n, v⟩ := f
    rw [show merge r ((n, v) :: s) = merge (r.put n v) s from rfl, ih, has_put, has_cons]
    cases name == n <;> cases r.has name <;> rfl

@[simp] theorem get?_erase_self (r : Record) (name : String) : (r.erase name).get? name = none := by
  induction r with
  | nil => rfl
  | cons f r ih =>
    obtain ⟨n, w⟩ := f
    by_cases h : name = n
    · simpa [erase, h] using (h ▸ ih)
    · simpa [erase, h, get?_cons] using ih

theorem get?_erase_ne (r : Record) {name other : String} (h : other ≠ name) :
    (r.erase name).get? other = r.get? other := by
  induction r with
  | nil => rfl
  | cons f r ih =>
    obtain ⟨n, w⟩ := f
    by_cases hn : name = n
    · have : other ≠ n := fun e => h (e.trans hn.symm)
      simpa [erase, hn, get?_cons, this] using (hn ▸ ih)
    · have ih' : List.lookup other (r.filter fun f => name != f.1) = List.lookup other r := ih
      simp [erase, hn, get?, List.lookup_cons, ih']

theorem getD_erase_ne (r : Record) {name other : String} (h : other ≠ name) :
    (r.erase name).getD other = r.getD other := by
  rw [getD, get?_erase_ne r h, getD]

theorem erase_eq_self {r : Record} {name : String} (h : r.get? name = none) :
    r.erase name = r := by
  induction r with
  | nil => rfl
  | cons f r ih =>
    obtain ⟨n, w⟩ := f
    rw [get?_cons] at h
    split at h
    · simp at h
    · rename_i hn
      have hne : (name != n) = true := by simpa [bne] using hn
      have := ih h
      simp only [erase] at this
      simp [erase, hne, this]

theorem erase_put_self (r : Record) (name : String) (v : Value) :
    (r.put name v).erase name = r.erase name := by
  induction r with
  | nil => simp [put, erase]
  | cons f r ih =>
    obtain ⟨n, w⟩ := f
    by_cases h : name = n
    · subst h
      simp [put, erase]
    · have ih' : (put r name v).filter (fun f => name != f.1) = r.filter fun f => name != f.1 := ih
      simp [put, erase, h, ih']

theorem erase_put {r : Record} {name : String} (v : Value) (h : r.get? name = none) :
    (r.put name v).erase name = r := by
  rw [erase_put_self, erase_eq_self h]

end Record

end Deskflow
