import Deskflow.Digest.Md5
import Deskflow.Number.Numeral
import Deskflow.Step

/-!
# Callback data

The short text that a button carries and a click sends back. It names a button by the key of its
step and its index among the step's buttons: in plain form `key:index`, and where that would be too
long in hashed form `bdigest_index`, from which the key cannot be read back.

Models `build_callback_data`, `parse_callback_data` and `build_keyboard`. Out of scope: whether two
keys share a digest, which nothing here excludes.

* `encode_plain`, `encode_hashed`: which of the two forms a key and an index get.
* `keyboard_length_le`: a keyboard has at most one key for each button.
-/

namespace Deskflow

namespace Callback

/-- The most characters that are sent. -/
def limit : Nat := 64

/-- The most bytes in the plain form. -/
def plainLimit : Nat := 60

/-- The digest of a key and an index (`_digest`). -/
def digest (key : String) (index : Int) : String :=
  String.ofList ((Md5.hex (key ++ "_" ++ integerText index)).toList.take 16)

/-- The plain form of a key and an index. -/
def plain (key : String) (index : Int) : String := key ++ ":" ++ integerText index

/-- The hashed form of a key and an index. -/
def hashed (key : String) (index : Int) : String :=
  "b" ++ digest key index ++ "_" ++ integerText index

/-- The callback data of the button at an index (`build_callback_data`). -/
def encode (key : String) (index : Int) : String :=
  let data := if plainLimit < (plain key index).utf8ByteSize then hashed key index
    else plain key index
  String.ofList (data.toList.take limit)

/-- What callback data names (`CallbackRef`): an index, with the key of a step or a digest of both.
-/
inductive Ref where
  | plain (key : String) (index : Nat)
  | hashed (digest : String) (index : Nat)
deriving DecidableEq, Repr

/-- The index of the button that is named. -/
def Ref.index : Ref → Nat
  | plain _ index => index
  | hashed _ index => index

/-- The index that a non-empty text of digits stands for. Digits of any form are let through here,
and those that have no place in a numeral are refused where the numeral is read. -/
def readIndex? (cs : List Char) : Except Fault (Option Nat) :=
  if cs.isEmpty || !cs.all Text.isDigitLike then .ok none
  else do return some (← Numeral.read (String.ofList cs)).toNat

/-- What callback data names, if it has one of the two forms (`parse_callback_data`). -/
def read? (data : String) : Except Fault (Option Ref) :=
  match Text.cutLast? ':' data.toList with
  | some (key, index) =>
    if key.isEmpty then .ok none
    else do return (← readIndex? index).map (Ref.plain (String.ofList key))
  | none =>
    match data.toList with
    | 'b' :: rest =>
      match Text.cutFirst? '_' rest with
      | some (digest, index) =>
        if digest.isEmpty then .ok none
        else do return (← readIndex? index).map (Ref.hashed (String.ofList digest))
      | none => .ok none
    | _ => .ok none

/-- A text without a line feed at its start. -/
def dropLineFeed : List Char → List Char
  | '\n' :: cs => cs
  | cs => cs

/-- The group of a member's key and the digits of its index: a non-empty group without line feeds,
`-s` and at least one decimal digit. A line feed may follow. -/
def memberOf? (key : String) : Option (String × String) :=
  let back := dropLineFeed key.toList.reverse
  let digits := back.takeWhile Text.isDecimalDigit
  match back.dropWhile Text.isDecimalDigit with
  | 's' :: '-' :: group =>
    if digits.isEmpty || group.isEmpty || group.contains '\n' then none
    else some (String.ofList group.reverse, String.ofList digits.reverse)
  | _ => none

/-- Where a key of a keyboard leads. -/
inductive Target where
  | url (address : String)
  | callback (data : String)
deriving DecidableEq, Repr

/-- A key of a keyboard; each has a row of its own. -/
structure Key where
  text : String
  target : Target
deriving DecidableEq, Repr

/-- The key for the button at an index, if it has a text and leads anywhere. -/
def keyFor? (callbackKey : String) (button : Button) (index : Nat) : Option Key :=
  if button.text = "" then none
  else match button.url, button.action with
    | some url, _ => some ⟨button.text, .url url⟩
    | none, some _ => some ⟨button.text, .callback (encode callbackKey index)⟩
    | none, none => none

/-- The keyboard for the buttons of the step with a callback key (`build_keyboard`). -/
def keyboard (callbackKey : String) (buttons : List Button) : List Key :=
  buttons.zipIdx.filterMap fun b => keyFor? callbackKey b.1 b.2

/-! ## Lemmas -/

theorem encode_plain {key : String} {index : Int}
    (h : (plain key index).utf8ByteSize ≤ plainLimit) :
    encode key index = String.ofList ((plain key index).toList.take limit) := by
  simp [encode, Nat.not_lt.2 h]

theorem encode_hashed {key : String} {index : Int}
    (h : plainLimit < (plain key index).utf8ByteSize) :
    encode key index = String.ofList ((hashed key index).toList.take limit) := by
  simp [encode, h]

theorem dropLineFeed_of_ne {c : Char} (h : c ≠ '\n') (cs : List Char) :
    dropLineFeed (c :: cs) = c :: cs := by
  unfold dropLineFeed
  split
  · rename_i heq
    cases heq
    exact absurd rfl h
  · rfl

theorem keyboard_length_le (callbackKey : String) (buttons : List Button) :
    (keyboard callbackKey buttons).length ≤ buttons.length := by
  simpa [keyboard] using
    List.length_filterMap_le (fun b => keyFor? callbackKey b.1 b.2) buttons.zipIdx

end Callback

end Deskflow
