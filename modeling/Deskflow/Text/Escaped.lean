import Deskflow.Text.Blank
import Deskflow.Text.Quoted
import Deskflow.Text.Utf8

/-!
# Escapes in addresses

The parts of an address are written with a percent sign and two hexadecimal digits for each byte
that has to be escaped, and with a plus for a blank in parameters. A percent sign that no two
digits follow stands for itself.

* `escapeByte_unreserved`: letters, digits and four marks are written as they are.
* `parameters_nil`: an empty text has no parameters.
-/

namespace Deskflow.Text

/-- The value of a hexadecimal digit. -/
def hexValue? (c : Char) : Option Nat :=
  if c.isDigit then some (c.toNat - 48)
  else if 'a' ≤ c && c ≤ 'f' then some (c.toNat - 87)
  else if 'A' ≤ c && c ≤ 'F' then some (c.toNat - 55)
  else none

/-- The bytes of a character. -/
def bytesOf (c : Char) : List UInt8 := (String.singleton c).toUTF8.toList

/-- The bytes that a text with escapes stands for; `skip` counts the characters of an escape that
are still to be passed over. -/
def unescapeBytes : Nat → List Char → List UInt8
  | _, [] => []
  | skip + 1, _ :: cs => unescapeBytes skip cs
  | 0, c :: cs =>
    match c, cs with
    | '%', a :: b :: _ =>
      match hexValue? a, hexValue? b with
      | some high, some low => UInt8.ofNat (16 * high + low) :: unescapeBytes 2 cs
      | _, _ => bytesOf c ++ unescapeBytes 0 cs
    | _, _ => bytesOf c ++ unescapeBytes 0 cs

/-- The text that a text with escapes stands for. -/
def unescape (cs : List Char) : String :=
  String.ofList (decode (unescapeBytes 0 cs))

/-- Whether a byte is written as it is: ASCII letters and digits, and four marks. -/
def isUnreserved (b : UInt8) : Bool :=
  let c := Char.ofNat b.toNat
  c.isAlphanum || c = '_' || c = '.' || c = '-' || c = '~'

/-- A byte with an escape, unless it is written as it is or is one of some others. -/
def escapeByte (plain : List Char) (b : UInt8) : List Char :=
  let c := Char.ofNat b.toNat
  if isUnreserved b || plain.contains c then [c]
  else '%' :: (hexDigits 2 b.toNat).map Char.toUpper

/-- A text with escapes. -/
def escape (plain : List Char) (s : String) : String :=
  String.ofList (s.toUTF8.toList.flatMap (escapeByte plain))

/-- A part of a parameter, with a plus for each blank. -/
def escapeParameter (s : String) : String :=
  String.ofList ((escape [' '] s).toList.map fun c => if c = ' ' then '+' else c)

/-- The text that a part of a parameter stands for. -/
def unescapeParameter (cs : List Char) : String :=
  unescape (cs.map fun c => if c = '+' then ' ' else c)

/-- One parameter with its value, which is empty where there is none. -/
def parameter (s : String) : String × String :=
  match cutFirst? '=' s.toList with
  | some (name, value) => (unescapeParameter name, unescapeParameter value)
  | none => (unescapeParameter s.toList, "")

/-- The parameters in a text, with an ampersand between neighbours. -/
def parameters (s : String) : List (String × String) :=
  ((splitAt '&' s).filter (· ≠ "")).map parameter

/-! ## Lemmas -/

theorem escapeByte_unreserved {plain : List Char} {b : UInt8} (h : isUnreserved b = true) :
    escapeByte plain b = [Char.ofNat b.toNat] := by
  simp [escapeByte, h]

theorem parameters_nil : parameters "" = [] := by decide +kernel

end Deskflow.Text
