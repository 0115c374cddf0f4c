import Deskflow.Number.Numeral
import Deskflow.Sort
import Deskflow.Text.Alphanumeric
import Deskflow.Text.Escaped

/-!
# Database addresses

The address of a database, and its text with the password hidden. An address has a scheme, then a
user with a password, a host with a number, the name of a database, and parameters; all but the
scheme may be missing. The text stands for itself again: what has to be escaped is.

Models `_redact_url`, and how `connect` reads an address.

* `redact_of_noScheme`: a text without a scheme is not shown at all.
-/

namespace Deskflow

namespace Database

/-- An address by its parts. -/
structure Address where
  scheme : String
  user : Option String := none
  password : Option String := none
  host : Option String := none
  portNumber : Option Int := none
  database : Option String := none
  parameters : List (String × String) := []
deriving DecidableEq, Repr

/-- Whether a character may be part of a scheme: a letter or a number, an underscore or a plus. -/
def isSchemeChar (c : Char) : Bool := Text.isAlphanumeric c || c = '_' || c = '+'

/-- The user and the password before the last `@` that ends them, and the rest. -/
def splitUser (cs : List Char) : (Option String × Option String) × List Char :=
  let run := cs.takeWhile fun c => c != ':' && c != '/'
  let after := cs.dropWhile fun c => c != ':' && c != '/'
  let inRun : (Option String × Option String) × List Char :=
    match Text.cutLast? '@' run with
    | some (user, rest) => ((some (Text.unescape user), none), rest ++ after)
    | none => ((none, none), cs)
  match after with
  | ':' :: more =>
    match Text.cutFirst? '@' more with
    | some (password, rest) => ((some (Text.unescape run), some (Text.unescape password)), rest)
    | none => inRun
  | _ => inRun

/-- The host in brackets, or up to the next mark, and the rest. -/
def splitHost (cs : List Char) : Option String × List Char :=
  let plain : Option String × List Char :=
    let isHost (c : Char) : Bool := c != '/' && c != ':' && c != '?'
    match cs.takeWhile isHost with
    | [] => (none, cs)
    | host => (some (String.ofList host), cs.dropWhile isHost)
  match cs with
  | '[' :: more =>
    let isInside (c : Char) : Bool := c != '/' && c != '?'
    match Text.cutLast? ']' (more.takeWhile isInside) with
    | some (host, rest) =>
      if host.isEmpty then plain
      else (some (String.ofList host), rest ++ more.dropWhile isInside)
    | none => plain
  | _ => plain

/-- The number after a host, which has to be a numeral if there is a colon. -/
def splitNumber : List Char → Except Fault (Option Int × List Char)
  | ':' :: cs => do
    let isInside (c : Char) : Bool := c != '/' && c != '?'
    return (some (← Numeral.read (String.ofList (cs.takeWhile isInside))), cs.dropWhile isInside)
  | cs => .ok (none, cs)

/-- The parameters after a question mark; one without a value does not count. -/
def parametersOf : List Char → List (String × String)
  | '?' :: cs =>
    (Text.parameters (String.ofList (cs.takeWhile (· != '\n')))).filter fun p => p.2 ≠ ""
  | _ => []

/-- The address that a text stands for. -/
def Address.read (s : String) : Except Fault Address := do
  let cs := s.toList
  let scheme := cs.takeWhile isSchemeChar
  match scheme, cs.dropWhile isSchemeChar with
  | _ :: _, ':' :: '/' :: '/' :: rest =>
    let ((user, password), rest) := splitUser rest
    let (host, rest) := splitHost rest
    let (portNumber, rest) ← splitNumber rest
    let (database, rest) : Option String × List Char := match rest with
      | '/' :: more =>
        (some (Text.unescape (more.takeWhile (· != '?'))), more.dropWhile (· != '?'))
      | _ => (none, rest)
    return {
      scheme := String.ofList scheme
      user
      password
      host
      portNumber
      database
      parameters := parametersOf rest }
  | _, _ => throw .addressShape

/-- What stands for the password. -/
def hidden : String := "***"

/-- The text of an address, with its password hidden. -/
def Address.text (a : Address) : String :=
  let user := match a.user with
    | some user =>
      Text.escape [' ', '+'] user ++ (if a.password.isSome then ":" ++ hidden else "") ++ "@"
    | none => ""
  let host := match a.host with
    | some host => if host.toList.contains ':' then "[" ++ host ++ "]" else host
    | none => ""
  let number := match a.portNumber with
    | some n => ":" ++ integerText n
    | none => ""
  let database := match a.database with
    | some database => "/" ++ Text.escape [' ', '+', '/'] database
    | none => ""
  let sorted := sortBy (fun p q => p.1 ≤ q.1) a.parameters
  let parameters := sorted.map fun p => Text.escapeParameter p.1 ++ "=" ++ Text.escapeParameter p.2
  a.scheme ++ "://" ++ user ++ host ++ number ++ database
    ++ (if parameters.isEmpty then "" else "?" ++ Value.joinWith "&" parameters)

/-- The address that a handle is pointed at (`connect`). -/
def connect (s : String) : Except Fault Address :=
  if s = "" then .error .databaseAddressMissing else Address.read s

/-- What is shown of a text that is no address. -/
def unreadable : String := "<unparseable DATABASE_URL>"

/-- The text of an address with its password hidden (`_redact_url`); a text that is no address is
not shown. -/
def redact (s : String) : Except Fault String :=
  match Address.read s with
  | .ok a => .ok a.text
  | .error .addressShape => .ok unreadable
  | .error fault => .error fault

/-! ## Lemmas -/

theorem redact_of_noScheme {s : String} (h : Address.read s = .error .addressShape) :
    redact s = .ok unreadable := by
  simp [redact, h]

end Database

end Deskflow
