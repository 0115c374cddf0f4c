import Deskflow.Settings
import Deskflow.Text.Blank
import Deskflow.Text.Case

/-!
# Access

The headers of a request and the token that they carry. A bearer token goes before one in a header
of its own. Without a token in the settings nobody is an administrator.

Models `_get_admin_token_from_request` and `_is_admin_request`.

* `isAdmin_eq_false_of_blank`: with a blank token in the settings no request is let in.
* `isAdmin_iff`: which requests are let in.
-/

namespace Deskflow

/-- The headers of a request. Their names are compared without regard to case. -/
abbrev Headers := List (String × String)

namespace Headers

/-- The value of the first header of a name, which is given in small letters. -/
def value? (h : Headers) (name : String) : Option String :=
  (h.find? fun e => Text.lower e.1 == name).map Prod.snd

/-- The token that an authorization carries: the second of exactly two words, if the first one is
`bearer`. -/
def bearer? (authorization : String) : Option String :=
  match Text.words authorization with
  | [scheme, token] => if Text.lower scheme = "bearer" then some token else none
  | _ => none

/-- The token that a request carries in a header of its own. -/
def ownToken? (h : Headers) : Option String :=
  match h.value? "x-admin-token" with
  | some token => if token = "" then none else some (Text.trim token)
  | none => none

/-- The token that a request carries (`_get_admin_token_from_request`). -/
def token? (h : Headers) : Option String :=
  ((h.value? "authorization").bind bearer?).orElse fun _ => h.ownToken?

/-- Whether a request carries the token of the settings (`_is_admin_request`). -/
def isAdmin (h : Headers) (s : Settings) : Bool :=
  let expected := Text.trim s.adminToken
  expected != "" && h.token? == some expected

/-! ## Lemmas -/

theorem isAdmin_iff {h : Headers} {s : Settings} :
    h.isAdmin s = true
      ↔ Text.trim s.adminToken ≠ "" ∧ h.token? = some (Text.trim s.adminToken) := by
  simp [isAdmin]

theorem isAdmin_eq_false_of_blank {h : Headers} {s : Settings} (hs : Text.trim s.adminToken = "") :
    h.isAdmin s = false := by
  simp [isAdmin, hs]

end Headers

end Deskflow
