import Deskflow.Desk.Row
import Deskflow.Text.Blank

/-!
# Templates

Texts with names in braces that stand for what is known about a conversation. The names are filled
in one after another, in the order of the variables, and values are written as they are.

Models `build_variables` and `render`.

* `render_nil`: without variables a text is left as it is.
* `bindings_names`: the names that every conversation has, in order.
-/

namespace Deskflow

namespace Template

/-- The names and values that texts can use. -/
abbrev Variables := List (String × String)

/-- The token that stands for a variable. -/
def token (name : String) : String := "\x7b" ++ name ++ "\x7d"

/-- The text with every variable filled in, one after another (`render`). -/
def render (text : String) (vars : Variables) : String :=
  vars.foldl (fun text v => Text.replace text (token v.1) v.2) text

/-- The variables of a conversation (`build_variables`); what is not known is empty. -/
def bindings (conversationId : Value) (client : Option Client) (channelName : Option String) :
    Variables :=
  let name := (client.bind Client.name).getD ""
  [("client_name", name),
    ("client_first_name", (Text.words name).headD ""),
    ("client_phone", (client.bind Client.phone).getD ""),
    ("client_email", (client.bind Client.email).getD ""),
    ("conversation_id", conversationId.text),
    ("chat_id", conversationId.text),
    ("channel_name", channelName.getD "")]

/-! ## Lemmas -/

@[simp] theorem render_nil (text : String) : render text [] = text := rfl

theorem render_cons (text : String) (v : String × String) (vars : Variables) :
    render text (v :: vars) = render (Text.replace text (token v.1) v.2) vars := rfl

theorem bindings_names (id : Value) (client : Option Client) (channelName : Option String) :
    (bindings id client channelName).map Prod.fst
      = ["client_name", "client_first_name", "client_phone", "client_email", "conversation_id",
          "chat_id", "channel_name"] := rfl

end Template

end Deskflow
