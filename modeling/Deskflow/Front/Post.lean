import Deskflow.Value

/-!
# Posts

What a client posts: a text, media with a caption, or something else. Only the first of what a post
holds counts, a text before media.

Models `message_payload`.

* `payload_of_text`: a post with a text is that text, whatever else it holds.
-/

namespace Deskflow

/-- A file that is posted, with the name or the emoji that comes with it. -/
structure PostedFile where
  fileId : String
  note : Option String := none
deriving DecidableEq, Repr

/-- What a post holds. Of a picture there is a list of sizes, the largest last. -/
structure Post where
  text : Option String := none
  caption : Option String := none
  photos : List PostedFile := []
  video : Option PostedFile := none
  document : Option PostedFile := none
  voice : Option PostedFile := none
  sticker : Option PostedFile := none
deriving DecidableEq, Repr

/-- What is stored of a post: its kind, its text, and its attachments. -/
structure Payload where
  kind : String
  content : String
  attachments : Value := .null
deriving DecidableEq, Repr

namespace Post

/-- The list of attachments that a file of a kind is, with more fields if there are any. -/
def attached (kind : String) (file : PostedFile) (more : Record) : Value :=
  .list [.object ([("file_id", .str file.fileId), ("type", .str kind)] ++ more)]

/-- The first of the media that a post holds, by kind. -/
def media? (p : Post) : Option Payload :=
  let caption := p.caption.getD ""
  let of (kind : String) (file : Option PostedFile) : Option Payload :=
    file.map fun f => ⟨kind, caption, attached kind f []⟩
  let document := p.document.map fun f =>
    (⟨"file", caption, attached "file" f [("name", .ofText? f.note)]⟩ : Payload)
  let sticker := p.sticker.map fun f =>
    (⟨"sticker", f.note.getD "", attached "sticker" f []⟩ : Payload)
  let image := of "image" p.photos.getLast?
  [image, of "video" p.video, document, of "voice" p.voice, sticker].findSome? id

/-- What is stored of a post (`message_payload`). -/
def payload (p : Post) : Payload :=
  match p.text with
  | some text => { kind := "text", content := text }
  | none => p.media?.getD { kind := "text", content := p.caption.getD "" }

/-! ## Lemmas -/

theorem payload_of_text {p : Post} {text : String} (h : p.text = some text) :
    p.payload = { kind := "text", content := text } := by
  simp [payload, h]

end Post

end Deskflow
