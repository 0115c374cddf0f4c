import Deskflow.Text.Blank

/-!
# Media references

Where the media of a step is: at an address on the web, or in a file under the storage root. A file
is named by its path under the root, with or without the public prefix of the storage in front.

Paths are kept without empty parts and without single dots; double dots stay as they are. Two
slashes at the start, and only two, are kept as they are.

Models `is_remote`, `public_url` and `local_path`. Out of scope: links between directories.

* `publicUrl_of_isRemote`: an address on the web is its own public address.
* `Path.join_parts`: the parts of a joined path are those of both.
-/

namespace Deskflow

/-- A path of a file: the slashes it starts with, and its parts. -/
structure Path where
  root : String
  parts : List String
deriving DecidableEq, Repr

namespace Path

/-- The slashes that a path starts with, as they are kept. -/
def rootOf : List Char → String
  | '/' :: '/' :: '/' :: _ => "/"
  | '/' :: '/' :: _ => "//"
  | '/' :: _ => "/"
  | _ => ""

/-- A path from its text. -/
def read (s : String) : Path :=
  ⟨rootOf s.toList, (Text.splitAt '/' s).filter fun p => p != "" && p != "."⟩

/-- The parts with slashes between them. -/
def joinParts : List String → String
  | [] => ""
  | [p] => p
  | p :: rest => p ++ "/" ++ joinParts rest

/-- The text of a path. -/
def text (p : Path) : String :=
  if p.root = "" && p.parts.isEmpty then "." else p.root ++ joinParts p.parts

/-- A path continued by another one; an absolute one stands for itself. -/
def join (p q : Path) : Path := if q.root = "" then ⟨p.root, p.parts ++ q.parts⟩ else q

/-- The last part of a path. -/
def fileName (p : Path) : String := p.parts.getLast?.getD ""

end Path

namespace Media

/-- Whether a text starts with another one. -/
def startsWith (s start : String) : Bool := start.toList.isPrefixOf s.toList

/-- Whether a reference is an address on the web (`is_remote`). -/
def isRemote (ref : String) : Bool := startsWith ref "http://" || startsWith ref "https://"

/-- The public prefix with exactly one slash at its end. -/
def closedPrefix (publicPrefix : String) : String :=
  Text.trimEndBy (· == '/') publicPrefix ++ "/"

/-- The public address of a reference, as it is stored with a message (`public_url`): an address on
the web and an absolute path stay, and any other path follows the prefix. -/
def publicUrl (publicPrefix ref : String) : String :=
  if startsWith ref "http" || startsWith ref "/" then ref
  else closedPrefix publicPrefix ++ Text.trimStartBy (· == '/') ref

/-- The reference without the public prefix. -/
def withoutPrefix (publicPrefix ref : String) : String :=
  let front := closedPrefix publicPrefix
  if startsWith ref front then String.ofList (ref.toList.drop front.length) else ref

/-- The path under the storage root that a reference names. -/
def relativePath (publicPrefix ref : String) : Path :=
  Path.read (Text.trimStartBy (· == '/') (withoutPrefix publicPrefix ref))

/-- The path of the file that a reference names (`local_path`). -/
def localPath (storageRoot publicPrefix ref : String) : Path :=
  (Path.read storageRoot).join (relativePath publicPrefix ref)

end Media

/-! ## Lemmas -/

theorem Path.join_parts {p q : Path} (h : q.root = "") : (p.join q).parts = p.parts ++ q.parts := by
  simp [join, h]

theorem Media.startsWith_http_of_isRemote {ref : String} (h : isRemote ref = true) :
    startsWith ref "http" = true := by
  have split : ∀ s : String, "http".toList <+: s.toList → startsWith ref s = true →
      startsWith ref "http" = true := fun s hs h => by
    simp only [startsWith, List.isPrefixOf_iff_prefix] at h ⊢
    exact hs.trans h
  unfold isRemote at h
  rcases Bool.or_eq_true _ _ ▸ h with h | h
  · exact split _ (by decide) h
  · exact split _ (by decide) h

theorem Media.publicUrl_of_isRemote {publicPrefix ref : String} (h : isRemote ref = true) :
    publicUrl publicPrefix ref = ref := by
  simp [publicUrl, startsWith_http_of_isRemote h]

end Deskflow
