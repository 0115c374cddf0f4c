import Deskflow.Desk.Transaction
import Deskflow.Digest.Md5
import Deskflow.Step.Parse

/-!
# Tagging

Finding and making tags, and which tags a client carries. Tags are named by values that stand for
positive integers; what does not is passed over.

Models `TagService`: `get_tags`, `resolve`, `client_tag_ids`, `add_to_client` and
`remove_from_client`. Out of scope: how many values one statement can hold.

* `tags_attached`, `tags_detached`: neither touches the tags themselves.
* `mem_attached`, `mem_detached`: which memberships are there afterwards.
-/

namespace Deskflow

namespace Tagging

open Transaction

/-- The color of a tag that is made for a name (`default_color`). -/
def defaultColor (name : String) : String :=
  "#" ++ String.ofList ((Md5.hex name).toList.take 6)

/-- The tags of the given ids that exist, by ascending id. -/
def existing (ids : List Int) : Transaction (List Tag) := do
  let tags ← rows Tag
  ids.forM fit
  return tags.filter fun t => ids.contains t.id

/-- The tags that values name, by ascending id (`get_tags`). -/
def tagsNamed (values : List Value) : Transaction (List Tag) := do
  let ids ← distinctIds values
  if ids.isEmpty then return [] else existing ids

/-- The tag that a value names by its id. -/
def byId? (value : Value) : Transaction (Option Tag) := do
  if value.isLeftOut then return none
  match ← distinctIds [value] with
  | id :: _ => load Tag id
  | [] => return none

/-- The tag of a name; with `create` it is made if there is none. -/
def byName? (name : String) (create : Bool) : Transaction (Option Tag) := do
  match (← rows Tag).find? fun t => t.name == name with
  | some tag => return some tag
  | none =>
    if create then
      return some (← add { id := 0, name, color := some (defaultColor name) })
    else return none

/-- The tag that a value names by its id, or else a text by its name (`resolve`). -/
def resolve (id : Value) (name : Option String) (create : Bool) : Transaction (Option Tag) := do
  match ← byId? id with
  | some tag => return some tag
  | none =>
    let name := Text.trim (name.getD "")
    if name = "" then return none else byName? name create

/-- The client of an id. Its tags have to be at hand too. -/
def client? (clientId : Int) : Transaction (Option Client) := do
  let some client ← load Client clientId | return none
  need .clientTags
  need .tags
  return some client

/-- The ids of the tags that a client carries, ascending (`client_tag_ids`). -/
def idsOfClient (clientId : Int) : Transaction (List Int) := do
  match ← client? clientId with
  | some client => return ((← get).tagsOf client.id).map Tag.id
  | none => return []

/-- The store with tags attached to a client. -/
def attached (s : Store) (clientId : Int) (tagIds : List Int) : Store :=
  { s with memberships := s.memberships ++
      ((tagIds.map (Membership.mk clientId)).filter fun m => !s.memberships.contains m) }

/-- The store with tags detached from a client. -/
def detached (s : Store) (clientId : Int) (tagIds : List Int) : Store :=
  { s with memberships := s.memberships.filter fun m =>
      !(m.clientId == clientId && tagIds.contains m.tagId) }

/-- Attaches the tags that values name to a client, or with `remove` detaches them (`add_to_client`,
`remove_from_client`); tells which of them exist. -/
def change (remove : Bool) (clientId : Int) (values : List Value) : Transaction (List Tag) := do
  let ids ← distinctIds values
  match ← client? clientId with
  | none => return []
  | some client =>
    if ids.isEmpty then return []
    let tags ← existing ids
    modify fun s =>
      (if remove then detached else attached) s client.id (tags.map Tag.id)
    return tags

/-! ## Lemmas -/

theorem tags_attached (s : Store) (clientId : Int) (tagIds : List Int) :
    (attached s clientId tagIds).tags = s.tags := rfl

theorem tags_detached (s : Store) (clientId : Int) (tagIds : List Int) :
    (detached s clientId tagIds).tags = s.tags := rfl

theorem mem_attached {s : Store} {clientId : Int} {tagIds : List Int} {m : Membership} :
    m ∈ (attached s clientId tagIds).memberships
      ↔ m ∈ s.memberships ∨ (m.clientId = clientId ∧ m.tagId ∈ tagIds) := by
  obtain ⟨c, t⟩ := m
  by_cases h : (⟨c, t⟩ : Membership) ∈ s.memberships
  · simp [attached, h]
  · simp only [attached, List.mem_append, List.mem_filter, List.mem_map, h, false_or]
    constructor
    · rintro ⟨⟨x, hx, heq⟩, _⟩
      obtain ⟨rfl, rfl⟩ := Membership.mk.inj heq
      exact ⟨rfl, hx⟩
    · rintro ⟨rfl, ht⟩
      exact ⟨⟨t, ht, rfl⟩, by simpa using h⟩

theorem mem_detached {s : Store} {clientId : Int} {tagIds : List Int} {m : Membership} :
    m ∈ (detached s clientId tagIds).memberships
      ↔ m ∈ s.memberships ∧ ¬(m.clientId = clientId ∧ m.tagId ∈ tagIds) := by
  have decided : (m.clientId == clientId && tagIds.contains m.tagId) = true
      ↔ m.clientId = clientId ∧ m.tagId ∈ tagIds := by simp
  rw [detached, List.mem_filter, Bool.not_eq_true', ← Bool.not_eq_true, decided]

end Tagging

end Deskflow
