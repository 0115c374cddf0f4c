import Mathlib.Data.List.DropRight
import Deskflow.Proofs.HistoryMirror

/-!
# Attachments and uploads

A reference to media is read twice when they are sent: once for what is uploaded, and once for the
address that is kept with the message. An address on the web is used both times as it is. The path
of a file is uploaded from under the storage root, and kept with the public prefix in front, which
is taken off again where the address is read as a reference itself.

So the two agree, whatever the reference is. But what is on the web is told in two ways: by the
whole scheme for the upload, by its first four letters for the address. A path that starts with
these letters is uploaded as a file and kept without the prefix, as if it were on the web.

What is uploaded is told by `local_path`, and what is kept by `public_url`.

* `publicUrl_eq`: the two forms of a public address.
* `isRemote_publicUrl`, `relativePath_publicUrl`: it names what the reference names.
* `attaches_send`: what is kept of a delivery.
* `address_names_upload`: the result.
* `lookalike_keeps_no_prefix`: a path that looks like an address on the web.
-/

namespace Deskflow

namespace Media

theorem startsWith_iff {s start : String} :
    startsWith s start = true ↔ start.toList <+: s.toList := by
  rw [startsWith, List.isPrefixOf_iff_prefix]

theorem isAbsolute_eq (s : String) : Settings.isAbsolute s = startsWith s "/" := by
  have hmark : "/".toList = ['/'] := rfl
  rw [Settings.isAbsolute, startsWith, hmark]
  cases s.toList with
  | nil => rfl
  | cons c cs => simp [List.isPrefixOf, eq_comm]

/-- Nothing starts both as an address on the web and as an absolute path does. -/
theorem not_startsWith_http {s : String} (h : Settings.isAbsolute s = true) :
    startsWith s "http" = false := by
  rw [isAbsolute_eq, startsWith_iff] at h
  rw [Bool.eq_false_iff, ne_eq, startsWith_iff]
  intro hhttp
  rcases List.prefix_or_prefix_of_prefix h hhttp with h | h <;> revert h <;> decide

theorem isRemote_of_not_http {s : String} (h : startsWith s "http" = false) :
    isRemote s = false := by
  rw [Bool.eq_false_iff]
  intro hremote
  rw [startsWith_http_of_isRemote hremote] at h
  exact Bool.noConfusion h

/-! ## The public address -/

section

variable {publicPrefix ref : String}

theorem trimStartBy_slash (h : Settings.isAbsolute ref = false) :
    Text.trimStartBy (· == '/') ref = ref := by
  rw [Text.trimStartBy]
  rw [Settings.isAbsolute] at h
  cases hcs : ref.toList with
  | nil => rw [List.dropWhile_nil, ← hcs, String.ofList_toList]
  | cons c cs =>
    have hc : (c == '/') = false := by simpa [hcs] using h
    rw [List.dropWhile_cons_of_neg (by simp [hc]), ← hcs, String.ofList_toList]

/-- **A public address** is the reference itself, or the prefix and the reference. -/
theorem publicUrl_eq (publicPrefix ref : String) :
    publicUrl publicPrefix ref = ref ∧ (startsWith ref "http" || startsWith ref "/") = true
      ∨ publicUrl publicPrefix ref = closedPrefix publicPrefix ++ ref
        ∧ startsWith ref "http" = false ∧ Settings.isAbsolute ref = false := by
  by_cases h : (startsWith ref "http" || startsWith ref "/") = true
  · exact .inl ⟨if_pos h, h⟩
  · have hboth : startsWith ref "http" = false ∧ Settings.isAbsolute ref = false := by
      simpa [isAbsolute_eq] using h
    refine .inr ⟨?_, hboth⟩
    rw [publicUrl, if_neg h, trimStartBy_slash hboth.2]

variable (hslash : Settings.isAbsolute publicPrefix = true)

include hslash

theorem isAbsolute_closedPrefix (rest : String) :
    Settings.isAbsolute (closedPrefix publicPrefix ++ rest) = true := by
  rw [Settings.isAbsolute] at hslash ⊢
  have hclosed : (closedPrefix publicPrefix ++ rest).toList
      = publicPrefix.toList.rdropWhile (· == '/') ++ ('/' :: rest.toList) := by
    simp [closedPrefix, Text.trimEndBy, List.rdropWhile, String.toList_append]
  rw [hclosed]
  obtain ⟨more, hmore⟩ := List.rdropWhile_prefix (· == '/') publicPrefix.toList
  cases hfront : publicPrefix.toList.rdropWhile (· == '/') with
  | nil => rfl
  | cons c cs =>
    rw [hfront, List.cons_append] at hmore
    simpa [← hmore] using hslash

/-- The prefix is taken off where it was put on. -/
theorem withoutPrefix_publicUrl :
    Text.trimStartBy (· == '/') (withoutPrefix publicPrefix (publicUrl publicPrefix ref))
      = Text.trimStartBy (· == '/') (withoutPrefix publicPrefix ref) := by
  rcases publicUrl_eq publicPrefix ref with ⟨hkept, -⟩ | ⟨hadded, -, hrelative⟩
  · rw [hkept]
  · have hadd : withoutPrefix publicPrefix (closedPrefix publicPrefix ++ ref) = ref := by
      rw [withoutPrefix, if_pos (startsWith_iff.mpr (by simp [String.toList_append]))]
      simp [String.toList_append, ← String.length_toList]
    have hnone : startsWith ref (closedPrefix publicPrefix) = false := by
      rw [Bool.eq_false_iff, ne_eq, startsWith_iff]
      rintro ⟨rest, hrest⟩
      have habsolute := isAbsolute_closedPrefix hslash (String.ofList rest)
      rw [Settings.isAbsolute, String.toList_append, String.toList_ofList, hrest,
        ← Settings.isAbsolute, hrelative] at habsolute
      exact Bool.noConfusion habsolute
    rw [hadded, hadd, withoutPrefix, hnone, if_neg Bool.false_ne_true]

/-- **The public address names what the reference names**: a file, -/
theorem relativePath_publicUrl :
    relativePath publicPrefix (publicUrl publicPrefix ref) = relativePath publicPrefix ref := by
  rw [relativePath, withoutPrefix_publicUrl hslash, ← relativePath]

/-- or something on the web. -/
theorem isRemote_publicUrl : isRemote (publicUrl publicPrefix ref) = isRemote ref := by
  rcases publicUrl_eq publicPrefix ref with ⟨hkept, -⟩ | ⟨hadded, hhttp, -⟩
  · rw [hkept]
  · rw [hadded, isRemote_of_not_http hhttp,
      isRemote_of_not_http (not_startsWith_http (isAbsolute_closedPrefix hslash ref))]

theorem publicUrl_publicUrl :
    publicUrl publicPrefix (publicUrl publicPrefix ref) = publicUrl publicPrefix ref := by
  rcases publicUrl_eq publicPrefix ref with ⟨hkept, -⟩ | ⟨hadded, -⟩
  · rw [hkept, hkept]
  · rw [hadded, publicUrl, ← isAbsolute_eq, isAbsolute_closedPrefix hslash, Bool.or_true,
      if_pos rfl]

/-- An address is kept without a slash in front where the reference looks as if it were on the
web. -/
theorem isAbsolute_publicUrl_iff :
    Settings.isAbsolute (publicUrl publicPrefix ref) = true ↔ startsWith ref "http" = false := by
  rcases publicUrl_eq publicPrefix ref with ⟨hkept, hstart⟩ | ⟨hadded, hhttp, -⟩
  · rw [hkept]
    refine ⟨not_startsWith_http, fun hhttp => ?_⟩
    rwa [hhttp, Bool.false_or, ← isAbsolute_eq] at hstart
  · rw [hadded]
    exact iff_of_true (isAbsolute_closedPrefix hslash ref) hhttp

end

/-- Two references name the same media: they are uploaded alike, and from the same file wherever
the storage is. -/
structure SameMedia (publicPrefix ref other : String) : Prop where
  file : ∀ storageRoot, localPath storageRoot publicPrefix ref
    = localPath storageRoot publicPrefix other
  upload : ∀ s : Service, s.mediaValue? publicPrefix ref = s.mediaValue? publicPrefix other

theorem sameMedia_publicUrl {publicPrefix : String}
    (hslash : Settings.isAbsolute publicPrefix = true) (ref : String) :
    SameMedia publicPrefix (publicUrl publicPrefix ref) ref where
  file storageRoot := by rw [localPath, relativePath_publicUrl hslash, ← localPath]
  upload s := by
    rw [Service.mediaValue?, Service.mediaValue?, isRemote_publicUrl hslash,
      relativePath_publicUrl hslash]
    split
    · rename_i hremote
      rw [publicUrl_of_isRemote hremote]
    · rfl

end Media

/-! ## What is kept of a delivery -/

/-- What is kept with a message of what it carries: nothing of a text, and of media their kind and
an address that names the same media. -/
def Content.KeptAs (publicPrefix : String) : Content → Value → Prop
  | .text _, v => v = .null
  | .media kind ref _, v =>
    ∃ url, v = .list [.object [("url", .str url), ("type", .str kind.word)]]
      ∧ Media.SameMedia publicPrefix url ref

/-- From one world to another, each message that is new in the history is that of a delivery, and
has an attachment for the media that it carried. -/
def World.Attaches (publicPrefix : String) (w v : World) : Prop :=
  ∃ calls, v.deliveries = w.deliveries ++ calls ∧ ∀ m ∈ v.store.messages,
    m ∈ w.store.messages ∨ ∃ call ∈ calls, call.1.content.KeptAs publicPrefix m.attachments

namespace Engine

open Work World

/-- What the answer to a delivery leaves of the history, and of the deliveries on record. -/
def NothingNew (w v : World) : Prop :=
  v.deliveries = w.deliveries ∧ v.store.messages ⊆ w.store.messages

instance : Std.Refl NothingNew := ⟨fun _ => ⟨rfl, List.Subset.refl _⟩⟩

instance : IsTrans World NothingNew :=
  ⟨fun _ _ _ h k => ⟨k.1.trans h.1, List.Subset.trans k.2 h.2⟩⟩

theorem messages_deleteRow_subset (s : Store) (id : Int) (t : Table) :
    (s.deleteRow id t).messages ⊆ s.messages := by
  cases t with
  | messages => exact List.filter_subset_self _
  | _ => exact List.Subset.refl _

theorem nothingNew_rehearse : Work.Keeps NothingNew rehearse := by
  intro w
  simp only [rehearse, runOn_ofFunction, Rehearsal.answer]
  cases w.rehearsal.script with
  | nil => exact ⟨rfl, List.Subset.refl _⟩
  | cons o rest =>
    cases o with
    | sentAfterDeleting t id => exact ⟨rfl, messages_deleteRow_subset _ _ _⟩
    | _ => exact ⟨rfl, List.Subset.refl _⟩

theorem deliveries_deliver (settings : Settings) (d : Delivery) (w : World) :
    ∃ answer v, (deliver settings d).runOn w = (answer, v)
      ∧ v.deliveries = w.deliveries ++ [(d, answer)] ∧ v.store.messages ⊆ w.store.messages := by
  have hanswer : NothingNew w ((if w.live then deliverLive settings d else rehearse).runOn w).2 :=
    keeps_answer (fun _ _ _ _ => ⟨rfl, List.Subset.refl _⟩) nothingNew_rehearse settings d w
  exact ⟨_, _, rfl, congrArg (· ++ _) hanswer.1, hanswer.2⟩

variable {settings : Settings} {w : World}

theorem Attaches.refl (w : World) : w.Attaches settings.publicPrefix w :=
  ⟨[], (List.append_nil _).symm, fun _ hm => .inl hm⟩

/-- **What is sent is kept with what it carried**, if the message that is to be kept says so. -/
theorem attaches_send (thread : Thread) (chat : Int) {content : Content}
    (keyboard : List Callback.Key) {outgoing : Outgoing}
    (hkept : content.KeptAs settings.publicPrefix outgoing.attachments.kept) :
    Work.Keeps (World.Attaches settings.publicPrefix)
      (send settings thread chat content keyboard outgoing) := by
  intro w
  refine Work.Keeps.eq_bind (keeps_channelOf thread) (Attaches.refl w) fun channel _ => ?_
  obtain ⟨answer, v, hdeliver, hcalls, hmessages⟩ :=
    deliveries_deliver settings { channel, chat, content, keyboard } w
  rw [runOn_bind, hdeliver]
  -- Only what was sent is kept; a script may have deleted older messages meanwhile.
  rcases answer with fault | _ | sent
  · exact ⟨_, hcalls, fun m hm => .inl (hmessages hm)⟩
  · exact ⟨_, hcalls, fun m hm => .inl (hmessages hm)⟩
  show World.Attaches _ w ((transact _ >>= fun _ => pure ()).runOn v).2
  rw [snd_runOn_returning, run_transact]
  split
  · rename_i s hadded
    refine ⟨_, hcalls, fun m hm => ?_⟩
    rw [History.addOutgoing_eq_ok hadded, messages_insert_outgoing] at hm
    rcases List.mem_append.mp hm with hm | hm
    · exact .inl (hmessages hm)
    · obtain rfl := List.mem_singleton.mp hm
      exact .inr ⟨_, List.mem_cons_self, hkept⟩
  · exact ⟨_, hcalls, fun m hm => .inl (hmessages hm)⟩

theorem attaches_withChat (ctx : Context) (content : Thread → Content)
    (keyboard : List Callback.Key) (outgoing : Thread → Outgoing)
    (hkept : ∀ thread,
      (content thread).KeptAs settings.publicPrefix (outgoing thread).attachments.kept) :
    Work.Keeps (World.Attaches settings.publicPrefix) (withChat ctx fun thread chat =>
      send settings thread chat (content thread) keyboard (outgoing thread)) := by
  intro w
  refine Work.Keeps.eq_bind (keeps_threadOf ctx) (Attaches.refl w) fun thread _ => ?_
  refine Work.Keeps.eq_bind (Work.Keeps.lift _) (Attaches.refl w) fun chat _ => ?_
  cases chat with
  | none => exact Attaches.refl w
  | some chat => exact attaches_send thread chat keyboard (hkept thread) w

/-- The attachment that is kept of media names them. -/
theorem keptAs_attachment (hslash : Settings.isAbsolute settings.publicPrefix = true)
    (kind : MediaKind) (ref caption : String) :
    (Content.media kind ref caption).KeptAs settings.publicPrefix
      (attachment settings kind ref).kept :=
  ⟨_, rfl, Media.sameMedia_publicUrl hslash ref⟩

theorem attaches_sendMedia (hslash : Settings.isAbsolute settings.publicPrefix = true)
    (ctx : Context) (kind : MediaKind) (ref caption : String) :
    Work.Keeps (World.Attaches settings.publicPrefix)
      (sendMedia settings ctx kind ref caption) := by
  unfold sendMedia
  split
  · exact fun w => Attaches.refl w
  · exact attaches_withChat ctx (fun thread => .media kind ref (fillIn thread caption)) []
      (fun thread =>
        { content := fillIn thread caption
          kind := kind.word
          attachments := attachment settings kind ref })
      fun thread => keptAs_attachment hslash kind ref _

theorem attaches_sendButtons (hslash : Settings.isAbsolute settings.publicPrefix = true)
    (ctx : Context) (head : StepHead) (text imageUrl : String) (buttons : List Button) :
    Work.Keeps (World.Attaches settings.publicPrefix)
      (sendButtons settings ctx head text imageUrl buttons) := by
  unfold sendButtons
  split
  · exact fun w => Attaches.refl w
  · refine attaches_withChat ctx
      (fun thread =>
        if imageUrl = "" then .text (fillIn thread text)
        else .media .image imageUrl (fillIn thread text)) _
      (fun thread => buttonsMessage settings (fillIn thread text) imageUrl buttons) fun thread => ?_
    unfold buttonsMessage
    split
    · rfl
    · exact keptAs_attachment hslash .image imageUrl _

end Engine

/-! ## The result -/

/-- **The address that is kept for a reference, against what is uploaded for it.** -/
structure NamesUpload (publicPrefix ref : String) : Prop where
  /-- What is on the web is kept as it is. -/
  remote : Media.isRemote ref = true → Media.publicUrl publicPrefix ref = ref
  /-- The address of any other reference is an absolute path, unless the reference only looks like
  an address on the web. -/
  absolute : Media.isRemote ref = false →
    (Settings.isAbsolute (Media.publicUrl publicPrefix ref) = true ↔
      Media.startsWith ref "http" = false)
  /-- An address is its own address. -/
  stable : Media.publicUrl publicPrefix (Media.publicUrl publicPrefix ref)
    = Media.publicUrl publicPrefix ref
  /-- It is the same file, wherever the storage is, and would be uploaded again. -/
  same : Media.SameMedia publicPrefix (Media.publicUrl publicPrefix ref) ref
  /-- So the attachments that steps keep name what they sent, whatever state they run in. -/
  media : ∀ {settings : Settings}, settings.publicPrefix = publicPrefix → ∀ ctx kind caption,
    Work.Keeps (World.Attaches publicPrefix) (Engine.sendMedia settings ctx kind ref caption)
  buttons : ∀ {settings : Settings}, settings.publicPrefix = publicPrefix →
    ∀ ctx head text keys, Work.Keeps (World.Attaches publicPrefix)
      (Engine.sendButtons settings ctx head text ref keys)

theorem address_names_upload {publicPrefix : String}
    (hslash : Settings.isAbsolute publicPrefix = true) (ref : String) :
    NamesUpload publicPrefix ref where
  remote := Media.publicUrl_of_isRemote
  absolute _ := Media.isAbsolute_publicUrl_iff hslash
  stable := Media.publicUrl_publicUrl hslash
  same := Media.sameMedia_publicUrl hslash ref
  media hsettings ctx kind caption := by
    subst hsettings
    exact Engine.attaches_sendMedia hslash ctx kind ref caption
  buttons hsettings ctx head text keys := by
    subst hsettings
    exact Engine.attaches_sendButtons hslash ctx head text ref keys

/-- A picture in the storage. -/
theorem address_names_upload_picture :
    Settings.isAbsolute "/storage" = true ∧ NamesUpload "/storage" "images/a.png" :=
  ⟨by decide +kernel, address_names_upload (by decide +kernel) "images/a.png"⟩

/-- **A path that looks like an address on the web**: it is a file, and uploaded as one, but it is
kept without the prefix and is no absolute path. -/
theorem lookalike_keeps_no_prefix :
    Media.isRemote "httpdocs/a.png" = false
      ∧ Media.publicUrl "/storage" "httpdocs/a.png" = "httpdocs/a.png"
      ∧ Settings.isAbsolute (Media.publicUrl "/storage" "httpdocs/a.png") = false := by
  decide +kernel

end Deskflow
