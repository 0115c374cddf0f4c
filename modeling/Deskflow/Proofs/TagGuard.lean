import Deskflow.Proofs.Simulation
import Deskflow.Proofs.ResumeOnce

/-!
# The guard against chains

Changes of tags that a run makes are events, whose runs change tags in turn. `reentrant` is this
recursion with a hole where it comes back to itself, and what keeps it from going on for ever is the
guard alone: while it is up nothing comes of a change of tags.

Two operations are `Alike` where the guard is at some value if nothing tells them apart there, and
they leave it there. While the guard is up, every handler that minds it is alike to one of which
nothing comes, so that the recursion never gets to its third level.

* `fire_reentrant`, `dispatchWith_reentrant`: a tag event never gets to what comes of the changes
  that its own runs make.
* `reentrant_reentrant`: so `chained` is what the recursion amounts to.
* `guard_dispatchWith`, `guard_handle`: the guard is left as it was found, faults or not.
-/

namespace Deskflow

/-- Worlds with the guard in the same place. -/
def World.SameGuard (w v : World) : Prop := v.memory.tagGuard = w.memory.tagGuard

instance : Std.Refl World.SameGuard := ⟨fun _ => rfl⟩

instance : IsTrans World World.SameGuard := ⟨fun _ _ _ h k => k.trans h⟩

namespace Work

variable {α : Type} {b : Bool}

/-- Operations are the same if they do the same in every world. -/
theorem eq_of_runOn {x y : Work α} (h : ∀ w, x.runOn w = y.runOn w) : x = y := funext h

/-- Two operations do the same where the guard is at `b`, and leave it there. -/
def Alike (b : Bool) (x y : Work α) : Prop :=
  ∀ w : World, w.memory.tagGuard = b →
    x.runOn w = y.runOn w ∧ (y.runOn w).2.memory.tagGuard = b

theorem eq_of_alike {x y : Work α} (h : ∀ b, Alike b x y) : x = y :=
  eq_of_runOn fun w => (h _ w rfl).1

/-- What is abreast where the stores are the same is alike. -/
theorem Alike.of_abreast {x y : Work α} (h : Abreast Eq b x y) : Alike b x y := by
  intro w hw
  have hxy := h w w (.of_stores hw rfl)
  generalize x.runOn w = p at hxy
  generalize y.runOn w = q at hxy
  obtain ⟨r, @⟨_, hguard, rfl⟩⟩ := hxy
  exact ⟨rfl, hguard⟩

end Work

namespace Engine

open Work World

variable {settings : Settings} {h k : TagHandler} {b : Bool}

/-! ## What does not depend on the handler -/

/-- A step that changes no tags does not ask the handler. -/
theorem runAction_of_other (ctx : Context) (owner : String) (head : StepHead) {action : StepAction}
    (hadd : ∀ targets, action ≠ .addTag targets) (hremove : ∀ targets, action ≠ .removeTag targets)
    (h k : TagHandler) :
    runAction settings h ctx owner head action = runAction settings k ctx owner head action := by
  cases action with
  | addTag targets => exact absurd rfl (hadd targets)
  | removeTag targets => exact absurd rfl (hremove targets)
  | _ => rfl

theorem alike_playBeat (agree : Agree Eq b h k) (ctx : Context) (beat : Beat) :
    Alike b (playBeat settings h ctx beat) (playBeat settings k ctx beat) :=
  .of_abreast (abreast_playBeat agree beat)

theorem alike_execute (agree : Agree Eq b h k) (flow : Flow) (c : Int) (data : Value)
    (instead : Option (List Step)) :
    Alike b (execute settings h flow c data instead) (execute settings k flow c data instead) :=
  .of_abreast (abreast_execute agree flow c data instead)

theorem alike_fire {event : Event} (raised : Agree Eq true h k)
    (asItIs : event.kind.isTagEvent = false → Agree Eq b h k) (flow : Flow) :
    Alike b (fire settings h event flow) (fire settings k event flow) :=
  .of_abreast (abreast_fire raised asItIs flow)

theorem alike_dispatchWith {event : Event} (raised : Agree Eq true h k)
    (asItIs : event.kind.isTagEvent = false → Agree Eq b h k) :
    Alike b (dispatchWith settings h event) (dispatchWith settings k event) :=
  .of_abreast (abreast_dispatchWith raised asItIs)

/-! ## The recursion -/

/-- What comes of changes of tags, where `onTags` is what comes of those that are made meanwhile:
an event of their own, unless the guard is up. -/
def reentrant (settings : Settings) (onTags : TagHandler) : TagHandler :=
  fun kind conversationId channelId tagIds => do
    if (← get).memory.tagGuard then return ()
    let _ ← dispatchWith settings onTags { kind, conversationId, channelId, tagIds }

theorem reentrant_quiet (settings : Settings) : reentrant settings quiet = chained settings := rfl

/-- While the guard is up nothing comes of changes of tags, whatever would come of those that are
made meanwhile. -/
theorem agree_reentrant_quiet (h : TagHandler) : Agree Eq true (reentrant settings h) quiet := by
  rintro kind _ c channel tags w _ @⟨t, hguard, hstores⟩
  have hnothing : (reentrant settings h kind c channel tags).runOn w = (.ok (), w) := by
    unfold reentrant
    rw [runOn_bind]
    show (if w.memory.tagGuard = true then _ else _ : Work Unit).runOn w = _
    rw [if_pos hguard]
    rfl
  rw [hnothing]
  exact .of_worlds (.ok ()) (.of_stores hguard hstores)

theorem fire_reentrant (h : TagHandler) {event : Event} (hkind : event.kind.isTagEvent = true)
    (flow : Flow) :
    fire settings (reentrant settings h) event flow = fire settings quiet event flow :=
  eq_of_alike fun _ => alike_fire (agree_reentrant_quiet h)
    (fun hnot => by simp [hkind] at hnot) flow

/-- **A tag event never gets to what comes of the changes that its own runs make.** -/
theorem dispatchWith_reentrant (h : TagHandler) {event : Event}
    (hkind : event.kind.isTagEvent = true) :
    dispatchWith settings (reentrant settings h) event = dispatchWith settings quiet event :=
  eq_of_alike fun _ => alike_dispatchWith (agree_reentrant_quiet h)
    fun hnot => by simp [hkind] at hnot

/-- **The recursion never gets to its third level**, and `chained` is what it amounts to. -/
theorem reentrant_reentrant (h : TagHandler) {kind : EventKind} (hkind : kind.isTagEvent = true)
    (c channel : Int) (tags : List Int) :
    reentrant settings (reentrant settings h) kind c channel tags
      = chained settings kind c channel tags := by
  have hevent : dispatchWith settings (reentrant settings h)
      { kind, conversationId := c, channelId := channel, tagIds := tags } = _ :=
    dispatchWith_reentrant h hkind
  show (do
    if (← get).memory.tagGuard then return ()
    let _ ← dispatchWith settings (reentrant settings h)
      { kind, conversationId := c, channelId := channel, tagIds := tags } : Work Unit) = _
  rw [hevent]
  rfl

theorem agree_reentrant_reentrant (h : TagHandler) :
    Agree Eq b (reentrant settings (reentrant settings h)) (chained settings) := by
  intro kind hkind c channel tags
  rw [reentrant_reentrant h hkind]
  exact agree_chained kind hkind c channel tags

/-! ## The guard -/

theorem guard_execute (honTags : IsHandler settings h) (flow : Flow) (c : Int) (data : Value)
    (instead : Option (List Step)) :
    Work.Keeps SameGuard (execute settings h flow c data instead) := fun w =>
  (alike_execute (agree_handler honTags) flow c data instead w rfl).2

/-- **The guard is left as it was found by every event**, faults or not. -/
theorem guard_dispatchWith (honTags : IsHandler settings h) (event : Event) :
    Work.Keeps SameGuard (dispatchWith settings h event) := fun w =>
  (alike_dispatchWith (agree_handler honTags) (fun _ => agree_handler honTags) w rfl).2

theorem guard_resume (c : Int) : Work.Keeps SameGuard (resume settings c) := fun w =>
  resume_induct (P := SameGuard w) (fun _ _ => rfl) (fun _ _ _ => rfl)
    fun _ _ flow remaining _ => guard_execute (.inr rfl) flow c _ (some remaining) _

theorem guard_handle (o : Occurrence) : Work.Keeps SameGuard (o.handle settings) :=
  keeps_handle o (fun event _ => guard_dispatchWith (.inr rfl) event) (guard_resume _)

end Engine

end Deskflow
