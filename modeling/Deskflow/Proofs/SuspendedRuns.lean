import Deskflow.Proofs.ResumeOnce

/-!
# Runs that end suspended

How the steps of a run ended is put on record when the run ends (`World.conclusions`), and a run
that stops at a condition is put on record there and then (`World.pauses`). The two tell the same:
whatever comes to the engine, the runs that end suspended are those that stopped, one after another,
also where a run that a change of tags sets off stops or ends in the middle of another one. No run
stops without ending suspended, and none ends suspended without having stopped.

* `suspendedRuns`: of runs that ended, those that were suspended.
* `balanced_execute`: an execution puts its run on record in both ways, or in neither.
* `balanced_handle`: the result, for everything that can come to the engine.
-/

namespace Deskflow

/-- Whether a run ended because it waits for a condition. -/
def Conclusion.isSuspended (x : Conclusion) : Bool :=
  match x.result with
  | .ok .suspended => true
  | _ => false

/-- Of runs that ended one after another, those that ended suspended. -/
def suspendedRuns (ended : List Conclusion) : List Int :=
  (ended.filter Conclusion.isSuspended).map Conclusion.runId

theorem suspendedRuns_append (xs ys : List Conclusion) :
    suspendedRuns (xs ++ ys) = suspendedRuns xs ++ suspendedRuns ys := by
  rw [suspendedRuns, List.filter_append, List.map_append]
  rfl

theorem mem_suspendedRuns {ended : List Conclusion} {id : Int} :
    id ∈ suspendedRuns ended ↔ ⟨id, .ok .suspended⟩ ∈ ended := by
  constructor
  · intro h
    obtain ⟨⟨runId, result⟩, hx, rfl⟩ := List.mem_map.mp h
    obtain ⟨hx, hsuspended⟩ := List.mem_filter.mp hx
    rcases result with _ | _ | _
    · cases hsuspended
    · cases hsuspended
    · exact hx
  · exact fun h => List.mem_map.mpr ⟨_, List.mem_filter.mpr ⟨h, rfl⟩, rfl⟩

namespace Engine

open Work World

/-- Between two worlds runs ended, and those that ended suspended are the ones that stopped at a
condition, in the same order. -/
def Balanced (w v : World) : Prop :=
  ∃ ended stops, v.conclusions = w.conclusions ++ ended ∧ v.pauses = w.pauses ++ stops
    ∧ stops.map Pause.runId = suspendedRuns ended

/-- What puts nothing on record. -/
theorem Balanced.of_eq {w v : World} (hended : v.conclusions = w.conclusions)
    (hpauses : v.pauses = w.pauses) : Balanced w v :=
  ⟨[], [], by rw [hended, List.append_nil], by rw [hpauses, List.append_nil], rfl⟩

instance : Std.Refl Balanced := ⟨fun _ => .of_eq rfl rfl⟩

instance : IsTrans World Balanced :=
  ⟨fun _ _ _ ⟨xs, ps, hended, hstops, hsame⟩ ⟨ys, qs, hended', hstops', hsame'⟩ =>
    ⟨xs ++ ys, ps ++ qs, by rw [hended', hended, List.append_assoc],
      by rw [hstops', hstops, List.append_assoc],
      by rw [List.map_append, hsame, hsame', suspendedRuns_append]⟩⟩

theorem Balanced.of_aside {w v : World} (h : Aside w v) : Balanced w v :=
  .of_eq h.conclusions h.pauses

/-- The end of a run puts on record what its steps came to, and nothing else. -/
theorem logs_endRun (id : Int) (r : Except Fault Progress) (w : World) :
    ((endRun id r).runOn w).2.conclusions = w.conclusions ++ [⟨id, r⟩]
      ∧ ((endRun id r).runOn w).2.pauses = w.pauses := by
  rw [runOn_endRun, run_transact]
  cases (RunLog.finish w.clock id (endOf r)).run w.store <;> exact ⟨rfl, rfl⟩

variable {settings : Settings} {onTags : TagHandler} {c : Int}

/-- **A run ends suspended exactly if it is on record to have stopped**: of the runs that an
execution brings about, its own and those of changes of tags, the ones that stop are the ones that
end suspended. -/
theorem balanced_execute
    (handled : ∀ kind channel tags, Work.Keeps Balanced (onTags kind c channel tags))
    (flow : Flow) (data : Value) (instead : Option (List Step)) :
    Work.Keeps Balanced (execute settings onTags flow c data instead) := by
  intro w
  have he := executed_execute settings onTags flow c data instead w
  generalize (execute settings onTags flow c data instead).runOn w = out at he
  cases he with
  | refused fault => exact Std.Refl.refl w
  | missing => exact Std.Refl.refl w
  | unread => exact .of_eq rfl rfl
  | ran thread id s steps r v loaded opened readable played =>
    obtain rfl : thread.conversation.id = c := Store.id_of_find? (find?_of_loadThread loaded).2
    let ctx : Context := ⟨flow.automation.id, id, thread.conversation.id⟩
    have halong := along_runBeats (R := Balanced) (.of_aside settings Balanced.of_aside)
      (fun kind _ => handled kind)
      (fun head => keeps_begin ctx head fun _ _ _ => .of_eq rfl rfl) (beats none steps)
      { w with store := s }
    rw [played] at halong
    rw [snd_runOn_endRun]
    obtain ⟨hended, hpauses⟩ := logs_endRun id r v
    cases halong with
    | passed _ _ passes keeps =>
      obtain ⟨ended, stops, hended', hstops, hsame⟩ := keeps
      have hnot : (Conclusion.mk id r).isSuspended = false := by
        rcases r with _ | _ | _
        · rfl
        · rfl
        · exact absurd rfl passes
      refine ⟨ended ++ [⟨id, r⟩], stops, ?_, hpauses.trans hstops, ?_⟩
      · rw [hended, hended', List.append_assoc]
      · rw [hsame, suspendedRuns_append, suspendedRuns, suspendedRuns, List.filter_singleton, hnot]
        simp
    | stopped before last after m' m cond facts s' upTo goesOn begins keeps _ _ saved =>
      obtain ⟨ended, stops, hended', hstops, hsame⟩ := keeps
      refine ⟨ended ++ [⟨id, .ok .suspended⟩], stops ++ [ctx.pause last.owner cond facts],
        hended.trans ?_, hpauses.trans ?_, ?_⟩
      · rw [hended', List.append_assoc]
      · rw [hstops, List.append_assoc]
      · rw [List.map_append, hsame, suspendedRuns_append]
        rfl

theorem runwork_balanced (settings : Settings) (c : Int) : Runwork settings c Balanced where
  executes := balanced_execute
  remembers _ _ := .of_eq rfl rfl

/-- **The runs that end suspended are those that stopped**, in whatever the engine does. -/
theorem balanced_handle (o : Occurrence) : Work.Keeps Balanced (o.handle settings) :=
  (runwork_balanced settings o.conversationId).handle (fun _ => .of_eq rfl rfl) rfl

end Engine

end Deskflow
