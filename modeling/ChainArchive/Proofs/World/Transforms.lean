import ChainArchive.Proofs.World.Turns

/-!
# Items that fail with a transform

An item fails with a transform in one way only: the transform answers it with an
error, and then it has failed with this error. So whatever else happens in a
world, the failures of this kind are the answers that were given.
-/

namespace ChainArchive
set_option autoImplicit false

open Archiver (Work Effect Signal)
open Pipeline (Ending Phase)

/-- The transform that an item has failed with. -/
def GenerationError.stage? : GenerationError → Option TransformStage
  | .transformTimeout _ stage _ | .transformFailure _ stage _ => some stage
  | _ => none

theorem GenerationError.stage?_ofTransform (id : TransactionId) (stage : TransformStage) (cause : TransformError) :
    (ofTransform id stage cause).stage? = some stage := by cases cause <;> rfl

namespace Archiver

/-- How the work has ended, if it has. -/
def Next.ending? : Next → Option Ending
  | .working _ => none
  | .ended ending => some ending

variable {request : ArchivalRequest} {work : Work} {effect : Effect} {cause : GenerationError} {stage : TransformStage}

/-- The work does not fail with a transform by itself. -/
theorem stage?_of_advance {store after : Store} {now : Nat} {raised gated : Bool}
    (h : advance store now raised gated request work = some (after, effect))
    (failed : effect.next.ending? = some (.failed cause)) : cause.stage? = none := by
  unfold advance at h
  split at h
  · cases h
    cases failed
  · cases h
    unfold submit at failed
    split at failed <;> cases failed
    rfl
  · simp only [relocate, Option.some.injEq] at h
    split at h <;> cases h <;> cases failed
    rfl
  · cases h

/-- Of what comes from outside, only the answer of a transform makes the work fail with a transform. -/
theorem answer_of_receive {settings : GenerationSettings} {s : Signal}
    (h : receive settings request work s = some effect) (failed : effect.next.ending? = some (.failed cause))
    (transform : cause.stage? = some stage) :
    ∃ e, s = .answer stage (.error e) ∧ cause = .ofTransform request.transaction.id stage e := by
  cases s with
  | answer stage' result =>
    simp only [receive, answer] at h
    split at h
    · split at h <;> cases h <;> cases failed
      obtain rfl := Option.some.inj ((GenerationError.stage?_ofTransform ..).symm.trans transform)
      exact ⟨_, rfl, rfl⟩
    · cases h
  | expire | crash | cancel =>
    simp only [receive, Option.ite_none_right_eq_some, Option.some.injEq] at h
    obtain ⟨-, rfl⟩ := h
    cases failed <;> cases transform
  | proceed | refuse =>
    simp only [receive] at h
    split at h <;> cases h
    cases failed <;> cases transform

end Archiver

/-! ## A run -/

namespace Run

variable {r r' : Run} {i j : Nat} {request : ArchivalRequest} {work : Work} {cause : GenerationError}

/-- How an item has ended, if it has. -/
def ending? (r : Run) (item : Nat) : Option Ending := (r.pipeline.phase? item).bind Phase.ending?

theorem ending?_eq_some {ending : Ending} : r.ending? i = some ending ↔
    ∃ item, r.pipeline.items[i]? = some item ∧ item.phase.ending? = some ending := by
  simp only [ending?, Pipeline.phase?, Option.bind_eq_some_iff, Option.map_eq_some_iff]
  constructor
  · rintro ⟨x, ⟨item, inside, rfl⟩, ended⟩
    exact ⟨item, inside, ended⟩
  · rintro ⟨item, inside, ended⟩
    exact ⟨_, ⟨item, inside, rfl⟩, ended⟩

/-- How the items have ended after an effect on one. -/
theorem ending?_apply {n : Nat} {effect : Effect} (busy : r.work? i = some (request, work)) :
    ({ r with relocations := n }.apply i effect).ending? j =
      if i = j then effect.next.ending? else r.ending? j := by
  have here := phase?_of_work? busy
  simp only [ending?, apply, say, Pipeline.setWork, Pipeline.finishWork]
  cases effect.next with
  | working | ended =>
    simp only [Pipeline.phase?_setPhase]
    split
    · next same => simp [← same, here, Phase.ending?, Archiver.Next.ending?]
    · rfl

/-- A step of the pipeline that is not one of the work on an item makes nobody fail. -/
theorem ending?_of_moves {action : Pipeline.Action Work} (sound : r.Sound) (quiet : action.isOfWork = false)
    (moves : Pipeline.Moves (fun _ => .unstarted) r.pipeline action r'.pipeline)
    (failed : r'.ending? i = some (.failed cause)) : r.ending? i = some (.failed cause) := by
  obtain ⟨item, inside, ended⟩ := ending?_eq_some.1 failed
  obtain ⟨x, before, moved⟩ | ⟨-, -, begins⟩ := Pipeline.origin_of_moves sound.coherent moves inside
  · refine ending?_eq_some.2 ⟨_, before, (Phase.ends_of_moved moved ended).resolve_right fun ends => ?_⟩
    cases ends with
    | own work same =>
      rw [same] at quiet
      cases quiet
  · obtain is | is | is := begins <;> simp [is, Phase.ending?] at ended

end Run

/-! ## The world -/

namespace World

variable {w v : World} {action : Action} {k i : Nat} {r r' : Run} {cause : GenerationError} {stage : TransformStage}

/-- How an item has ended, if it has. -/
def ending? (w : World) (run item : Nat) : Option Ending := (w.runs[run]?).bind fun r => r.ending? item

/-- An item of a run has failed with a transform because it had before, or because it is now answered so. -/
theorem Does.answer_of_failed {after : Store} (does : w.Does k r action after r') (sound : r.Sound)
    (failed : r'.ending? i = some (.failed cause)) (transform : cause.stage? = some stage) :
    r.ending? i = some (.failed cause) ∨ ∃ request work e, r.work? i = some (request, work) ∧
      action = .signal k i (.answer stage (.error e)) ∧ cause = .ofTransform request.transaction.id stage e := by
  cases does with
  | walks step =>
    rcases (step.pipeline sound).2 with same | ⟨b, quiet, moves⟩
    · rw [← failed]
      exact .inl (by simp only [Run.ending?, same])
    · exact .inl (Run.ending?_of_moves sound quiet moves failed)
  | drives _ own moves =>
    refine .inl (Run.ending?_of_moves sound ?_ moves failed)
    rcases own with rfl | rfl | rfl <;> rfl
  | works step =>
    cases step with
    | unwinds unwound => exact .inl (Run.ending?_of_moves sound rfl (Pipeline.moves_of_unwind unwound) failed)
    | goesOn found advanced =>
      rw [Run.ending?_apply found] at failed
      split at failed
      · simp [Archiver.stage?_of_advance advanced failed] at transform
      · exact .inl failed
  | hears found received =>
    rw [Run.ending?_apply (n := r.relocations) found] at failed
    split at failed
    · next same =>
      subst same
      obtain ⟨e, rfl, rfl⟩ := Archiver.answer_of_receive received failed transform
      exact .inr ⟨_, _, e, found, rfl, rfl⟩
    · exact .inl failed
  | proceeds | refuses | drops => exact .inl failed

/-- An item has failed with a transform because it had before, or because it is now answered so. -/
theorem Sound.answer_of_failed {outputs : Transforms} (sound : w.Sound outputs) (step : w.step action = some v)
    (failed : v.ending? k i = some (.failed cause)) (transform : cause.stage? = some stage) :
    w.ending? k i = some (.failed cause) ∨ ∃ request e, w.request? k i = some request ∧
      action = .signal k i (.answer stage (.error e)) ∧ cause = .ofTransform request.transaction.id stage e := by
  simp only [ending?, Option.bind_eq_some_iff] at failed ⊢
  obtain ⟨r', found, failed⟩ := failed
  rcases run_of_step step found with ⟨r, there, ⟨-, rfl⟩ | ⟨-, does⟩⟩ | ⟨-, settings, statement, last, -, begun⟩
  · exact .inl ⟨r', there, failed⟩
  · obtain before | ⟨request, work, e, busy, rfl, rfl⟩ := does.answer_of_failed (sound k r there).1 failed transform
    · exact .inl ⟨r, there, before⟩
    · exact .inr ⟨request, e, by simp [World.request?, there, Run.items_of_work? busy], rfl, rfl⟩
  · obtain ⟨item, inside, -⟩ := Run.ending?_eq_some.1 failed
    rw [Run.items_begin begun] at inside
    cases inside

/-- A transform that is waited for can always answer with an error, and then the item has failed with it. -/
theorem failed_of_answer {request : ArchivalRequest} {start : Nat} {compressed signature : Option Bytes}
    (found : w.runs[k]? = some r)
    (busy : r.work? i = some (request, .transforming start compressed signature))
    (pending : (match stage with | .compress => compressed | .sign => signature) = none) (e : TransformError) :
    ∃ v, w.step (.signal k i (.answer stage (.error e))) = some v ∧
      v.ending? k i = some (.failed (.ofTransform request.transaction.id stage e)) := by
  have answered : Archiver.receive r.settings request (.transforming start compressed signature) (.answer stage (.error e)) =
      some (.fail (.ofTransform request.transaction.id stage e) [.transformFailed request.transaction.id stage e]) := by
    cases stage <;> simp_all [Archiver.receive, Archiver.answer]
  refine ⟨w.setRun k (r.apply i (.fail (.ofTransform request.transaction.id stage e)
    [.transformFailed request.transaction.id stage e])), by simp [World.step, onRun, found, Run.signal, busy, answered], ?_⟩
  rw [ending?, runs_setRun_self found]
  show Run.ending? _ i = _
  rw [Run.ending?_apply (n := r.relocations) busy]
  simp [Effect.fail, Archiver.Next.ending?]

end World
end ChainArchive
