import ChainArchive.Proofs.World.Progress

/-!
# The first failure

When the first item of a run records its failure while the walk has not failed,
the run is bound to that failure: the driver takes it, whichever way it learns of
it and whatever other items record later, and the walker answers it, even if the
walk itself fails afterwards.
-/

namespace ChainArchive
set_option autoImplicit false

open Archiver (Work)

namespace Run

variable {outputs : Transforms} {store after : Store} {now : Nat} {gated : Bool} {r r' : Run} {cause : GenerationError}

/-- A run that was dropped stays dropped. -/
theorem Goes.isGone (step : r.Goes r') (gone : r.walker.isGone = true) : r'.walker.isGone = true := by
  cases step with
  | alone step =>
    cases step with
    | walk walked => exact (walks_of_walk walked).before.gone gone
    | inner step => rw [step.walker]; exact gone
    | proceed place | refuse _ place => simp [place, Walker.isGone] at gone
    | drop => rfl
  | stored step => rw [step.inner.walker]; exact gone

/-- An item that has panicked stays so. -/
theorem Goes.panicked (step : r.Goes r') (sound : r.Sound) (panicked : r.pipeline.Panicked) : r'.pipeline.Panicked := by
  rcases step.pipeline sound with same | ⟨action, moves⟩
  · rw [same]
    exact panicked
  · exact panicked.moves sound.coherent moves

/-- The run is bound to this failure. -/
structure Bound (cause : GenerationError) (r : Run) : Prop where
  leading : r.pipeline.Leading cause
  real : cause ≠ .aborted
  answered : ∀ result, r.walker = .finished result → result = .error cause

namespace Bound

/-- However the walk ends, the run answers what its pipeline does. -/
theorem result_eq {outcome : WalkEnd} (real : cause ≠ .aborted) : outcome.result (.error cause) = .error cause := by
  cases outcome <;> simp [WalkEnd.result, real]

/-- Every step leaves the run bound, unless an item has panicked. -/
theorem goes (h : Bound cause r) (sound : r.Sound) (orderly : r.pipeline.Orderly) (sane : ¬ r.pipeline.Panicked)
    (step : r.Goes r') : Bound cause r' := by
  have leading : r'.pipeline.Leading cause := by
    rcases step.pipeline sound with same | ⟨action, moves⟩
    · rw [same]
      exact h.leading
    · exact h.leading.moves sound.coherent orderly sane moves
  refine ⟨leading, h.real, fun result finished => ?_⟩
  cases step with
  | alone step =>
    cases step with
    | walk walked =>
      obtain ⟨outcome, own, -, driver, rfl⟩ := (walks_of_walk walked).finished finished
      rw [h.leading.result sound.coherent driver, result_eq h.real]
      rfl
    | inner step =>
      rw [step.walker] at finished
      exact h.answered result finished
    | proceed | drop => cases finished
    | refuse => simp [find, goTo] at finished
  | stored step =>
    rw [step.inner.walker] at finished
    exact h.answered result finished

/-- The first failure that an item records binds the run, unless the walk has failed before or the run was dropped. -/
theorem of_record {action : Pipeline.Action Work} (sound : r.Sound) (accountable : r.Accountable)
    (accountable' : r'.Accountable) (moves : Pipeline.Moves (fun _ => .unstarted) r.pipeline action r'.pipeline)
    (walking : r.walker.failure? = none) (here : r.walker.isGone = false) (sane : ¬ r.pipeline.Panicked)
    (untold : ∀ own, ¬ r.pipeline.Tells own) (recorded : r'.pipeline.Tells cause) : Bound cause r' := by
  obtain ⟨i, rfl, failed⟩ :=
    (Pipeline.tells_of_moves sound.coherent moves recorded).resolve_left (untold cause)
  -- the item still runs, so the run is not over
  have unsettled : ∀ own, r.pipeline.driver ≠ .finished own := by
    intro own finished
    have stopped := accountable.traced.orderly.stopped own finished i _ failed
    cases stopped
  have alone : ¬ r.walker.mayRaise = true := by
    intro raises
    cases place : r.walker with
    | closing outcome | awaiting outcome => cases outcome <;> simp_all [Walker.mayRaise, Walker.failure?]
    | finished result =>
      obtain ⟨own, finished⟩ := accountable.settled result place
      exact unsettled own finished
    | _ => simp_all [Walker.mayRaise, Walker.isGone]
  obtain ⟨leading, real⟩ := accountable.traced.blamed.leading_of_record alone sane untold moves failed
  refine ⟨leading, real, fun result finished => ?_⟩
  obtain ⟨own, finished'⟩ := accountable'.settled result finished
  have stopped := accountable'.traced.orderly.stopped own finished' i _ (Pipeline.record_of_moves moves failed).1
  cases stopped

end Bound
end Run

namespace World

variable {w₀ w₁ w₂ w₃ : World} {action : Action} {k : Nat} {r₁ r₂ r₃ : Run} {cause : GenerationError}

/-- The first failure that an item records binds its run for good, unless the walk has failed before. What can still
happen is that the run is dropped or that an item panics. -/
theorem bound_of_first (idle : w₀.runs = []) (before : Reachable (Steps World.step) w₀ w₁)
    (step : w₁.step action = some w₂) (found₁ : w₁.runs[k]? = some r₁) (found₂ : w₂.runs[k]? = some r₂)
    (walking : r₁.walker.failure? = none) (untold : ∀ own, ¬ r₁.pipeline.Tells own) (recorded : r₂.pipeline.Tells cause)
    (after : Reachable (Steps World.step) w₂ w₃) (found₃ : w₃.runs[k]? = some r₃) :
    r₃.walker.isGone = true ∨ r₃.pipeline.Panicked ∨ r₃.Bound cause := by
  obtain ⟨sound, accountable⟩ := accountable_reachable idle before
  obtain ⟨sound', accountable'⟩ := accountable_reachable idle (before.tail step)
  have goes : r₁.Goes r₂ := by
    obtain ⟨r, found, rfl | goes⟩ | ⟨beyond, -⟩ := (sound.change_of_any_step step).origin found₂
    · rw [found₁, Option.some.injEq] at found
      exact absurd recorded (found ▸ untold cause)
    · rw [found₁, Option.some.injEq] at found
      rwa [found]
    · exact absurd (List.getElem?_eq_some_iff.1 found₁).1 (by simp [beyond])
  have binds : r₂.walker.isGone = true ∨ r₂.pipeline.Panicked ∨ r₂.Bound cause := by
    by_cases gone : r₁.walker.isGone = true
    · exact .inl (goes.isGone gone)
    by_cases panicked : r₁.pipeline.Panicked
    · exact .inr (.inl (goes.panicked (sound k r₁ found₁).1 panicked))
    rcases goes.pipeline (sound k r₁ found₁).1 with same | ⟨action, moves⟩
    · exact absurd (same ▸ recorded) (untold cause)
    · have bound : r₂.Bound cause := .of_record (sound k r₁ found₁).1 (accountable k r₁ found₁) (accountable' k r₂ found₂)
        moves walking (by simpa using gone) panicked untold recorded
      exact .inr (.inr bound)
  have keeps (r r' : Run) (sound : r.Sound) (accountable : r.Accountable) (goes : r.Goes r') :
      (r.walker.isGone = true ∨ r.pipeline.Panicked ∨ r.Bound cause) →
        r'.walker.isGone = true ∨ r'.pipeline.Panicked ∨ r'.Bound cause := by
    rintro (gone | panicked | bound)
    · exact .inl (goes.isGone gone)
    · exact .inr (.inl (goes.panicked sound panicked))
    · by_cases panicked : r.pipeline.Panicked
      · exact .inr (.inl (goes.panicked sound panicked))
      · exact .inr (.inr (bound.goes sound accountable.traced.orderly panicked goes))
  obtain ⟨r, found, -, -, bound⟩ := run_reachable sound' accountable' found₂ binds keeps after
  rwa [Option.some.inj (found₃.symm.trans found)]

/-- The first failure is the one that is reported. An item of a run records a failure while no other has recorded one
and the walk has not failed. Whatever happens then, the walk's own failure included, as long as no item panics the run
answers nothing but this failure. Unless the run is dropped, its pipeline gives nothing else to whoever waits for it,
and both can always still come to it. -/
theorem first_failure_reported (idle : w₀.runs = []) (before : Reachable (Steps World.step) w₀ w₁)
    (step : w₁.step action = some w₂) (found₁ : w₁.runs[k]? = some r₁) (found₂ : w₂.runs[k]? = some r₂)
    (walking : r₁.walker.failure? = none) (untold : ∀ own, ¬ r₁.pipeline.Tells own) (recorded : r₂.pipeline.Tells cause)
    (after : Reachable (Steps World.step) w₂ w₃) (found₃ : w₃.runs[k]? = some r₃) (sane : ¬ r₃.pipeline.Panicked) :
    (∀ result, r₃.result? = some result → result = .error cause) ∧
      (r₃.walker.isGone = false → (∀ result, r₃.pipeline.driver = .finished result → result = .error cause) ∧
        ∃ w₄ r₄, Reachable (Steps World.step) w₃ w₄ ∧ w₄.runs[k]? = some r₄ ∧
          r₄.pipeline.driver = .finished (.error cause) ∧ r₄.result? = some (.error cause)) := by
  have bound {w : World} {r : Run} (after : Reachable (Steps World.step) w₂ w) (found : w.runs[k]? = some r)
      (here : r.walker.isGone = false) (sane : ¬ r.pipeline.Panicked) : r.Bound cause := by
    have cases := bound_of_first idle before step found₁ found₂ walking untold recorded after found
    exact (cases.resolve_left (by simp [here])).resolve_left sane
  obtain ⟨sound₃, accountable₃⟩ := accountable_reachable idle ((before.tail step).trans after)
  refine ⟨fun result answered => ?_, fun here => ⟨fun result => ?_, ?_⟩⟩
  · have place := Run.walker_of_result answered
    exact (bound after found₃ (by rw [place]; rfl) sane).answered result place
  · exact (bound after found₃ here sane).leading.result (sound₃ k r₃ found₃).1.coherent
  · have failing : Failing k w₃ :=
      ⟨sound₃, accountable₃, r₃, found₃, here, sane, cause, (bound after found₃ here sane).leading.told⟩
    obtain ⟨w₄, further, ⟨sound₄, accountable₄, r₄, found₄, here₄, sane₄, -⟩, ended⟩ := failing.comes_to_end
    have bound₄ := bound (after.trans further) found₄ here₄ sane₄
    obtain ⟨result, answered⟩ := Option.ne_none_iff_exists'.1 (ended r₄ found₄)
    have place := Run.walker_of_result answered
    obtain ⟨own, driver⟩ := (accountable₄ k r₄ found₄).settled result place
    refine ⟨w₄, r₄, further, found₄, ?_, ?_⟩
    · rw [driver, bound₄.leading.result (sound₄ k r₄ found₄).1.coherent driver]
    · rw [answered, bound₄.answered result place]

/-- A chain whose older record is missing. -/
def brokenWorld : World := { store := .ofList 10 [⟨exampleTail, some ⟨"older", rfl⟩, [1, 2]⟩] }

/-- A run over `brokenWorld` asks for the missing record while the signer refuses the first one. -/
def refusedActions : List Action :=
  let walks (steps : Nat) : List Action := List.replicate steps (.go (.walker 0))
  let drives (steps : Nat) : List Action := List.replicate steps (.go (.driver 0))
  Action.begin {} exampleStatement exampleTail :: walks 8 ++ [Action.wake 0] ++ drives 4 ++
    [Action.go (.item 0 0), .signal 0 0 (.answer .sign (.error (.failed "no key")))]

/-- The refusal is recorded first, and then the walk fails too. The run still answers the refusal. -/
theorem first_failure_reported_example : ∃ (w₁ w₂ w₃ : World) (r₃ : Run),
    follow (fun _ _ => true) World.step brokenWorld refusedActions = some w₁ ∧ w₁.step (.go (.item 0 0)) = some w₂ ∧
    follow (fun _ _ => true) World.step w₂ (List.replicate 3 (.go (.walker 0))) = some w₃ ∧
    w₃.runs[0]? = some r₃ ∧ r₃.walker.failure? = some (.notFound ⟨"older", by decide⟩) ∧
    ∃ w₄ r₄, Reachable (Steps World.step) w₃ w₄ ∧ w₄.runs[0]? = some r₄ ∧
      r₄.result? = some (.error (.transformFailure exampleTail .sign "no key")) := by
  have possible : (follow (fun _ _ => true) World.step brokenWorld refusedActions).any fun (w₁ : World) =>
      (w₁.runs[0]?).any fun (r₁ : Run) => r₁.walker.failure? == none && r₁.pipeline.items.all (·.phase.told? == none) &&
        (w₁.step (.go (.item 0 0))).any fun (w₂ : World) => (w₂.runs[0]?).any fun (r₂ : Run) =>
          r₂.pipeline.phase? 0 == some (.recorded (.transformFailure exampleTail .sign "no key")) &&
            (follow (fun _ _ => true) World.step w₂ (List.replicate 3 (.go (.walker 0)))).any fun (w₃ : World) =>
              (w₃.runs[0]?).any fun (r₃ : Run) => r₃.walker.failure? == some (.notFound ⟨"older", by decide⟩) &&
                r₃.pipeline.items.all (·.phase.ending? != some .panicked) && !r₃.walker.isGone := by decide +kernel
  simp only [Option.any_eq_true, Bool.and_eq_true, beq_iff_eq, List.all_eq_true, bne_iff_ne, Bool.not_eq_true']
    at possible
  obtain ⟨w₁, followed, r₁, found₁, ⟨walking, untold⟩, w₂, step, r₂, found₂, recorded, w₃, followed', r₃, found₃,
    ⟨failed, sane⟩, here⟩ := possible
  have reach {s t : World} {actions : List Action} (followed : follow (fun _ _ => true) World.step s actions = some t) :
      Reachable (Steps World.step) s t := (reachable_of_follow followed fun _ _ _ => trivial).of_restricted
  have member {r : Run} {i : Nat} {x : Pipeline.Phase Work} (found : r.pipeline.phase? i = some x) :
      ∃ item ∈ r.pipeline.items, item.phase = x := Pipeline.mem_items_iff.2 ⟨i, found⟩
  obtain ⟨-, reported⟩ := first_failure_reported rfl (reach followed) step found₁ found₂ walking
    (by rintro own ⟨i, x, found, told⟩
        obtain ⟨item, inside, rfl⟩ := member found
        simp [untold item inside] at told)
    ⟨0, _, recorded, rfl⟩ (reach followed') found₃
    (by rintro ⟨i, x, found, panicked⟩
        obtain ⟨item, inside, rfl⟩ := member found
        exact sane item inside panicked)
  obtain ⟨-, w₄, r₄, further, found₄, -, answered⟩ := reported here
  exact ⟨w₁, w₂, w₃, r₃, followed, step, followed', found₃, failed, w₄, r₄, further, found₄, answered⟩

end World
end ChainArchive
