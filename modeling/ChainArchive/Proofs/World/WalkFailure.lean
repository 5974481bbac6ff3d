import ChainArchive.Proofs.World.FirstFailure
import ChainArchive.Proofs.World.Rest

/-!
# A walk that fails

When the walk of a run fails, the run raises the flag and waits for its pipeline.
The driver takes the first failure that items have recorded by the time it leaves
its loop, be it one that was recorded after the flag was raised, and the run
answers that one. So the failure of the walk is reported only when no item has
recorded one of its own by then, and it does not help that the walk failed first.
-/

namespace ChainArchive
set_option autoImplicit false

open Archiver (Work)

/-- A run whose walk has failed does not answer a receipt. -/
theorem WalkEnd.result_failed (cause : GenerationError) (own : Except GenerationError Nat) :
    ∃ e, (WalkEnd.failed cause).result own = .error e ∧ (e = cause ∨ e ≠ .aborted ∧ own = .error e) := by
  cases own with
  | ok => exact ⟨cause, rfl, .inl rfl⟩
  | error other =>
    by_cases aborted : other = .aborted
    · exact ⟨cause, by simp [WalkEnd.result, aborted], .inl rfl⟩
    · exact ⟨other, by simp [WalkEnd.result, aborted], .inr ⟨aborted, rfl⟩⟩

/-! ## What the driver takes -/

namespace Pipeline

variable {σ : Type} {p : Pipeline σ} {outside : Prop} {cause : GenerationError}

theorem untold_of_items (h : ∀ item ∈ p.items, item.phase.told? = none) (own : GenerationError) : ¬ p.Tells own := by
  rintro ⟨i, x, found, told⟩
  obtain ⟨item, inside, rfl⟩ := mem_items_iff.2 ⟨i, found⟩
  simp [h item inside] at told

theorem sane_of_items (h : ∀ item ∈ p.items, item.phase.ending? ≠ some .panicked) : ¬ p.Panicked := by
  rintro ⟨i, x, found, panicked⟩
  obtain ⟨item, inside, rfl⟩ := mem_items_iff.2 ⟨i, found⟩
  exact h item inside panicked

/-- A driver that has left its loop while items have recorded only that they were stopped does not fail with anything
else. -/
theorem Blamed.takes_aborted (h : Blamed outside p) (sane : ¬ p.Panicked) (left : p.driver.isFailing = true)
    (untold : ∀ own, p.Tells own → own = .aborted) : p.Takes .aborted := by
  rcases Driver.cause?_of_isFailing left with ⟨own, failed⟩ | dropped
  · cases h.cause own failed with
    | item tells real => exact absurd (untold own tells) real
    | panic panicked => exact absurd panicked sane
    | outside => exact .inr (.inl failed)
  · exact .inr (.inr dropped)

/-- What the driver takes is what it fails with, unless that is to be stopped and it does not fail. -/
theorem Takes.result (h : p.Takes cause) (coherent : Coherent p) (blamed : Blamed outside p) (sane : ¬ p.Panicked)
    {own : Except GenerationError Nat} (finished : p.driver = .finished own) :
    own = .error cause ∨ cause = .aborted ∧ ∃ count, own = .ok count := by
  rcases h with ⟨going, first⟩ | failed | dropped
  · cases own with
    | error other => simp [finished, Driver.isFailing] at going
    | ok count =>
      cases blamed.first going cause first with
      | item tells real => exact .inl (Leading.result ⟨tells, .inl ⟨going, first⟩⟩ coherent finished)
      | panic panicked => exact absurd panicked sane
      | outside => exact .inr ⟨rfl, count, rfl⟩
  · rw [finished] at failed
    cases own with
    | ok => cases failed
    | error other =>
      cases failed
      exact .inl rfl
  · simp [finished] at dropped

end Pipeline

/-! ## What the run answers -/

namespace Run

variable {r r' : Run} {cause : GenerationError}

/-- The walk has failed with this. If the run is over, it answers what this failure and its pipeline come to. -/
def WalkFailed (cause : GenerationError) (r : Run) : Prop :=
  r.walker.failure? = some cause ∨ ∃ own e, r.pipeline.driver = .finished own ∧
    (WalkEnd.failed cause).result own = .error e ∧ r.walker = .finished (.error e)

/-- A walk that has failed stays so, unless the run is dropped. -/
theorem WalkFailed.goes (h : r.WalkFailed cause) (step : r.Goes r') :
    r'.walker.isGone = true ∨ r'.WalkFailed cause := by
  -- neither the driver nor an item moves the walker
  have kept {action : Pipeline.Action Work} (inner : r.Inner action r') : r'.WalkFailed cause := by
    rcases h with failed | ⟨own, e, driver, result, place⟩
    · exact .inl (by rw [inner.walker]; exact failed)
    · exact .inr ⟨own, e, Pipeline.driver_of_moves inner.moves driver, result, by rw [inner.walker]; exact place⟩
  cases step with
  | stored step => exact .inr (kept step.inner)
  | alone step =>
    cases step with
    | inner step => exact .inr (kept step)
    | drop => exact .inl rfl
    | proceed place | refuse _ place => simp [WalkFailed, place, Walker.failure?] at h
    | walk walked =>
      cases walks_of_walk walked with
      | @aborts own place =>
        obtain rfl : own = cause := by simpa [WalkFailed, place, Walker.failure?] using h
        exact .inr (.inl rfl)
      | @closes outcome place other =>
        cases outcome with
        | failed own => exact absurd rfl (other own)
        | complete | closed => simp [WalkFailed, place, Walker.failure?] at h
      | @completes outcome place =>
        cases outcome <;> simp [WalkFailed, place, Walker.failure?] at h
        exact .inr (.inl (by simp [Walker.failure?, h]))
      | @ends outcome own place driver =>
        obtain rfl : outcome = .failed cause := by
          cases outcome <;> simp [WalkFailed, place, Walker.failure?] at h
          rw [h]
        obtain ⟨e, result, -⟩ := WalkEnd.result_failed cause own
        exact .inr (.inr ⟨own, e, by simpa [result, finish, goTo, say] using driver, result, by rw [result]; rfl⟩)
      | seesFlag place | revisits place | asks place | finds place | misses place | calls place | resumes place
      | unwinds place | isRefused place | goesOn place | reachesHead place | withdraws place | leaves place
      | drops place => simp [WalkFailed, place, Walker.failure?] at h

/-- What a run answers whose walk has failed: the failure of the walk, or one that an item has come to by itself. -/
theorem WalkFailed.answers (h : r.WalkFailed cause) {result : Except GenerationError Receipt}
    (answered : r.result? = some result) :
    ∃ own e, r.pipeline.driver = .finished own ∧ (WalkEnd.failed cause).result own = .error e ∧ result = .error e := by
  have place := walker_of_result answered
  rcases h with failed | ⟨own, e, driver, told, place'⟩
  · simp [place, Walker.failure?] at failed
  · rw [place] at place'
    cases place'
    exact ⟨own, e, driver, told, rfl⟩

end Run

namespace World

variable {w₀ w₁ w₂ w₃ : World} {k : Nat} {r₁ r₂ r₃ : Run} {cause : GenerationError}

/-- The walk of a run that was not dropped has failed for good. -/
theorem walkFailed_later (idle : w₀.runs = []) (before : Reachable (Steps World.step) w₀ w₁)
    (found₁ : w₁.runs[k]? = some r₁) (failed : r₁.walker.failure? = some cause)
    (after : Reachable (Steps World.step) w₁ w₂) (found₂ : w₂.runs[k]? = some r₂) :
    r₂.walker.isGone = true ∨ r₂.WalkFailed cause := by
  obtain ⟨sound, accountable⟩ := accountable_reachable idle before
  have keeps (r r' : Run) (_ : r.Sound) (_ : r.Accountable) (goes : r.Goes r') :
      (r.walker.isGone = true ∨ r.WalkFailed cause) → r'.walker.isGone = true ∨ r'.WalkFailed cause := by
    rintro (gone | kept)
    · exact .inl (goes.isGone gone)
    · exact kept.goes goes
  obtain ⟨r, found, -, -, kept⟩ := run_reachable sound accountable found₁ (.inr (.inl failed)) keeps after
  rwa [Option.some.inj (found₂.symm.trans found)]

/-- What the driver takes when it leaves its loop it takes for good, unless an item panics. -/
theorem takes_later (idle : w₀.runs = []) (before : Reachable (Steps World.step) w₀ w₁) (found₁ : w₁.runs[k]? = some r₁)
    (takes : r₁.pipeline.Takes cause) (after : Reachable (Steps World.step) w₁ w₂) (found₂ : w₂.runs[k]? = some r₂) :
    r₂.pipeline.Panicked ∨ r₂.pipeline.Takes cause := by
  obtain ⟨sound, accountable⟩ := accountable_reachable idle before
  have keeps (r r' : Run) (sound : r.Sound) (accountable : r.Accountable) (goes : r.Goes r') :
      (r.pipeline.Panicked ∨ r.pipeline.Takes cause) → r'.pipeline.Panicked ∨ r'.pipeline.Takes cause := by
    rintro (panicked | takes)
    · exact .inl (goes.panicked sound panicked)
    by_cases panicked : r.pipeline.Panicked
    · exact .inl (goes.panicked sound panicked)
    rcases goes.pipeline sound with same | ⟨action, moves⟩
    · exact .inr (by rw [same]; exact takes)
    · exact .inr (takes.moves sound.coherent accountable.traced.orderly panicked moves)
  obtain ⟨r, found, -, -, kept⟩ := run_reachable sound accountable found₁ (.inr takes) keeps after
  rwa [Option.some.inj (found₂.symm.trans found)]

/-- A driver that has ended stays so. -/
theorem finished_later (idle : w₀.runs = []) (before : Reachable (Steps World.step) w₀ w₁)
    (found₁ : w₁.runs[k]? = some r₁) {own : Except GenerationError Nat} (finished : r₁.pipeline.driver = .finished own)
    (after : Reachable (Steps World.step) w₁ w₂) (found₂ : w₂.runs[k]? = some r₂) :
    r₂.pipeline.driver = .finished own := by
  obtain ⟨sound, accountable⟩ := accountable_reachable idle before
  have keeps (r r' : Run) (sound : r.Sound) (_ : r.Accountable) (goes : r.Goes r')
      (finished : r.pipeline.driver = .finished own) : r'.pipeline.driver = .finished own := by
    rcases goes.pipeline sound with same | ⟨action, moves⟩
    · rw [same, finished]
    · exact Pipeline.driver_of_moves moves finished
  obtain ⟨r, found, -, -, kept⟩ := run_reachable sound accountable found₁ finished keeps after
  rwa [Option.some.inj (found₂.symm.trans found)]

/-- How a run ends whose walk has failed, unless it is dropped or an item panics. It answers the failure of the walk or
one that an item has recorded by itself, and which of them is settled when the driver leaves its loop: the first failure
that items have recorded by then, and the failure of the walk if there is none but of items that were stopped. An item
may have recorded it after the walk failed. The run can always still come to its end. -/
theorem walk_failure_reported (idle : w₀.runs = []) (before : Reachable (Steps World.step) w₀ w₁)
    (found₁ : w₁.runs[k]? = some r₁) (failed : r₁.walker.failure? = some cause)
    (after : Reachable (Steps World.step) w₁ w₂) (found₂ : w₂.runs[k]? = some r₂)
    (later : Reachable (Steps World.step) w₂ w₃) (found₃ : w₃.runs[k]? = some r₃) (sane : ¬ r₃.pipeline.Panicked) :
    (∀ result, r₃.result? = some result →
      ∃ e, result = .error e ∧ (e = cause ∨ e ≠ .aborted ∧ r₃.pipeline.Tells e)) ∧
    (r₂.pipeline.driver.isLooping = false → (∀ own, r₂.pipeline.Tells own → own = .aborted) →
      ∀ result, r₃.result? = some result → result = .error cause) ∧
    (∀ own, r₂.pipeline.driver.isLooping = true → r₂.pipeline.firstFailure = some own →
      ∀ result, r₃.result? = some result → result = .error (if own = .aborted then cause else own)) ∧
    (r₃.walker.isGone = false → ∃ w₄ r₄ result, Reachable (Steps World.step) w₃ w₄ ∧ w₄.runs[k]? = some r₄ ∧
      ¬ r₄.pipeline.Panicked ∧ r₄.result? = some result) := by
  obtain ⟨sound₂, accountable₂⟩ := accountable_reachable idle (before.trans after)
  obtain ⟨sound₃, accountable₃⟩ := accountable_reachable idle ((before.trans after).trans later)
  have coherent := (sound₃ k r₃ found₃).1.coherent
  have blamed := (accountable₃ k r₃ found₃).traced.blamed
  have ends {result : Except GenerationError Receipt} (answered : r₃.result? = some result) :
      ∃ own e, r₃.pipeline.driver = .finished own ∧ (WalkEnd.failed cause).result own = .error e ∧
        result = .error e := by
    refine Run.WalkFailed.answers ?_ answered
    exact (walkFailed_later idle before found₁ failed (after.trans later) found₃).resolve_left
      (by simp [Run.walker_of_result answered, Walker.isGone])
  -- what the driver has taken settles what the run answers
  have taken {own : GenerationError} (takes : r₂.pipeline.Takes own) {result : Except GenerationError Receipt}
      (answered : r₃.result? = some result) : result = .error (if own = .aborted then cause else own) := by
    obtain ⟨outcome, e, driver, told, rfl⟩ := ends answered
    have takes := (takes_later idle (before.trans after) found₂ takes later found₃).resolve_left sane
    obtain rfl | ⟨rfl, count, rfl⟩ := takes.result coherent blamed sane driver
    · simp only [WalkEnd.result] at told
      split at told <;> cases told <;> simp_all
    · cases told
      simp
  have sane₂ : ¬ r₂.pipeline.Panicked := by
    intro panicked
    obtain ⟨r, found, -, -, panicked⟩ := run_reachable sound₂ accountable₂ found₂ panicked
      (fun r r' sound _ goes => goes.panicked sound) later
    exact sane (Option.some.inj (found₃.symm.trans found) ▸ panicked)
  refine ⟨fun result answered => ?_, fun left untold result answered => ?_, fun own loops first result answered => ?_,
    fun here => ?_⟩
  · obtain ⟨own, e, driver, told, rfl⟩ := ends answered
    obtain ⟨e', told', rfl | ⟨real, rfl⟩⟩ := WalkEnd.result_failed cause own
    · exact ⟨e, rfl, .inl (Except.error.inj (told.symm.trans told'))⟩
    · obtain rfl : e = e' := Except.error.inj (told.symm.trans told')
      refine ⟨e, rfl, .inr ⟨real, ?_⟩⟩
      cases blamed.cause e (by simp [driver, Pipeline.Driver.cause?]) with
      | item tells => exact tells
      | panic panicked => exact absurd panicked sane
      | outside => exact absurd rfl real
  · by_cases failing : r₂.pipeline.driver.isFailing = true
    · have takes := (accountable₂ k r₂ found₂).traced.blamed.takes_aborted sane₂ failing untold
      simpa using taken takes answered
    · -- the driver has succeeded, so nobody has failed but the walk
      obtain ⟨count, success⟩ : ∃ count, r₂.pipeline.driver = .finished (.ok count) := by
        cases place : r₂.pipeline.driver with
        | finished own =>
          cases own with
          | ok count => exact ⟨count, rfl⟩
          | error => simp [place, Pipeline.Driver.isFailing] at failing
        | _ => simp [place, Pipeline.Driver.isFailing, Pipeline.Driver.isLooping] at failing left
      obtain ⟨own, e, driver, told, rfl⟩ := ends answered
      have kept := finished_later idle (before.trans after) found₂ success later found₃
      rw [driver] at kept
      cases kept
      cases told
      rfl
  · exact taken (.inl ⟨Pipeline.Driver.isFailing_of_isLooping loops, first⟩) answered
  · obtain ⟨w₄, r₄, result, further, found₄, panics, answered⟩ :=
      comes_to_result idle ((before.trans after).trans later) found₃ here
    exact ⟨w₄, r₄, result, further, found₄, fun panicked => sane (panics panicked), answered⟩

/-- In a run over `brokenWorld` the walk fails, and the flag is raised, while the first record is worked on. -/
def missedActions : List Action :=
  let walks (steps : Nat) : List Action := List.replicate steps (.go (.walker 0))
  let drives (steps : Nat) : List Action := List.replicate steps (.go (.driver 0))
  Action.begin {} exampleStatement exampleTail :: walks 8 ++ [Action.wake 0] ++ drives 4 ++ [Action.go (.item 0 0)] ++ walks 2

/-- Then the signer refuses the first record, and all go on until the run is over. -/
def overtakingActions : List Action :=
  Action.signal 0 0 (.answer .sign (.error (.failed "no key"))) :: List.replicate 6 (.go (.item 0 0)) ++
    List.replicate 7 (Action.go (.driver 0)) ++ List.replicate 2 (Action.go (.walker 0))

/-- When the driver has noticed first that the flag is raised, the run answers the failure of the walk, although the item
then records one of its own. -/
theorem walk_failure_reported_example : ∃ (w₁ w₂ w₃ : World) (r₃ : Run),
    follow (fun _ _ => true) World.step brokenWorld missedActions = some w₁ ∧ w₁.step (.go (.driver 0)) = some w₂ ∧
    follow (fun _ _ => true) World.step w₂ (overtakingActions.eraseIdx 7) = some w₃ ∧ w₃.runs[0]? = some r₃ ∧
    r₃.pipeline.phase? 0 = some (.over (.failed (.transformFailure exampleTail .sign "no key"))) ∧
    r₃.result? = some (.error (.notFound ⟨"older", by decide⟩)) := by
  have possible : (follow (fun _ _ => true) World.step brokenWorld missedActions).any fun (w₁ : World) =>
      (w₁.runs[0]?).any fun (r₁ : Run) => r₁.walker.failure? == some (.notFound ⟨"older", by decide⟩) &&
        (w₁.step (.go (.driver 0))).any fun (w₂ : World) => (w₂.runs[0]?).any fun (r₂ : Run) =>
          (!r₂.pipeline.driver.isLooping && r₂.pipeline.items.all (·.phase.told? == none)) &&
            (follow (fun _ _ => true) World.step w₂ (overtakingActions.eraseIdx 7)).any fun (w₃ : World) =>
              (w₃.runs[0]?).any fun (r₃ : Run) => (r₃.pipeline.items.all (·.phase.ending? != some .panicked) &&
                r₃.result?.isSome) && r₃.pipeline.phase? 0 ==
                  some (.over (.failed (.transformFailure exampleTail .sign "no key"))) := by decide +kernel
  simp only [Option.any_eq_true, Bool.and_eq_true, beq_iff_eq, List.all_eq_true, bne_iff_ne, Bool.not_eq_true',
    Option.isSome_iff_exists] at possible
  obtain ⟨w₁, followed, r₁, found₁, failed, w₂, step, r₂, found₂, ⟨left, untold⟩, w₃, followed', r₃, found₃,
    ⟨sane, result, answered⟩, refused⟩ := possible
  have reach {s t : World} {actions : List Action} (followed : follow (fun _ _ => true) World.step s actions = some t) :
      Reachable (Steps World.step) s t := (reachable_of_follow followed fun _ _ _ => trivial).of_restricted
  obtain ⟨-, reported, -⟩ := walk_failure_reported rfl (reach followed) found₁ failed
    ((Reachable.refl _ _).tail step) found₂ (reach followed') found₃ (Pipeline.sane_of_items sane)
  have none_but_stopped (own : GenerationError) (told : r₂.pipeline.Tells own) : own = .aborted :=
    absurd told (Pipeline.untold_of_items untold own)
  refine ⟨w₁, w₂, w₃, r₃, followed, step, followed', found₃, refused, ?_⟩
  rw [answered, reported left none_but_stopped _ answered]

/-- When the item records its failure before the driver notices that the flag is raised, the run answers it, although
the walk failed first. -/
theorem item_overtakes_walk : ∃ (w₁ w₂ : World) (r₁ r₂ : Run), Reachable (Steps World.step) brokenWorld w₁ ∧
    w₁.runs[0]? = some r₁ ∧ r₁.walker.failure? = some (.notFound ⟨"older", by decide⟩) ∧ r₁.pipeline.raised = true ∧
    (∀ own, ¬ r₁.pipeline.Tells own) ∧ Reachable (Steps World.step) w₁ w₂ ∧ w₂.runs[0]? = some r₂ ∧
    r₂.result? = some (.error (.transformFailure exampleTail .sign "no key")) := by
  have possible : (follow (fun _ _ => true) World.step brokenWorld missedActions).any fun (w₁ : World) =>
      (w₁.runs[0]?).any fun (r₁ : Run) => ((r₁.walker.failure? == some (.notFound ⟨"older", by decide⟩) &&
        r₁.pipeline.raised) && r₁.pipeline.items.all (·.phase.told? == none)) &&
          (follow (fun _ _ => true) World.step w₁ overtakingActions).any fun (w₂ : World) =>
            (w₂.runs[0]?).any fun (r₂ : Run) => r₂.result? == some (.error (.transformFailure exampleTail .sign "no key")) := by decide +kernel
  simp only [Option.any_eq_true, Bool.and_eq_true, beq_iff_eq, List.all_eq_true] at possible
  obtain ⟨w₁, followed, r₁, found₁, ⟨⟨failed, raised⟩, untold⟩, w₂, followed', r₂, found₂, answered⟩ := possible
  have reach {s t : World} {actions : List Action} (followed : follow (fun _ _ => true) World.step s actions = some t) :
      Reachable (Steps World.step) s t := (reachable_of_follow followed fun _ _ _ => trivial).of_restricted
  exact ⟨w₁, w₂, r₁, r₂, reach followed, found₁, failed, raised, Pipeline.untold_of_items untold, reach followed', found₂,
    answered⟩

end World
end ChainArchive
