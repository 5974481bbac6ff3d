import ChainArchive.Proofs.Pipeline.Progress
import ChainArchive.Proofs.World.Causes

/-!
# How a failed run comes to its end

Once an item of a run has recorded a failure, the run can always come to its
end, unless it is dropped: whatever the store, the transforms and the other runs
do, its own items, its driver and its walker can go on, and every step that they
take here brings it nearer to its end.
-/

namespace ChainArchive
set_option autoImplicit false

open Archiver (Work)

/-! ## Steps towards the end -/

/-- How far the walker of a failed run is from its end. -/
def Walker.rank : Walker → Nat
  | .finding _ _ false => 9
  | .finding _ _ true => 8
  | .resolved _ => 7
  | .enqueueing .. => 6
  | .checking _ => 5
  | .walked _ => 4
  | .closing _ => 3
  | .awaiting _ => 2
  | .leaving => 1
  | .finished _ | .dropped => 0

namespace Run

/-- How far a failed run is from its end. A walker that goes on may call for one more item. -/
def rank (r : Run) : Nat × Nat := (r.walker.rank, r.pipeline.distance)

/-- The run comes nearer to its end; it is not dropped, and no item panics. -/
structure Nears (r r' : Run) : Prop where
  here : r'.walker.isGone = false
  sane : r'.pipeline.Panicked → r.pipeline.Panicked
  nearer : WellFoundedRelation.rel r'.rank r.rank

variable {store : Store} {now : Nat} {gated : Bool} {r r' : Run}

theorem rank_lt_of_pipeline (walker : r'.walker = r.walker) (closer : r'.pipeline.distance < r.pipeline.distance) :
    WellFoundedRelation.rel r'.rank r.rank := by
  unfold rank
  rw [walker]
  exact Prod.Lex.right _ closer

theorem rank_lt_of_walker (lower : r'.walker.rank < r.walker.rank) : WellFoundedRelation.rel r'.rank r.rank :=
  Prod.Lex.left _ _ lower

/-- An item or the driver of the run takes a step. -/
theorem Nears.inner {action : Pipeline.Action Work} (here : r.walker.isGone = false) (coherent : r.pipeline.Coherent)
    (walker : r'.walker = r.walker) (moves : Pipeline.Moves (fun _ => .unstarted) r.pipeline action r'.pipeline)
    (other : ∀ i, action ≠ .finishWork i .panicked) (closer : r'.pipeline.distance < r.pipeline.distance) :
    r.Nears r' :=
  ⟨walker ▸ here, Pipeline.panicked_of_moves coherent moves other, rank_lt_of_pipeline walker closer⟩

/-- An item of the run goes on. -/
theorem Nears.item {action : Pipeline.Action Work} {i : Nat} (here : r.walker.isGone = false) (sound : r.Sound)
    (step : r.Inner action r') (own : action.item? = some i) (other : action ≠ .finishWork i .panicked) :
    r.Nears r' := by
  have closer := Pipeline.distance_lt_of_item sound.coherent step.moves own
  refine .inner here sound.coherent step.walker step.moves ?_ closer
  rintro j rfl
  cases own
  exact other rfl

/-- The walker takes a step after the flag was raised. -/
theorem Nears.walks (here : r.walker.isGone = false) (sound : r.Sound) (raised : r.pipeline.raised = true)
    (step : Walks store now gated r r') : r.Nears r' := by
  have sane : r'.pipeline.Panicked → r.pipeline.Panicked := by
    obtain ⟨-, same | ⟨action, other, moves⟩⟩ := step.pipeline sound
    · rw [same]
      exact id
    · refine Pipeline.panicked_of_moves sound.coherent moves ?_
      rintro i rfl
      cases other
  cases step with
  | seesFlag place | finds place | misses place | calls place | isRefused place | goesOn place | reachesHead place
  | aborts place | closes place | completes place =>
    exact ⟨rfl, sane, rank_lt_of_walker (by simp [place, goTo, find, say, enqueue, Walker.rank])⟩
  | revisits _ calm | asks _ calm => simp [raised] at calm
  | resumes place _ resumed =>
    have moves : Pipeline.Moves (fun _ => Work.unstarted) _ _ _ := Pipeline.moves_of_resume resumed
    exact ⟨rfl, sane, rank_lt_of_pipeline place.symm (Pipeline.distance_lt_of_item sound.coherent moves rfl)⟩
  | unwinds place _ unwound =>
    have moves : Pipeline.Moves (fun _ => Work.unstarted) _ _ _ := Pipeline.moves_of_unwind unwound
    exact ⟨rfl, sane, rank_lt_of_pipeline place.symm (Pipeline.distance_lt_of_item sound.coherent moves rfl)⟩
  | @ends outcome own place =>
    cases own : outcome.result own <;> rw [own] at sane <;>
      exact ⟨rfl, sane, rank_lt_of_walker (by simp [place, finish, goTo, say, Walker.rank])⟩
  | withdraws place | leaves place | drops place => simp [place, Walker.isGone] at here

/-- The walker can go on when the pipeline has come to its end, unless the store does not answer. -/
theorem walk_goes_on (here : r.walker.isGone = false) (sound : r.Sound) (unfinished : r.result? = none)
    (answered : ∀ current asked, r.walker ≠ .finding current asked false) {own : Except GenerationError Nat}
    (driver : r.pipeline.driver = .finished own) (budget : r.pipeline.budgetClosed = true)
    (queue : r.pipeline.queueClosed = true) : ∃ r', r.walk store now gated = some r' := by
  have positioned := sound.positioned
  unfold walk
  cases place : r.walker with
  | checking | resolved | closing => exact ⟨_, rfl⟩
  | finding current asked answering =>
    cases answering with
    | true => exact ⟨_, rfl⟩
    | false => exact absurd place (answered current asked)
  | enqueueing item previous =>
    simp only [Positioned, place] at positioned
    obtain ⟨-, length, -⟩ := positioned
    simp only
    cases pending : r.pipeline.accepted? item with
    | none =>
      have inside := List.getElem?_eq_getElem (l := r.pipeline.items) (i := item) (by omega)
      obtain ⟨q, goes⟩ := Pipeline.call_goes_on (Pipeline.phase?_of_items inside) pending budget queue
      exact ⟨_, by rw [goes]; rfl⟩
    | some accepted =>
      cases accepted with
      | false => exact ⟨_, rfl⟩
      | true => cases previous <;> exact ⟨_, rfl⟩
  | walked outcome => cases outcome <;> exact ⟨_, rfl⟩
  | awaiting outcome => exact ⟨_, by simp only [driver]; rfl⟩
  | finished result => simp [result?, place] at unfinished
  | leaving | dropped => simp [place, Walker.isGone] at here

end Run

namespace World

variable {w : World} {k i : Nat} {r r' : Run}

/-- The world can take a step with which this run comes nearer to its end. -/
def Nears (w : World) (k : Nat) (r : Run) : Prop :=
  ∃ action v r', w.step action = some v ∧ v.runs[k]? = some r' ∧ r.Nears r'

theorem nears_of_onRun {f : Run → Option Run} (found : w.runs[k]? = some r) (action : Action)
    (is : w.step action = w.onRun k f) (step : f r = some r') (nears : r.Nears r') : w.Nears k r := by
  refine ⟨action, w.setRun k r', r', ?_, runs_setRun_self found, nears⟩
  rw [is, onRun, found]
  simp [step]

theorem nears_of_advanceItem {store : Store} (found : w.runs[k]? = some r)
    (step : r.advanceItem w.store w.now w.gated i = some (store, r')) (nears : r.Nears r') : w.Nears k r := by
  refine ⟨.go (.item k i), { w.setRun k r' with store }, r', ?_, runs_setRun_self found, nears⟩
  simp [World.step, advance, found, step]

/-- An item on its way out goes on. -/
theorem nears_of_isLeaving (found : w.runs[k]? = some r) (here : r.walker.isGone = false) (sound : r.Sound)
    {x : Pipeline.Phase Work} (inside : r.pipeline.phase? i = some x) (leaving : x.isLeaving = true) : w.Nears k r := by
  obtain ⟨q, unwound⟩ := Pipeline.unwind_of_isLeaving inside leaving
  have idle : r.work? i = none := by
    rw [Option.eq_none_iff_forall_ne_some]
    rintro ⟨request, work⟩ busy
    rw [Run.phase?_of_work? busy, Option.some.injEq] at inside
    subst inside
    cases leaving
  have step : r.advanceItem w.store w.now w.gated i = some (w.store, { r with pipeline := q }) := by
    simp only [Run.advanceItem, idle, unwound, Option.map_some]
  have inner : r.Inner (.unwind i) { r with pipeline := q } :=
    ⟨rfl, rfl, rfl, rfl, rfl, Pipeline.moves_of_unwind unwound⟩
  exact nears_of_advanceItem found step (.item here sound inner rfl (by simp))

/-- An item at work is stopped, or ends with its relocation. -/
theorem nears_of_working (found : w.runs[k]? = some r) (here : r.walker.isGone = false) (sound : r.Sound) {work : Work}
    (inside : r.pipeline.phase? i = some (.working work)) (told : r.pipeline.cancelling = true) : w.Nears k r := by
  obtain ⟨request, there⟩ := Pipeline.items_of_phase? inside
  have busy : r.work? i = some (request, work) := by simp only [Run.work?, there]
  cases suspended : work.isSuspended with
  | true =>
    have inner : r.Inner (.cancelWork i) (r.apply i ⟨.ended .cancelled, []⟩) :=
      Run.inner_cancelWork (n := r.relocations) busy rfl told
    refine nears_of_onRun found (.signal k i .cancel) rfl ?_ (.item here sound inner rfl (by simp))
    simp [Run.signal, busy, told, Archiver.receive, suspended]
  | false =>
    cases work with
    | unstarted | transforming => cases suspended
    | storing start asked record answering =>
      obtain rfl : answering = true := by simpa [Work.isSuspended] using suspended
      -- the store takes the record or refuses it; either way the work has ended
      obtain ⟨ending, next, own, calm⟩ : ∃ ending, (Archiver.relocate w.store request record).2.next = .ended ending ∧
          ending.isOfWork = true ∧ ending ≠ .panicked := by
        unfold Archiver.relocate
        dsimp only
        split
        · exact ⟨.done, rfl, rfl, by simp⟩
        · exact ⟨_, rfl, rfl, by simp⟩
      have inner : r.Inner (.finishWork i ending) (r.apply i (Archiver.relocate w.store request record).2) :=
        Run.inner_finishWork (n := r.relocations) busy next own
      have step : r.advanceItem w.store w.now w.gated i = some ((Archiver.relocate w.store request record).1,
          r.apply i (Archiver.relocate w.store request record).2) := by
        simp [Run.advanceItem, busy, Archiver.advance, Archiver.Effect.submits, next]
      exact nears_of_advanceItem found step (.item here sound inner rfl (by simpa using calm))

/-- A run in which a failure has been recorded can go on until it is over: its items and its driver first, then its
walker. -/
theorem nears_of_told (found : w.runs[k]? = some r) (here : r.walker.isGone = false) (sound : r.Sound)
    (accountable : r.Accountable) (unfinished : r.result? = none) {cause : GenerationError}
    (told : r.pipeline.Tells cause) : w.Nears k r := by
  have coherent := sound.coherent
  have signals := accountable.traced.orderly.signals
  by_cases leaving : ∃ i x, r.pipeline.phase? i = some x ∧ x.isLeaving = true
  · obtain ⟨i, x, inside, leaving⟩ := leaving
    exact nears_of_isLeaving found here sound inside leaving
  push Not at leaving
  have still : ∀ i x, r.pipeline.phase? i = some x → x.isLeaving = false := fun i x inside => by
    simpa using leaving i x inside
  cases going : r.pipeline.isSettled with
  | false =>
    obtain ⟨q, woken | drive, closer⟩ | ⟨⟨own, state⟩, i, work, inside⟩ :=
      Pipeline.driver_goes_on (fun _ => Work.unstarted) coherent told still going
    · have nears : r.Nears { r with pipeline := q } :=
        .inner here coherent rfl (Pipeline.moves_of_wake woken) (by simp) closer
      exact nears_of_onRun found (.wake k) rfl (by rw [woken]; rfl) nears
    · have nears : r.Nears { r with pipeline := q } :=
        .inner here coherent rfl (Pipeline.moves_of_drive drive) (by simp) closer
      exact nears_of_onRun found (.go (.driver k)) rfl (by rw [Run.drive, drive]; rfl) nears
    · refine nears_of_working found here sound inside (signals.stopping ?_)
      simp [Pipeline.signals, state, Pipeline.Driver.measures]
  | true =>
    -- the driver has failed, so everything is closed
    obtain ⟨own, driver⟩ : ∃ own, r.pipeline.driver = .finished (.error own) := by
      obtain ⟨result, driver⟩ | dropped := Pipeline.driver_of_isSettled going
      · cases result with
        | error own => exact ⟨own, driver⟩
        | ok count => exact absurd driver (Run.Accountable.not_ok_of_troubled coherent (.inr ⟨cause, told⟩))
      · have gone := accountable.abandoned (signals.dropped dropped)
        simp [here] at gone
    have done : r.pipeline.signals.driver.measures = 4 := by
      simp only [Pipeline.signals, driver, Pipeline.Driver.measures]
    have raised : r.pipeline.raised = true := signals.raised (by omega)
    by_cases asked : ∃ current asked, r.walker = .finding current asked false
    · obtain ⟨current, asked, place⟩ := asked
      have nears : r.Nears (r.goTo (.finding current asked true)) :=
        ⟨rfl, id, Run.rank_lt_of_walker (by simp [place, Run.goTo, Walker.rank])⟩
      exact nears_of_onRun found (.proceedLookup k) rfl (by simp only [place]) nears
    · push Not at asked
      obtain ⟨r', walked⟩ : ∃ r', r.walk w.store w.now w.gated = some r' :=
        Run.walk_goes_on here sound unfinished asked driver (signals.shut (by omega)) (signals.closed (by omega))
      exact nears_of_onRun found (.go (.walker k)) rfl walked (.walks here sound raised (Run.walks_of_walk walked))

/-- A run of this world has recorded a failure; it was not dropped, and no item of it has panicked. -/
structure Failing (k : Nat) (w : World) : Prop where
  sound : w.Sound fun _ _ _ => True
  accountable : w.Accountable
  run : ∃ r, w.runs[k]? = some r ∧ r.walker.isGone = false ∧ ¬ r.pipeline.Panicked ∧ ∃ cause, r.pipeline.Tells cause

/-- Such a run can come to its end, without being dropped and without a panic. -/
theorem Failing.comes_to_end (h : Failing k w) :
    ∃ v, Reachable (Steps World.step) w v ∧ Failing k v ∧ ∀ r, v.runs[k]? = some r → r.result? ≠ none := by
  refine Reachable.of_descent (fun w => (w.runs[k]?).elim (0, 0) Run.rank) ?_ w h
  rintro w ⟨sound, accountable, r, found, here, sane, cause, told⟩ going
  have unfinished : r.result? = none := by
    by_contra finished
    exact going fun r' found' => Option.some.inj (found.symm.trans found') ▸ finished
  obtain ⟨action, v, r', step, found', nears⟩ :=
    nears_of_told found here (sound k r found).1 (accountable k r found) unfinished told
  have change := sound.change_of_any_step step
  have told' : r'.pipeline.Tells cause := by
    obtain ⟨old, before, rfl | goes⟩ | ⟨beyond, -⟩ := change.origin found'
    · rwa [Option.some.inj (found.symm.trans before)] at told
    · obtain rfl := Option.some.inj (found.symm.trans before)
      rcases goes.pipeline (sound k r found).1 with same | ⟨_, moves⟩
      · rwa [same]
      · exact told.moves (sound k r found).1.coherent moves
    · exact absurd (List.getElem?_eq_some_iff.1 found).1 (by simp [beyond])
  have sane' : ¬ r'.pipeline.Panicked := fun panicked => sane (nears.sane panicked)
  refine ⟨action, v, step, ⟨sound.change change, accountable.change sound change, r', found', nears.here, sane', cause,
    told'⟩, ?_⟩
  simpa [found, found'] using nears.nearer

end World
end ChainArchive
