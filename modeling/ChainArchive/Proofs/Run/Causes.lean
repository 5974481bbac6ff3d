import ChainArchive.Proofs.Pipeline.Causes
import ChainArchive.Proofs.World.Sound

/-!
# What a run fails with

A walk fails by itself when it comes back to a record or when a lookup fails. It
also stops when the pipeline takes nothing more, but then something inside the
pipeline has gone wrong and the pipeline says what. So whatever a run answers
instead of a receipt is the walk's own failure, one that an item came to by
itself, or a panic.
-/

namespace ChainArchive
set_option autoImplicit false

open Archiver (Work)
open Pipeline (Phase Item Moves Coherent Orderly Blame Blamed)

/-! ## The walker -/

namespace Walker

/-- The walk has failed with this. -/
def failure? : Walker → Option GenerationError
  | .walked (.failed cause) | .closing (.failed cause) | .awaiting (.failed cause) => some cause
  | _ => none

/-- The walker may have raised the flag. -/
def mayRaise : Walker → Bool
  | .closing (.failed _) | .awaiting (.failed _) | .leaving | .finished _ | .dropped => true
  | _ => false

/-- The walker still holds the input open. -/
def holdsInput : Walker → Bool
  | .awaiting _ | .leaving | .finished _ | .dropped => false
  | _ => true

/-- The run has been dropped. -/
def isGone : Walker → Bool
  | .leaving | .dropped => true
  | _ => false

theorem isGone_spec {w : Walker} (gone : w.isGone = true) : w.mayRaise = true ∧ w.holdsInput = false := by
  cases w <;> first | exact ⟨rfl, rfl⟩ | cases gone

/-- A walker that was there can have gone there: it does not take back that it raised the flag, that it closed the input
or that it was dropped. -/
structure Before (v w : Walker) : Prop where
  raises : v.mayRaise = true → w.mayRaise = true
  input : w.holdsInput = true → v.holdsInput = true
  gone : v.isGone = true → w.isGone = true

/-- A walker that is there can just have done this to its pipeline. -/
def allows (w : Walker) : Pipeline.Action Work → Bool
  | .complete => !w.holdsInput
  | .abort => w.mayRaise
  | .dropHandle => w.isGone
  | .finishWork .. => false
  | _ => true

end Walker

/-- What a walk fails with by itself: it came back to a record, or the store failed at the record it went to last. -/
inductive WalkFailure (visited : List TransactionId) : GenerationError → Prop
  | revisits {id : TransactionId} : id ∈ visited → WalkFailure visited (.chainCycle id)
  | lookup {id : TransactionId} (cause : StoreError) : visited.getLast? = some id →
      WalkFailure visited (.ofLookup id cause)

/-- The failure is not one of those that only pass between the walker, the pipeline and its items. -/
def GenerationError.Escapes (e : GenerationError) : Prop :=
  e ≠ .aborted ∧ e ≠ .pipelineClosed ∧ ∀ reason, e ≠ .config reason

theorem WalkFailure.escapes {visited : List TransactionId} {cause : GenerationError} (h : WalkFailure visited cause) :
    cause.Escapes := by
  cases h with
  | revisits => simp [GenerationError.Escapes]
  | lookup cause => cases cause <;> simp [GenerationError.Escapes, GenerationError.ofLookup]

theorem Archiver.OwnFailure.escapes {settings : GenerationSettings} {request : ArchivalRequest} {cause : GenerationError}
    (h : Archiver.OwnFailure settings request cause) : cause.Escapes := by
  cases h with
  | transform stage cause => cases cause <;> simp [GenerationError.Escapes, GenerationError.ofTransform]
  | overdue | refused => simp [GenerationError.Escapes]

/-! ## The pipeline of a run -/

/-- Whatever an item of this pipeline fails with, it has come to by itself or has seen the flag. -/
def Pipeline.Owned (settings : GenerationSettings) (p : Pipeline Work) : Prop :=
  ∀ (i : Nat) (item : Item Work) (cause : GenerationError), p.items[i]? = some item →
    item.phase.ending? = some (.failed cause) → cause ≠ .aborted → Archiver.OwnFailure settings item.request cause

/-- What the pipeline of a run keeps true, where `outside` says whether the flag may have been raised from outside. -/
structure Pipeline.Traced (settings : GenerationSettings) (outside : Prop) (p : Pipeline Work) : Prop where
  orderly : p.Orderly
  blamed : p.Blamed outside
  owned : p.Owned settings

namespace Pipeline.Traced

variable {settings : GenerationSettings} {outside outside' : Prop} {p q : Pipeline Work} {action : Action Work}

theorem start {parallelism : Nat} (h : Pipeline.start parallelism = .ok p) : Traced settings outside p := by
  refine ⟨.start h, .start h, ?_⟩
  unfold Pipeline.start at h
  split at h <;> cases h
  simp [Owned]

theorem mono (h : Traced settings outside p) (more : outside → outside') : Traced settings outside' p :=
  { h with blamed := h.blamed.mono more }

theorem step (h : Traced settings outside p) (coherent : Coherent p) (moves : Moves (fun _ => .unstarted) p action q)
    (leave : action = .abort ∨ action = .dropHandle → outside)
    (fails : ∀ i cause, action = .finishWork i (.failed cause) → ∀ request work,
      p.items[i]? = some ⟨request, .working work⟩ → Archiver.Fails settings p.raised request cause) :
    Traced settings outside q := by
  refine ⟨h.orderly.step coherent moves, h.blamed.step coherent h.orderly moves leave ?_, ?_⟩
  · rintro i rfl
    cases moves with
    | finishWork found =>
      obtain ⟨request, inside⟩ := items_of_phase? found
      rcases fails i _ rfl request _ inside with own | ⟨-, raised⟩
      · exact absurd rfl own.escapes.1
      · exact raised
  · intro i item cause inside failed own
    obtain ⟨x, before, moved⟩ | ⟨-, -, begins⟩ := origin_of_moves coherent moves inside
    · cases Phase.ends_of_moved moved failed with
      | inl already => exact h.owned i ⟨item.request, x⟩ cause before already own
      | inr ends =>
        cases ends with
        | own work same =>
          exact (fails i cause same item.request work before).resolve_right fun aborted => own aborted.1
    · obtain is | is | is := begins <;> simp [is, Phase.ending?] at failed

end Pipeline.Traced

/-! ## A run -/

namespace Run

/-- What a run may answer instead of a receipt: the walk's own failure, one that an item has come to by itself and has
recorded, or a panic. -/
inductive RootCause (r : Run) : GenerationError → Prop
  | walk {cause : GenerationError} : WalkFailure r.visited cause → RootCause r cause
  | item {i : Nat} {request : ArchivalRequest} {x : Phase Work} {cause : GenerationError} :
      r.pipeline.items[i]? = some ⟨request, x⟩ → x.told? = some cause →
      Archiver.OwnFailure r.settings request cause → RootCause r cause
  | panic : r.pipeline.Panicked → RootCause r (.internal "task panicked")

/-- The walker's place can be explained. -/
def Explained (r : Run) : Prop :=
  match r.walker with
  | .finding current _ _ => r.visited.getLast? = some current
  | .walked (.failed cause) | .closing (.failed cause) | .awaiting (.failed cause) => WalkFailure r.visited cause
  | .walked .closed | .closing .closed | .awaiting .closed => r.pipeline.Troubled
  | .finished (.error cause) => r.RootCause cause
  | _ => True

/-- What holds of the failures of a run in every state that it can reach. -/
structure Accountable (r : Run) : Prop where
  traced : r.pipeline.Traced r.settings (r.walker.mayRaise = true)
  input : r.walker.holdsInput = true → r.pipeline.inputOpen = true
  abandoned : r.pipeline.abandoned = true → r.walker.isGone = true
  settled : ∀ result, r.walker = .finished result → ∃ own, r.pipeline.driver = .finished own
  explained : r.Explained

variable {outputs : Transforms} {store : Store} {now : Nat} {gated : Bool} {r r' : Run}

/-- Where a walker can go in one step. -/
theorem Walks.before (step : Walks store now gated r r') : r.walker.Before r'.walker := by
  cases step with
  | seesFlag place | revisits place | asks place | finds place | misses place | calls place | resumes place
  | unwinds place | isRefused place | goesOn place | reachesHead place | aborts place | closes place =>
    rw [place]
    exact ⟨nofun, fun _ => rfl, nofun⟩
  | @completes outcome place =>
    rw [place]
    exact ⟨by cases outcome <;> exact id, nofun, nofun⟩
  | @ends outcome result place =>
    rw [place]
    cases outcome.result result <;> exact ⟨fun _ => rfl, nofun, nofun⟩
  | withdraws | leaves | drops => exact ⟨fun _ => rfl, nofun, fun _ => rfl⟩

/-- A walker gets its result only from its pipeline. -/
theorem Walks.finished (step : Walks store now gated r r') {result : Except GenerationError Receipt}
    (finished : r'.walker = .finished result) :
    ∃ outcome own, r.walker = .awaiting outcome ∧ r.pipeline.driver = .finished own ∧
      result = (outcome.result own).map fun archived => ⟨r.statement, archived⟩ := by
  cases step with
  | @ends outcome own place driver =>
    refine ⟨outcome, own, place, driver, ?_⟩
    cases told : outcome.result own <;> simp only [told, finish, goTo, say, Walker.finished.injEq] at finished <;>
      rw [← finished] <;> rfl
  | _ => cases finished

theorem RootCause.escapes {cause : GenerationError} (h : r.RootCause cause) : cause.Escapes := by
  cases h with
  | walk own => exact own.escapes
  | item _ _ own => exact own.escapes
  | panic => simp [GenerationError.Escapes]

/-- Items and the driver do not change what a run can be put down to. -/
theorem RootCause.inner {cause : GenerationError} {action : Pipeline.Action Work} (h : r.RootCause cause)
    (coherent : r.pipeline.Coherent) (step : r.Inner action r') : r'.RootCause cause := by
  cases h with
  | walk own => exact .walk (step.visited ▸ own)
  | item inside told own =>
    obtain ⟨y, now, moved⟩ := Pipeline.moved_of_moves coherent step.moves inside
    exact .item now (Phase.told?_of_moved moved told) (step.settings ▸ own)
  | panic panicked => exact .panic (panicked.moves coherent step.moves)

namespace Accountable

theorem begin {settings : GenerationSettings} {statement : StatementId} {last : TransactionId}
    (h : Run.begin settings statement last = .ok r) : Accountable r := by
  unfold Run.begin at h
  cases started : Pipeline.start (σ := Work) settings.parallelism with
  | error cause => simp [started, Except.map] at h
  | ok p =>
    simp only [started, Except.map, Except.ok.injEq] at h
    subst h
    refine ⟨.start started, fun _ => ?_, fun abandoned => ?_, by simp, trivial⟩ <;> unfold Pipeline.start at started <;>
      split at started <;> cases started
    · rfl
    · cases abandoned

/-- What the pipeline can be put down to is a root cause of the run, if it was not aborted. -/
theorem root_of_blame {outside : Prop} {cause : GenerationError} (h : Accountable r)
    (blame : Blame outside r.pipeline cause) (other : cause ≠ .aborted) : r.RootCause cause := by
  cases blame with
  | item tells own =>
    obtain ⟨i, x, found, told⟩ := tells
    obtain ⟨request, inside⟩ := Pipeline.items_of_phase? found
    exact .item inside told (h.traced.owned i ⟨request, x⟩ _ inside (Phase.ending?_of_told? told) own)
  | panic panicked => exact .panic panicked
  | outside => exact absurd rfl other

/-- What the driver fails with is a root cause, if the flag has not been raised from outside. -/
theorem root_of_driver {cause : GenerationError} (h : Accountable r) (quiet : r.walker.mayRaise = false)
    (failed : r.pipeline.driver = .finished (.error cause)) : r.RootCause cause := by
  have blame := h.traced.blamed.cause cause (by simp [failed, Pipeline.Driver.cause?])
  cases blame with
  | item tells own => exact h.root_of_blame (show Blame False r.pipeline cause from .item tells own) own
  | panic panicked => exact .panic panicked
  | outside raised => simp [quiet] at raised

/-- The walker goes elsewhere and leaves the pipeline alone. -/
theorem goesTo (h : Accountable r) (pipeline : r'.pipeline = r.pipeline) (settings : r'.settings = r.settings)
    (before : r.walker.Before r'.walker)
    (settled : ∀ result, r'.walker = .finished result → ∃ own, r.pipeline.driver = .finished own)
    (explained : r'.Explained) : Accountable r' := by
  refine ⟨?_, ?_, ?_, ?_, explained⟩ <;> rw [pipeline]
  · rw [settings]
    exact h.traced.mono before.raises
  · exact fun holds => h.input (before.input holds)
  · exact fun abandoned => before.gone (h.abandoned abandoned)
  · exact settled

/-- The walker takes a step of the pipeline. -/
theorem takes {action : Pipeline.Action Work} (h : Accountable r) (coherent : r.pipeline.Coherent)
    (moves : Moves (fun _ => .unstarted) r.pipeline action r'.pipeline) (settings : r'.settings = r.settings)
    (before : r.walker.Before r'.walker) (allowed : r'.walker.allows action = true)
    (settled : ∀ result, r'.walker = .finished result → ∃ own, r.pipeline.driver = .finished own)
    (explained : r'.Explained) : Accountable r' := by
  refine ⟨?_, fun holds => ?_, fun abandoned => ?_, fun result finished => ?_, explained⟩
  · rw [settings]
    refine (h.traced.mono before.raises).step coherent moves ?_ ?_
    · rintro (rfl | rfl)
      · exact allowed
      · exact (Walker.isGone_spec allowed).1
    · rintro i cause rfl
      cases allowed
  · rw [Pipeline.inputOpen_of_moves moves]
    · exact h.input (before.input holds)
    · rintro rfl
      simp [Walker.allows, holds] at allowed
    · rintro rfl
      simp [(Walker.isGone_spec allowed).2] at holds
  · by_cases drops : action = .dropHandle
    · subst drops
      exact allowed
    · rw [Pipeline.abandoned_of_moves moves drops] at abandoned
      exact before.gone (h.abandoned abandoned)
  · obtain ⟨own, driver⟩ := settled result finished
    exact ⟨own, Pipeline.driver_of_moves moves driver⟩

/-- An item or the driver takes a step. -/
theorem inner {action : Pipeline.Action Work} (h : Accountable r) (coherent : r.pipeline.Coherent)
    (step : r.Inner action r')
    (fails : ∀ i cause, action = .finishWork i (.failed cause) → ∀ request work, r.work? i = some (request, work) →
      Archiver.Fails r.settings r.pipeline.raised request cause) : Accountable r' := by
  have moves := step.moves
  have isInner := step.inner
  refine ⟨?_, fun holds => ?_, fun abandoned => ?_, fun result finished => ?_, ?_⟩
  · rw [step.settings, step.walker]
    refine h.traced.step coherent moves ?_ fun i cause same request work inside => ?_
    · rintro (rfl | rfl) <;> cases isInner
    · exact fails i cause same request work (by simp only [work?, inside])
  · rw [step.walker] at holds
    rw [Pipeline.inputOpen_of_moves moves (by rintro rfl; cases isInner) (by rintro rfl; cases isInner)]
    exact h.input holds
  · rw [step.walker]
    rw [Pipeline.abandoned_of_moves moves (by rintro rfl; cases isInner)] at abandoned
    exact h.abandoned abandoned
  · rw [step.walker] at finished
    obtain ⟨own, driver⟩ := h.settled result finished
    exact ⟨own, Pipeline.driver_of_moves moves driver⟩
  · have place := h.explained
    unfold Explained at place ⊢
    rw [step.walker, step.visited]
    split at place
    · exact place
    · exact place
    · exact place
    · exact place
    · exact place.moves coherent moves
    · exact place.moves coherent moves
    · exact place.moves coherent moves
    · exact place.inner coherent step
    · trivial

/-- The store fails at the record that the walker went to. -/
theorem fails (h : Accountable r) {current : TransactionId} {asked : Nat} {answering : Bool}
    (place : r.walker = .finding current asked answering) (cause : StoreError) :
    Accountable (r.find current (.error cause)) := by
  have last := h.explained
  simp only [Explained, place] at last
  have before : r.walker.Before (r.find current (.error cause)).walker := by
    rw [place]
    exact ⟨nofun, fun _ => rfl, nofun⟩
  exact h.goesTo rfl rfl before (by simp [find, goTo]) (WalkFailure.lookup cause last)

/-- If the pipeline has refused an item while the input was open, something has gone wrong inside. -/
theorem troubled_of_refused (h : Accountable r) {item : Nat} {previous : Option TransactionId}
    (place : r.walker = .enqueueing item previous) (refused : r.pipeline.accepted? item = some false) :
    r.pipeline.Troubled := by
  have isOpen : r.pipeline.inputOpen = true := h.input (by rw [place]; rfl)
  have closed := h.traced.orderly.unwanted item _ (Pipeline.phase?_of_refused refused) (.inl rfl)
  apply h.traced.blamed.closed
  exact closed.resolve_left (by simp [isOpen])

/-- A pipeline that has gone wrong does not succeed. -/
theorem not_ok_of_troubled (coherent : r.pipeline.Coherent) (troubled : r.pipeline.Troubled) {count : Nat} :
    r.pipeline.driver ≠ .finished (.ok count) := by
  intro success
  rcases troubled with failing | ⟨cause, i, x, found, told⟩
  · simp [success, Pipeline.Driver.isFailing] at failing
  · obtain rfl | rfl | rfl := (coherent.over_of_success success).2 i x found <;> cases told

/-- The run ends with a receipt or with a root cause. -/
theorem root_of_result (h : Accountable r) (coherent : r.pipeline.Coherent) {outcome : WalkEnd}
    {result : Except GenerationError Nat} {cause : GenerationError} (place : r.walker = .awaiting outcome)
    (finished : r.pipeline.driver = .finished result) (failed : outcome.result result = .error cause) :
    r.RootCause cause := by
  have explained := h.explained
  simp only [Explained, place] at explained
  cases outcome with
  | complete =>
    simp only [WalkEnd.result] at failed
    exact h.root_of_driver (by rw [place]; rfl) (failed ▸ finished)
  | closed =>
    cases result with
    | ok count => exact absurd finished (not_ok_of_troubled coherent explained)
    | error own =>
      cases failed
      exact h.root_of_driver (by rw [place]; rfl) finished
  | failed own =>
    cases result with
    | ok count =>
      cases failed
      exact .walk explained
    | error other =>
      simp only [WalkEnd.result] at failed
      split at failed <;> cases failed
      · exact .walk explained
      · next real =>
        exact h.root_of_blame (h.traced.blamed.cause _ (by simp [finished, Pipeline.Driver.cause?])) real

theorem walks (h : Accountable r) (sound : r.Sound) (step : Walks store now gated r r') : Accountable r' := by
  have coherent := sound.coherent
  have explained := h.explained
  have before := step.before
  have settled : ∀ result, r'.walker = .finished result → ∃ own, r.pipeline.driver = .finished own := by
    intro result finished
    obtain ⟨_, own, -, driver, -⟩ := step.finished finished
    exact ⟨own, driver⟩
  cases step with
  | seesFlag place raised =>
    refine h.goesTo rfl rfl before settled ?_
    exact (h.traced.blamed.raised raised).resolve_left (by simp [place, Walker.mayRaise])
  | revisits place _ member => exact h.goesTo rfl rfl before settled (WalkFailure.revisits member)
  | asks => exact h.goesTo rfl rfl before settled (by simp [Explained])
  | finds => exact h.goesTo rfl rfl before settled trivial
  | misses place => exact h.fails place _
  | @calls t =>
    exact h.takes coherent (Pipeline.moves_call ⟨r.statement, r.visited.length, t⟩) rfl before rfl settled trivial
  | resumes _ _ resumed =>
    exact h.takes coherent (Pipeline.moves_of_resume resumed) rfl before rfl settled trivial
  | unwinds _ _ unwound =>
    exact h.takes coherent (Pipeline.moves_of_unwind unwound) rfl before rfl settled trivial
  | isRefused place refused => exact h.goesTo rfl rfl before settled (h.troubled_of_refused place refused)
  | goesOn | reachesHead => exact h.goesTo rfl rfl before settled trivial
  | @aborts cause place =>
    simp only [Explained, place] at explained
    exact h.takes coherent .abort rfl before rfl settled explained
  | @closes outcome place other =>
    simp only [Explained, place] at explained
    cases outcome with
    | failed cause => exact absurd rfl (other cause)
    | complete | closed => exact h.goesTo rfl rfl before settled explained
  | @completes outcome place =>
    have quiet : r.pipeline.NoneCalling := sound.positioned.noneCalling (by simp [place]) (by simp [place])
    have moves : Moves (fun _ => Work.unstarted) r.pipeline .complete r.pipeline.complete :=
      .complete (Pipeline.isCalling_eq_false_iff.2 quiet)
    simp only [Explained, place] at explained
    refine h.takes coherent moves rfl before rfl settled ?_
    cases outcome with
    | complete => trivial
    | closed => exact explained.moves coherent moves
    | failed cause => exact explained
  | @ends outcome result place finished =>
    cases failed : outcome.result result with
    | ok count => exact h.goesTo rfl rfl (failed ▸ before) (fun _ _ => ⟨result, finished⟩) trivial
    | error cause =>
      refine h.goesTo rfl rfl (failed ▸ before) (fun _ _ => ⟨result, finished⟩) ?_
      cases h.root_of_result coherent place finished failed with
      | walk own => exact .walk own
      | item inside told own => exact .item inside told own
      | panic panicked => exact .panic panicked
  | withdraws _ withdrawn =>
    exact h.takes coherent (Pipeline.moves_of_withdraw withdrawn) rfl before rfl settled trivial
  | leaves _ unwound =>
    exact h.takes coherent (Pipeline.moves_of_unwind unwound) rfl before rfl settled trivial
  | drops _ nobody => exact h.takes coherent (.dropHandle nobody) rfl before rfl settled trivial

/-- A step of a run without the store keeps it accountable. -/
theorem step (h : Accountable r) (sound : r.Sound) (step : r.Step outputs store now gated r') : Accountable r' := by
  cases step with
  | walk walked => exact h.walks sound (walks_of_walk walked)
  | inner step _ _ fails => exact h.inner sound.coherent step fails
  | @proceed current asked place =>
    have last := h.explained
    simp only [Explained, place] at last
    have before : r.walker.Before (.finding current asked true) := by
      rw [place]
      exact ⟨nofun, fun _ => rfl, nofun⟩
    exact h.goesTo rfl rfl before (by simp [goTo]) last
  | refuse cause place => exact h.fails place cause
  | drop => exact h.goesTo rfl rfl ⟨fun _ => rfl, nofun, fun _ => rfl⟩ (by simp [goTo]) trivial

end Accountable
end Run
end ChainArchive
