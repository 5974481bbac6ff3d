import ChainArchive.Proofs.Pipeline.Items
import ChainArchive.World

/-!
# What a step of a world can be

The work on an item, a run and a world, each with the ways in which it can go
on. A run takes nearly all of its steps without the store; the one exception is
the item whose record the store takes, and with it the world's step is the
store's relocation.
-/

namespace ChainArchive
set_option autoImplicit false

open Archiver (Work Effect Next Signal)

/-! ## The work on an item -/

/-- What each transform may answer for a payload. -/
abbrev Transforms := TransformStage → Bytes → Bytes → Prop

/-- The record is what the request was to become. -/
structure RecordOf (outputs : Transforms) (request : ArchivalRequest) (record : ArchivedTransaction) : Prop where
  statement : record.statement = request.statement
  id : record.id = request.transaction.id
  number : record.number = request.number
  compressed : outputs .compress request.transaction.payload record.compressed
  signature : outputs .sign request.transaction.payload record.signature

namespace Archiver

/-- The results that the work has are those of its own payload. -/
def Work.Faithful (outputs : Transforms) (request : ArchivalRequest) : Work → Prop
  | .unstarted => True
  | .transforming _ compressed signature =>
    (∀ octets, compressed = some octets → outputs .compress request.transaction.payload octets) ∧
      ∀ octets, signature = some octets → outputs .sign request.transaction.payload octets
  | .storing _ _ record _ => RecordOf outputs request record

/-- What the work on a request fails with by its own transform, its own timeout or its own relocation. -/
inductive OwnFailure (settings : GenerationSettings) (request : ArchivalRequest) : GenerationError → Prop
  | transform (stage : TransformStage) (cause : TransformError) :
      OwnFailure settings request (.ofTransform request.transaction.id stage cause)
  | overdue : OwnFailure settings request (.itemTimeout request.transaction.id settings.itemTimeout.millisWord)
  | refused (cause : StoreError) : OwnFailure settings request (.storageFailure request.transaction.id cause.message)

/-- The work on a request can fail with this: by itself, or because it saw the flag. -/
def Fails (settings : GenerationSettings) (raised : Bool) (request : ArchivalRequest) (cause : GenerationError) : Prop :=
  OwnFailure settings request cause ∨ cause = .aborted ∧ raised = true

/-- The work goes on with results of its own payload, or has ended without a record. -/
inductive Next.Harmless (outputs : Transforms) (settings : GenerationSettings) (raised : Bool)
    (request : ArchivalRequest) : Next → Prop
  | working {work : Work} : work.Faithful outputs request → Harmless outputs settings raised request (.working work)
  | failed {cause : GenerationError} : Fails settings raised request cause →
      Harmless outputs settings raised request (.ended (.failed cause))
  | panicked : Harmless outputs settings raised request (.ended .panicked)
  | cancelled : Harmless outputs settings raised request (.ended .cancelled)

variable {outputs : Transforms} {settings : GenerationSettings} {raised : Bool} {request : ArchivalRequest} {work : Work}
  {effect : Effect}

theorem answer_harmless {stage : TransformStage} {result : Except TransformError Bytes}
    (h : answer request stage result work = some effect) (faithful : work.Faithful outputs request)
    (answers : ∀ octets, result = .ok octets → outputs stage request.transaction.payload octets) :
    effect.next.Harmless outputs settings raised request := by
  unfold answer at h
  cases work with
  | transforming start compressed signature =>
    simp only at h
    split at h
    · cases h
    · cases h; exact .failed (.inl (.transform _ _))
    · cases h; exact .working ⟨by rintro _ ⟨⟩; exact answers _ rfl, faithful.2⟩
    · cases h; exact .working ⟨faithful.1, by rintro _ ⟨⟩; exact answers _ rfl⟩
  | _ => cases h

theorem receive_harmless {s : Signal} (h : receive settings request work s = some effect)
    (faithful : work.Faithful outputs request)
    (answers : ∀ stage octets, s = .answer stage (.ok octets) → outputs stage request.transaction.payload octets) :
    effect.next.Harmless outputs settings raised request := by
  cases s with
  | answer stage result => exact answer_harmless h faithful fun octets ok => answers stage octets (by rw [ok])
  | expire =>
    simp only [receive, Option.ite_none_right_eq_some, Option.some.injEq] at h
    obtain ⟨-, rfl⟩ := h
    exact .failed (.inl .overdue)
  | proceed =>
    simp only [receive] at h
    split at h
    · cases h; exact .working faithful
    · cases h
  | refuse cause =>
    simp only [receive] at h
    split at h
    · cases h; exact .failed (.inl (.refused cause))
    · cases h
  | crash =>
    simp only [receive, Option.ite_none_right_eq_some, Option.some.injEq] at h
    obtain ⟨-, rfl⟩ := h
    exact .panicked
  | cancel =>
    simp only [receive, Option.ite_none_right_eq_some, Option.some.injEq] at h
    obtain ⟨-, rfl⟩ := h
    exact .cancelled

/-- Only a signal to stop ends the work as cancelled. -/
theorem cancel_of_receive {s : Signal} (h : receive settings request work s = some effect)
    (cancelled : effect.next = .ended .cancelled) : s = .cancel := by
  cases s with
  | cancel => rfl
  | answer stage result =>
    simp only [receive, answer] at h
    split at h
    · split at h <;> cases h <;> cases cancelled
    · cases h
  | proceed | refuse =>
    simp only [receive] at h
    split at h
    · cases h; cases cancelled
    · cases h
  | expire | crash =>
    simp only [receive, Option.ite_none_right_eq_some, Option.some.injEq] at h
    obtain ⟨-, rfl⟩ := h
    cases cancelled

/-- The work goes on by itself without the store, or the store takes its record and it is done. -/
theorem advance_cases {store after : Store} {now : Nat} {gated : Bool}
    (h : advance store now raised gated request work = some (after, effect)) (faithful : work.Faithful outputs request) :
    (after = store ∧ effect.next.Harmless outputs settings raised request ∧ effect.next ≠ .ended .cancelled) ∨
      (∃ start asked record, work = .storing start asked record true ∧
        store.relocate record request.transaction.id = .ok after ∧ effect.next = .ended .done) := by
  unfold advance at h
  split at h
  · cases h; exact .inl ⟨rfl, .working ⟨by simp, by simp⟩, by simp [begin]⟩
  · next start compressed signature =>
    cases h
    unfold submit
    split
    · next raised => exact .inl ⟨rfl, .failed (.inr ⟨rfl, raised⟩), by simp [Effect.fail]⟩
    · refine .inl ⟨rfl, .working ?_, by simp⟩
      exact ⟨rfl, rfl, rfl, faithful.1 _ rfl, faithful.2 _ rfl⟩
  · next start asked record =>
    simp only [Option.some.injEq] at h
    simp only [relocate] at h
    split at h <;> cases h
    · next taken => exact .inr ⟨start, asked, record, rfl, taken, rfl⟩
    · next cause _ => exact .inl ⟨rfl, .failed (.inl (.refused cause)), by simp [refused, Effect.fail]⟩
  · cases h

end Archiver

/-! ## A run -/

/-- The steps of a pipeline that are not its producer's. -/
def Pipeline.Action.isInner {σ : Type} : Pipeline.Action σ → Bool
  | .setWork .. | .finishWork .. | .cancelWork _ | .unwind _ | .wake | .drive | .abandon => true
  | _ => false

/-- The steps of the work on an item. -/
def Pipeline.Action.isOfWork {σ : Type} : Pipeline.Action σ → Bool
  | .setWork .. | .finishWork .. | .cancelWork _ => true
  | _ => false

namespace Run

/-- An item or the driver takes a step, and the walker does not. -/
structure Inner (r : Run) (action : Pipeline.Action Work) (r' : Run) : Prop where
  statement : r'.statement = r.statement
  settings : r'.settings = r.settings
  walker : r'.walker = r.walker
  visited : r'.visited = r.visited
  inner : action.isInner = true
  moves : Pipeline.Moves (fun _ => .unstarted) r.pipeline action r'.pipeline

/-- All work of the run has results of its own payloads. -/
def Faithful (outputs : Transforms) (r : Run) : Prop :=
  ∀ i request work, r.work? i = some (request, work) → work.Faithful outputs request

/-- The steps that a run takes without changing the store. -/
inductive Step (outputs : Transforms) (store : Store) (now : Nat) (gated : Bool) (r : Run) : Run → Prop
  | walk {r' : Run} : r.walk store now gated = some r' → Step outputs store now gated r r'
  | inner {action : Pipeline.Action Work} {r' : Run} : r.Inner action r' → (∀ i, action ≠ .finishWork i .done) →
      (∀ i new, action = .setWork i new → ∀ request old, r.work? i = some (request, old) →
        new.Faithful outputs request) →
      (∀ i cause, action = .finishWork i (.failed cause) → ∀ request work, r.work? i = some (request, work) →
        Archiver.Fails r.settings r.pipeline.raised request cause) → Step outputs store now gated r r'
  | proceed {current : TransactionId} {asked : Nat} : r.walker = .finding current asked false →
      Step outputs store now gated r (r.goTo (.finding current asked true))
  | refuse {current : TransactionId} {asked : Nat} (cause : StoreError) : r.walker = .finding current asked false →
      Step outputs store now gated r (r.find current (.error cause))
  | drop : r.isOver = false → Step outputs store now gated r (r.goTo .leaving)

/-- The store takes the record of an item, which is done with it. -/
structure Relocates (store : Store) (r : Run) (item : Nat) (request : ArchivalRequest) (record : ArchivedTransaction)
    (after : Store) (r' : Run) : Prop where
  work : ∃ start asked, r.work? item = some (request, .storing start asked record true)
  taken : store.relocate record request.transaction.id = .ok after
  inner : r.Inner (.finishWork item .done) r'

variable {outputs : Transforms} {store after : Store} {now : Nat} {gated : Bool} {r r' : Run}

theorem items_of_work? {i : Nat} {request : ArchivalRequest} {work : Work} (h : r.work? i = some (request, work)) :
    r.pipeline.items[i]? = some ⟨request, .working work⟩ := by
  unfold work? at h
  split at h <;> cases h
  assumption

theorem phase?_of_work? {i : Nat} {request : ArchivalRequest} {work : Work} (h : r.work? i = some (request, work)) :
    r.pipeline.phase? i = some (.working work) := Pipeline.phase?_of_items (items_of_work? h)

/-- The work goes on, as a step of the pipeline. -/
theorem inner_setWork {i n : Nat} {request : ArchivalRequest} {work new : Work} {effect : Effect}
    (h : r.work? i = some (request, work)) (next : effect.next = .working new) :
    r.Inner (.setWork i new) ({ r with relocations := n }.apply i effect) := by
  refine ⟨rfl, rfl, rfl, rfl, rfl, ?_⟩
  simp only [apply, say, next, Pipeline.setWork]
  exact .setWork (phase?_of_work? h)

/-- The work ends by itself, as a step of the pipeline. -/
theorem inner_finishWork {i n : Nat} {request : ArchivalRequest} {work : Work} {effect : Effect} {ending : Pipeline.Ending}
    (h : r.work? i = some (request, work)) (next : effect.next = .ended ending) (own : ending.isOfWork = true) :
    r.Inner (.finishWork i ending) ({ r with relocations := n }.apply i effect) := by
  refine ⟨rfl, rfl, rfl, rfl, rfl, ?_⟩
  simp only [apply, say, next, Pipeline.finishWork]
  exact .finishWork (phase?_of_work? h) own

/-- The work is stopped, as a step of the pipeline. -/
theorem inner_cancelWork {i n : Nat} {request : ArchivalRequest} {work : Work} {effect : Effect}
    (h : r.work? i = some (request, work)) (next : effect.next = .ended .cancelled)
    (told : r.pipeline.cancelling = true) : r.Inner (.cancelWork i) ({ r with relocations := n }.apply i effect) := by
  refine ⟨rfl, rfl, rfl, rfl, rfl, ?_⟩
  simp only [apply, say, next, Pipeline.finishWork]
  exact .cancelWork (phase?_of_work? h) told

/-- An effect that brings no record is a step of the run alone. -/
theorem step_of_harmless {i n : Nat} {request : ArchivalRequest} {work : Work} {effect : Effect}
    (h : r.work? i = some (request, work))
    (harmless : effect.next.Harmless outputs r.settings r.pipeline.raised request)
    (told : effect.next = .ended .cancelled → r.pipeline.cancelling = true) :
    Step outputs store now gated r ({ r with relocations := n }.apply i effect) := by
  cases next : effect.next with
  | working new =>
    refine .inner (inner_setWork h next) (by simp) (fun j work' same request' old found => ?_) (by simp)
    cases same
    rw [h] at found
    cases found
    rw [next] at harmless
    cases harmless
    assumption
  | ended ending =>
    rw [next] at harmless
    cases harmless with
    | failed fails =>
      refine .inner (inner_finishWork h next rfl) (by simp) (by simp) fun j cause same request' work' found => ?_
      cases same
      rw [h] at found
      cases found
      exact fails
    | panicked => exact .inner (inner_finishWork h next rfl) (by simp) (by simp) (by simp)
    | cancelled => exact .inner (inner_cancelWork h next (told next)) (by simp) (by simp) (by simp)

/-- The task of an item takes a step of the run alone, or the store takes its record. -/
theorem advanceItem_cases {i : Nat} (h : r.advanceItem store now gated i = some (after, r'))
    (faithful : r.Faithful outputs) : after = store ∧ Step outputs store now gated r r' ∨
      ∃ request record, RecordOf outputs request record ∧ Relocates store r i request record after r' := by
  unfold advanceItem at h
  split at h
  · next request work found =>
    simp only [Option.bind_eq_bind, Option.bind_eq_some_iff] at h
    obtain ⟨⟨store', effect⟩, advanced, h⟩ := h
    simp only [Option.pure_def, Option.some.injEq, Prod.mk.injEq] at h
    obtain ⟨rfl, rfl⟩ := h
    obtain ⟨rfl, harmless, own⟩ | ⟨start, asked, record, rfl, taken, done⟩ :=
      Archiver.advance_cases advanced (faithful i request work found)
    · refine .inl ⟨rfl, ?_⟩
      split
      · exact step_of_harmless found harmless fun cancelled => absurd cancelled own
      · exact step_of_harmless (n := r.relocations) found harmless fun cancelled => absurd cancelled own
    · have quiet : effect.submits = false := by simp [Effect.submits, done]
      refine .inr ⟨request, record, faithful i _ _ found, ⟨start, asked, found⟩, taken, ?_⟩
      simp only [quiet, Bool.false_eq_true, if_false]
      exact inner_finishWork (n := r.relocations) found done rfl
  · simp only [Option.map_eq_some_iff, Prod.mk.injEq] at h
    obtain ⟨pipeline, unwound, rfl, rfl⟩ := h
    exact .inl ⟨rfl, .inner ⟨rfl, rfl, rfl, rfl, rfl, Pipeline.moves_of_unwind unwound⟩ (by simp) (by simp) (by simp)⟩

/-- A signal to an item is a step of the run alone. -/
theorem step_of_signal {i : Nat} {s : Signal} (h : r.signal i s = some r') (faithful : r.Faithful outputs)
    (answers : ∀ stage octets, s = .answer stage (.ok octets) → ∀ request work, r.work? i = some (request, work) →
      outputs stage request.transaction.payload octets) : Step outputs store now gated r r' := by
  simp only [signal, Option.bind_eq_bind, Option.bind_eq_some_iff] at h
  obtain ⟨⟨request, work⟩, found, h⟩ := h
  simp only [Option.ite_none_right_eq_some, Option.pure_def, Option.bind_eq_some_iff] at h
  obtain ⟨possible, effect, received, h⟩ := h
  cases h
  refine step_of_harmless (n := r.relocations) found ?_ fun cancelled => ?_
  · exact Archiver.receive_harmless received (faithful i request work found)
      fun stage octets same => answers stage octets same request work found
  · cases Archiver.cancel_of_receive received cancelled
    exact possible

/-- The driver takes a step of the run alone. -/
theorem step_of_driver {action : Pipeline.Action Work} {pipeline : Pipeline Work} (inner : action.isInner = true)
    (quiet : (∀ i work, action ≠ .setWork i work) ∧ ∀ i ending, action ≠ .finishWork i ending)
    (moves : Pipeline.Moves (fun _ => .unstarted) r.pipeline action pipeline) :
    Step outputs store now gated r { r with pipeline } :=
  .inner ⟨rfl, rfl, rfl, rfl, inner, moves⟩ (fun i => quiet.2 i .done) (fun i work same => absurd same (quiet.1 i work))
    fun i cause same => absurd same (quiet.2 i (.failed cause))

end Run

/-! ## A world -/

namespace World

/-- An answer that a transform gives an item is one that it may give for what the item asked it to work on. -/
def Answers (outputs : Transforms) (w : World) : Action → Prop
  | .signal run item (.answer stage (.ok octets)) => ∀ r request work, w.runs[run]? = some r →
      r.work? item = some (request, work) → outputs stage (Archiver.input request stage) octets
  | _ => True

/-- What a step of a world can be: one run takes a step alone, one item of a run is relocated, a run is begun, or a
caller changes the store or the clock. -/
inductive Change (outputs : Transforms) (w : World) : Action → World → Prop
  | run {action : Action} {k : Nat} {r r' : Run} : w.runs[k]? = some r →
      r.Step outputs w.store w.now w.gated r' → Change outputs w action (w.setRun k r')
  | relocated {k item : Nat} {r r' : Run} {request : ArchivalRequest} {record : ArchivedTransaction} {store : Store} :
      w.runs[k]? = some r → RecordOf outputs request record → r.Relocates w.store item request record store r' →
      Change outputs w (.go (.item k item)) { w.setRun k r' with store }
  | begun {settings : GenerationSettings} {statement : StatementId} {last : TransactionId} {r : Run} :
      Run.begin settings statement last = .ok r →
      Change outputs w (.begin settings statement last) { w with runs := w.runs ++ [r] }
  | inserted (t : Transaction) : Change outputs w (.insert t) { w with store := w.store.insert t }
  | moved {record : ArchivedTransaction} {original : TransactionId} {store : Store} :
      w.store.relocate record original = .ok store → Change outputs w (.relocate record original) { w with store }
  | ticked (now : Nat) : Change outputs w (.tick now) { w with now }

theorem onRun_eq_some {w v : World} {k : Nat} {f : Run → Option Run} (h : w.onRun k f = some v) :
    ∃ r r', w.runs[k]? = some r ∧ f r = some r' ∧ v = w.setRun k r' := by
  simp only [onRun, Option.bind_eq_bind, Option.bind_eq_some_iff, Option.pure_def, Option.some.injEq] at h
  obtain ⟨r, found, r', step, rfl⟩ := h
  exact ⟨r, r', found, step, rfl⟩

/-- Every step of a world is one of the listed ones. -/
theorem change_of_step {outputs : Transforms} {w v : World} {action : Action} (h : w.step action = some v)
    (faithful : ∀ (k : Nat) (r : Run), w.runs[k]? = some r → r.Faithful outputs) (answers : w.Answers outputs action) :
    Change outputs w action v := by
  cases action with
  | go task =>
    cases task with
    | walker k =>
      obtain ⟨r, r', found, walk, rfl⟩ := onRun_eq_some h
      exact .run found (.walk walk)
    | driver k =>
      obtain ⟨r, r', found, drive, rfl⟩ := onRun_eq_some h
      simp only [Run.drive, Option.map_eq_some_iff] at drive
      obtain ⟨pipeline, drive, rfl⟩ := drive
      exact .run found (Run.step_of_driver rfl (by simp) (Pipeline.moves_of_drive drive))
    | item k item =>
      simp only [step, advance, Option.bind_eq_bind, Option.bind_eq_some_iff, Option.pure_def, Option.some.injEq] at h
      obtain ⟨r, found, ⟨store, r'⟩, advanced, rfl⟩ := h
      rcases Run.advanceItem_cases advanced (faithful k r found) with ⟨rfl, step⟩ | ⟨request, record, isRecord, relocates⟩
      · exact .run found step
      · exact .relocated found isRecord relocates
  | wake k =>
    obtain ⟨r, r', found, woken, rfl⟩ := onRun_eq_some h
    simp only [Option.map_eq_some_iff] at woken
    obtain ⟨pipeline, woken, rfl⟩ := woken
    exact .run found (Run.step_of_driver rfl (by simp) (Pipeline.moves_of_wake woken))
  | abandon k =>
    obtain ⟨r, r', found, left, rfl⟩ := onRun_eq_some h
    simp only [Option.map_eq_some_iff] at left
    obtain ⟨pipeline, left, rfl⟩ := left
    exact .run found (Run.step_of_driver rfl (by simp) (Pipeline.moves_of_abandon left))
  | signal k item s =>
    obtain ⟨r, r', found, signalled, rfl⟩ := onRun_eq_some h
    refine .run found (Run.step_of_signal signalled (faithful k r found) ?_)
    rintro stage octets rfl request work busy
    have := answers r request work found busy
    cases stage <;> exact this
  | proceedLookup k =>
    obtain ⟨r, r', found, answered, rfl⟩ := onRun_eq_some h
    split at answered
    · next current asked waits =>
      cases answered
      exact .run found (.proceed waits)
    · cases answered
  | refuseLookup k cause =>
    obtain ⟨r, r', found, answered, rfl⟩ := onRun_eq_some h
    split at answered
    · next current asked waits =>
      cases answered
      exact .run found (.refuse cause waits)
    · cases answered
  | begin settings statement last =>
    simp only [step] at h
    split at h <;> cases h
    next begun => exact .begun begun
  | drop k =>
    obtain ⟨r, r', found, dropped, rfl⟩ := onRun_eq_some h
    simp only [Run.drop, Option.ite_none_left_eq_some, Option.some.injEq] at dropped
    obtain ⟨running, rfl⟩ := dropped
    exact .run found (.drop (by simpa using running))
  | insert t => cases h; exact .inserted t
  | relocate record original =>
    simp only [step] at h
    split at h <;> cases h
    next taken => exact .moved taken
  | tick now =>
    simp only [step, Option.ite_none_right_eq_some, Option.some.injEq] at h
    obtain ⟨-, rfl⟩ := h
    exact .ticked now

end World
end ChainArchive
