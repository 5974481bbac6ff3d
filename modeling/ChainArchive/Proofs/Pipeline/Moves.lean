import ChainArchive.Pipeline
import Mathlib.Tactic.Common

/-!
# What a step of a pipeline can be

Every possible step, with the condition under which it is taken and the state
that it leads to. Later modules split a step by these cases and never unfold
the machine.
-/

namespace ChainArchive.Pipeline
set_option autoImplicit false

variable {σ : Type}

/-- The steps of a pipeline, one constructor for each way in which one can go. -/
inductive Moves (fresh : ArchivalRequest → σ) (p : Pipeline σ) : Action σ → Pipeline σ → Prop
  -- the producer calls
  | callRefused {request : ArchivalRequest} : p.inputOpen = false ∨ p.budgetClosed = true →
      Moves fresh p (.call request) { p with items := p.items ++ [⟨request, .over .refused⟩] }
  | callWaits {request : ArchivalRequest} : p.inputOpen = true → p.budgetClosed = false → p.free = 0 →
      Moves fresh p (.call request) { p with items := p.items ++ [⟨request, .waiting⟩] }
  | callHolds {request : ArchivalRequest} : p.inputOpen = true → p.budgetClosed = false → p.free ≠ 0 →
      Moves fresh p (.call request) { p with items := p.items ++ [⟨request, .holding⟩], free := p.free - 1 }
  -- a call goes on
  | refuseWaiting {i : Nat} : p.phase? i = some .waiting → p.budgetClosed = true →
      Moves fresh p (.resume i) (p.setPhase i (.over .refused))
  | refuseGranted {i : Nat} : p.phase? i = some .granted → p.budgetClosed = true →
      Moves fresh p (.resume i) (p.setPhase i (.over .refused)).release
  | hold {i : Nat} : p.phase? i = some .granted → p.budgetClosed = false →
      Moves fresh p (.resume i) (p.setPhase i .holding)
  | count {i : Nat} : p.phase? i = some .holding →
      Moves fresh p (.resume i) { p.setPhase i (.counted (p.inFlight + 1)) with inFlight := p.inFlight + 1 }
  | note {i inFlight : Nat} : p.phase? i = some (.counted inFlight) →
      Moves fresh p (.resume i) { p.setPhase i .noted with peak := max p.peak inFlight }
  | refuseNoted {i : Nat} : p.phase? i = some .noted → p.queueClosed = true →
      Moves fresh p (.resume i) (p.setPhase i (.ended .refused))
  | enqueue {i : Nat} : p.phase? i = some .noted → p.queueClosed = false → p.queue.length < p.parallelism →
      Moves fresh p (.resume i) { p.setPhase i .queued with queue := p.queue ++ [i] }
  -- a call is given up
  | withdrawWaiting {i : Nat} : p.phase? i = some .waiting →
      Moves fresh p (.withdraw i) (p.setPhase i (.over .withdrawn))
  | withdrawGranted {i : Nat} : p.phase? i = some .granted →
      Moves fresh p (.withdraw i) (p.setPhase i (.over .withdrawn)).release
  | withdrawHolding {i : Nat} : p.phase? i = some .holding →
      Moves fresh p (.withdraw i) (p.setPhase i (.over .withdrawn)).release
  | withdrawCounted {i inFlight : Nat} : p.phase? i = some (.counted inFlight) →
      Moves fresh p (.withdraw i) (p.setPhase i (.ended .withdrawn))
  | withdrawNoted {i : Nat} : p.phase? i = some .noted →
      Moves fresh p (.withdraw i) (p.setPhase i (.ended .withdrawn))
  -- the handle
  | complete : p.isCalling = false → Moves fresh p .complete p.complete
  | abort : Moves fresh p .abort p.abort
  | dropHandle : p.isCalling = false → Moves fresh p .dropHandle p.dropHandle
  -- the work on an item
  | setWork {i : Nat} {old new : σ} : p.phase? i = some (.working old) →
      Moves fresh p (.setWork i new) (p.setPhase i (.working new))
  | finishWork {i : Nat} {work : σ} {ending : Ending} : p.phase? i = some (.working work) → ending.isOfWork = true →
      Moves fresh p (.finishWork i ending) (p.setPhase i (.ended ending))
  | cancelWork {i : Nat} {work : σ} : p.phase? i = some (.working work) → p.cancelling = true →
      Moves fresh p (.cancelWork i) (p.setPhase i (.ended .cancelled))
  -- an item on its way out
  | record {i : Nat} {cause : GenerationError} : p.phase? i = some (.ended (.failed cause)) →
      Moves fresh p (.unwind i)
        { p.setPhase i (.recorded cause) with firstFailure := p.firstFailure.or (some cause) }
  | shut {i : Nat} {cause : GenerationError} : p.phase? i = some (.recorded cause) →
      Moves fresh p (.unwind i) { p.setPhase i (.shut cause) with budgetClosed := true }
  | flag {i : Nat} {cause : GenerationError} : p.phase? i = some (.shut cause) →
      Moves fresh p (.unwind i) { p.setPhase i (.flagged cause) with raised := true }
  | discountFailed {i : Nat} {cause : GenerationError} : p.phase? i = some (.flagged cause) →
      Moves fresh p (.unwind i) { p.setPhase i (.uncounted (.failed cause)) with inFlight := p.inFlight - 1 }
  | discount {i : Nat} {ending : Ending} : p.phase? i = some (.ended ending) → (∀ cause, ending ≠ .failed cause) →
      Moves fresh p (.unwind i) { p.setPhase i (.uncounted ending) with inFlight := p.inFlight - 1 }
  | freeTask {i : Nat} {ending : Ending} : p.phase? i = some (.uncounted ending) → ending.isOfTask = true →
      Moves fresh p (.unwind i) (p.setPhase i (.freed ending)).release
  | freeCall {i : Nat} {ending : Ending} : p.phase? i = some (.uncounted ending) → ending.isOfTask = false →
      Moves fresh p (.unwind i) (p.setPhase i (.over ending)).release
  | finish {i : Nat} {ending : Ending} : p.phase? i = some (.freed ending) →
      Moves fresh p (.unwind i) { p.setPhase i (.finished ending) with unjoined := p.unjoined ++ [i] }
  -- the driver
  | wake : p.driver = .idle → Moves fresh p .wake { p with driver := .watching }
  | succeed : p.driver = .head → p.exhausted = true → p.isRunning = false →
      Moves fresh p .drive { p with driver := .finished (.ok p.completed), queueClosed := true }
  | watch : p.driver = .head → p.exhausted = false ∨ p.isRunning = true →
      Moves fresh p .drive { p with driver := .watching }
  | seeFlag : p.driver = .watching → p.raised = true →
      Moves fresh p .drive { p with firstFailure := none, driver := .raising (p.firstFailure.getD .aborted) }
  | seeNoFlag : p.driver = .watching → p.raised = false → Moves fresh p .drive { p with driver := .joining }
  | join {i : Nat} {rest : List Nat} {ending : Ending} : p.driver = .joining → p.unjoined = i :: rest →
      p.phase? i = some (.finished ending) →
      Moves fresh p .drive (({ p.setPhase i (.over ending) with unjoined := rest } : Pipeline σ).join ending)
  | joinNobody {i : Nat} {rest : List Nat} : p.driver = .joining → p.unjoined = i :: rest →
      (∀ ending, p.phase? i ≠ some (.finished ending)) →
      Moves fresh p .drive { p with unjoined := rest, driver := .joining }
  | receive : p.driver = .joining → p.unjoined = [] → Moves fresh p .drive { p with driver := .receiving }
  | rest : p.driver = .receiving → p.exhausted = true → Moves fresh p .drive { p with driver := .idle }
  | await : p.driver = .receiving → p.exhausted = false → p.queue = [] → p.inputOpen = true →
      Moves fresh p .drive { p with driver := .idle }
  | exhaust : p.driver = .receiving → p.exhausted = false → p.queue = [] → p.inputOpen = false →
      Moves fresh p .drive { p with exhausted := true, driver := .head }
  | spawn {i : Nat} {rest : List Nat} : p.driver = .receiving → p.exhausted = false → p.queue = i :: rest →
      Moves fresh p .drive (p.spawn fresh i rest)
  | raiseFlag {cause : GenerationError} : p.driver = .raising cause →
      Moves fresh p .drive { p with raised := true, driver := .shutting cause }
  | closeBudget {cause : GenerationError} : p.driver = .shutting cause →
      Moves fresh p .drive { p with budgetClosed := true, driver := .sealing cause }
  | sealQueue {cause : GenerationError} : p.driver = .sealing cause →
      Moves fresh p .drive { p with queueClosed := true, driver := .cancelling cause }
  | cancelTasks {cause : GenerationError} : p.driver = .cancelling cause →
      Moves fresh p .drive { p with cancelling := true, driver := .draining cause }
  | drain {i : Nat} {rest : List Nat} {ending : Ending} {cause : GenerationError} : p.driver = .draining cause →
      p.unjoined = i :: rest → p.phase? i = some (.finished ending) →
      Moves fresh p .drive { p.setPhase i (.over ending) with unjoined := rest }
  | drainNobody {i : Nat} {rest : List Nat} {cause : GenerationError} : p.driver = .draining cause →
      p.unjoined = i :: rest → (∀ ending, p.phase? i ≠ some (.finished ending)) →
      Moves fresh p .drive { p with unjoined := rest, driver := .draining cause }
  | fail {cause : GenerationError} : p.driver = .draining cause → p.unjoined = [] → p.isRunning = false →
      Moves fresh p .drive
        { p.discardQueue with
          driver := .finished (.error cause), log := p.log ++ [.pipelineFailed cause p.completed] }
  | abandon : p.driver = .idle ∨ (∃ cause, p.driver = .draining cause) → p.abandoned = true →
      Moves fresh p .abandon { p.discardQueue with cancelling := true, driver := .dropped }

section Inversion

variable {fresh : ArchivalRequest → σ} {p q : Pipeline σ}

theorem moves_call (request : ArchivalRequest) : Moves fresh p (.call request) (p.call request) := by
  unfold call
  split
  · next closed => exact .callRefused (by simpa using closed)
  · next closed =>
    obtain ⟨isOpen, budget⟩ : p.inputOpen = true ∧ p.budgetClosed = false := by simpa using closed
    split
    · next none => exact .callWaits isOpen budget none
    · next some => exact .callHolds isOpen budget some

theorem moves_of_resume {i : Nat} (h : p.resume i = some q) : Moves fresh p (.resume i) q := by
  simp only [resume, Option.bind_eq_bind, Option.bind_eq_some_iff] at h
  obtain ⟨phase, found, h⟩ := h
  cases phase with
  | waiting =>
    simp only [Option.ite_none_right_eq_some, Option.some.injEq] at h
    obtain ⟨closed, rfl⟩ := h
    exact .refuseWaiting found closed
  | granted =>
    simp only at h
    split at h <;> cases h
    · next closed => exact .refuseGranted found closed
    · next closed => exact .hold found (by simpa using closed)
  | holding => cases h; exact .count found
  | counted => cases h; exact .note found
  | noted =>
    simp only at h
    split at h
    · next closed => cases h; exact .refuseNoted found closed
    · next closed =>
      simp only [Option.ite_none_right_eq_some, Option.some.injEq] at h
      obtain ⟨room, rfl⟩ := h
      exact .enqueue found (by simpa using closed) room
  | _ => cases h

theorem moves_of_withdraw {i : Nat} (h : p.withdraw i = some q) : Moves fresh p (.withdraw i) q := by
  simp only [withdraw, Option.bind_eq_bind, Option.bind_eq_some_iff] at h
  obtain ⟨phase, found, h⟩ := h
  cases phase with
  | waiting => cases h; exact .withdrawWaiting found
  | granted => cases h; exact .withdrawGranted found
  | holding => cases h; exact .withdrawHolding found
  | counted => cases h; exact .withdrawCounted found
  | noted => cases h; exact .withdrawNoted found
  | _ => cases h

theorem moves_of_unwind {i : Nat} (h : p.unwind i = some q) : Moves fresh p (.unwind i) q := by
  simp only [unwind, Option.bind_eq_bind, Option.bind_eq_some_iff] at h
  obtain ⟨phase, found, h⟩ := h
  cases phase with
  | ended ending =>
    cases ending with
    | failed cause => cases h; exact .record found
    | _ => cases h; exact .discount found (by rintro _ ⟨⟩)
  | recorded => cases h; exact .shut found
  | shut => cases h; exact .flag found
  | flagged => cases h; exact .discountFailed found
  | uncounted ending =>
    simp only at h
    split at h <;> cases h
    · next task => exact .freeTask found task
    · next task => exact .freeCall found (by simpa using task)
  | freed => cases h; exact .finish found
  | _ => cases h

theorem moves_of_drive (h : p.drive fresh = some q) : Moves fresh p .drive q := by
  unfold drive at h
  cases state : p.driver with
  | idle => simp [state] at h
  | finished => simp [state] at h
  | dropped => simp [state] at h
  | head =>
    simp only [state] at h
    split at h <;> cases h
    · next done =>
      obtain ⟨exhausted, stopped⟩ : p.exhausted = true ∧ p.isRunning = false := by simpa using done
      exact .succeed state exhausted stopped
    · next more =>
      refine .watch state ?_
      cases known : p.exhausted <;> simp_all
  | watching =>
    simp only [state] at h
    split at h <;> cases h
    · next raised => exact .seeFlag state raised
    · next raised => exact .seeNoFlag state (by simpa using raised)
  | joining =>
    simp only [state] at h
    split at h
    · next i rest waiting =>
      split at h <;> cases h
      · next ending found => exact .join state waiting found
      · next other => exact .joinNobody state waiting other
    · next nobody => cases h; exact .receive state nobody
  | receiving =>
    simp only [state] at h
    split at h
    · next known => cases h; exact .rest state known
    · next known =>
      have known : p.exhausted = false := by simpa using known
      split at h
      · next i rest waiting => cases h; exact .spawn state known waiting
      · next nothing =>
        split at h <;> cases h
        · next isOpen => exact .await state known nothing isOpen
        · next isOpen => exact .exhaust state known nothing (by simpa using isOpen)
  | raising => simp only [state] at h; cases h; exact .raiseFlag state
  | shutting => simp only [state] at h; cases h; exact .closeBudget state
  | sealing => simp only [state] at h; cases h; exact .sealQueue state
  | cancelling => simp only [state] at h; cases h; exact .cancelTasks state
  | draining =>
    simp only [state] at h
    split at h
    · next i rest waiting =>
      split at h <;> cases h
      · next ending found => exact .drain state waiting found
      · next other => exact .drainNobody state waiting other
    · next nobody =>
      split at h <;> cases h
      next stopped => exact .fail state nobody (by simpa using stopped)

theorem moves_of_wake (h : p.wake = some q) : Moves fresh p .wake q := by
  unfold wake at h
  split at h <;> cases h
  next state => exact .wake state

theorem moves_of_abandon (h : p.abandon = some q) : Moves fresh p .abandon q := by
  unfold abandon at h
  split at h
  · next state =>
    simp only [Option.ite_none_right_eq_some, Option.some.injEq] at h
    obtain ⟨told, rfl⟩ := h
    exact .abandon (.inl state) told
  · next cause state =>
    simp only [Option.ite_none_right_eq_some, Option.some.injEq] at h
    obtain ⟨told, rfl⟩ := h
    exact .abandon (.inr ⟨cause, state⟩) told
  · cases h

theorem isWorking_iff {i : Nat} : p.isWorking i = true ↔ ∃ work, p.phase? i = some (.working work) := by
  unfold isWorking
  split <;> simp_all

/-- Every step of a pipeline is one of the listed ones. -/
theorem moves_of_step {action : Action σ} (h : p.step fresh action = some q) : Moves fresh p action q := by
  cases action with
  | call request => cases h; exact moves_call request
  | resume i => exact moves_of_resume h
  | withdraw i => exact moves_of_withdraw h
  | complete =>
    simp only [step] at h
    split at h <;> cases h
    next quiet => exact .complete (by simpa using quiet)
  | abort => cases h; exact .abort
  | dropHandle =>
    simp only [step] at h
    split at h <;> cases h
    next quiet => exact .dropHandle (by simpa using quiet)
  | setWork i work =>
    simp only [step, Option.ite_none_right_eq_some, Option.some.injEq, isWorking_iff] at h
    obtain ⟨⟨old, found⟩, rfl⟩ := h
    exact .setWork found
  | finishWork i ending =>
    simp only [step, Option.ite_none_right_eq_some, Option.some.injEq, Bool.and_eq_true, isWorking_iff] at h
    obtain ⟨⟨⟨work, found⟩, own⟩, rfl⟩ := h
    exact .finishWork found own
  | cancelWork i =>
    simp only [step, Option.ite_none_right_eq_some, Option.some.injEq, Bool.and_eq_true, isWorking_iff] at h
    obtain ⟨⟨⟨work, found⟩, told⟩, rfl⟩ := h
    exact .cancelWork found told
  | unwind i => exact moves_of_unwind h
  | wake => exact moves_of_wake h
  | drive => exact moves_of_drive h
  | abandon => exact moves_of_abandon h

end Inversion
end ChainArchive.Pipeline
