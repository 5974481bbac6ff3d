import ChainArchive.Proofs.Pipeline.Signals

/-!
# What a pipeline fails with

An item that fails records its failure before it closes the budget, and closes
the budget before it raises the flag. So whoever finds the budget closed or the
flag raised can tell what went wrong: the driver fails with the failure that was
recorded first, with that of a panic or, if the flag was raised from outside
before any item had recorded a failure, as aborted.
-/

namespace ChainArchive.Pipeline
set_option autoImplicit false

variable {σ : Type}

/-! ## Failures that are told -/

/-- The failure of an item that has failed. -/
def Ending.failure? : Ending → Option GenerationError
  | .failed cause => some cause
  | _ => none

theorem Ending.eq_of_failure? {e : Ending} {cause : GenerationError} (h : e.failure? = some cause) :
    e = .failed cause := by
  cases e <;> cases h
  rfl

/-- The failure that the item has recorded. -/
def Phase.told? : Phase σ → Option GenerationError
  | .recorded cause | .shut cause | .flagged cause => some cause
  | .uncounted e | .freed e | .finished e | .over e => e.failure?
  | _ => none

/-- What the driver fails with. -/
def Driver.cause? : Driver → Option GenerationError
  | .raising cause | .shutting cause | .sealing cause | .cancelling cause | .draining cause => some cause
  | .finished (.error cause) => some cause
  | _ => none

namespace Phase

variable {p : Pipeline σ} {first : σ} {action : Action σ} {i : Nat} {x y : Phase σ} {cause : GenerationError}

theorem ending?_of_told? (told : x.told? = some cause) : x.ending? = some (.failed cause) := by
  cases x with
  | recorded | shut | flagged =>
    cases told
    rfl
  | uncounted e | freed e | finished e | «over» e =>
    obtain rfl := Ending.eq_of_failure? told
    rfl
  | _ => cases told

/-- What is told stays told. -/
theorem told?_of_moved (h : Moved p first action i x y) (told : x.told? = some cause) : y.told? = some cause := by
  cases h with
  | same => exact told
  | next h => cases h <;> first | exact told | cases told
  | withdraw _ _ going => simp [ending?_of_told? told] at going
  | work | done | record => cases told

/-- What is told has been told before, or is recorded now. -/
theorem record_of_moved (h : Moved p first action i x y) (told : y.told? = some cause) :
    x.told? = some cause ∨ (x = .ended (.failed cause) ∧ action = .unwind i) := by
  cases h with
  | same => exact .inl told
  | next h =>
    cases h with
    | @discount ending other =>
      cases ending with
      | failed own => exact absurd rfl (other own)
      | _ => cases told
    | refuseWaiting | refuseGranted => cases told
    | _ => exact .inl told
  | withdraw _ _ _ given => obtain rfl | rfl := given <;> cases told
  | work | done => cases told
  | record own unwinds =>
    cases told
    exact .inr ⟨rfl, unwinds⟩

end Phase

/-- Some item has recorded this failure. -/
def Tells (p : Pipeline σ) (cause : GenerationError) : Prop := ∃ i x, p.phase? i = some x ∧ x.told? = some cause

/-- Some item has panicked. -/
def Panicked (p : Pipeline σ) : Prop := ∃ i x, p.phase? i = some x ∧ x.ending? = some .panicked

section Steps

variable {p q : Pipeline σ} {fresh : ArchivalRequest → σ} {action : Action σ} {cause : GenerationError}

theorem Tells.moves (h : p.Tells cause) (coherent : Coherent p) (moves : Moves fresh p action q) : q.Tells cause := by
  obtain ⟨i, x, found, told⟩ := h
  obtain ⟨request, inside⟩ := items_of_phase? found
  obtain ⟨y, now, moved⟩ := moved_of_moves coherent moves inside
  exact ⟨i, y, phase?_of_items now, Phase.told?_of_moved moved told⟩

theorem Panicked.moves (h : p.Panicked) (coherent : Coherent p) (moves : Moves fresh p action q) : q.Panicked := by
  obtain ⟨i, x, found, panicked⟩ := h
  obtain ⟨request, inside⟩ := items_of_phase? found
  obtain ⟨y, now, moved⟩ := moved_of_moves coherent moves inside
  exact ⟨i, y, phase?_of_items now, Phase.ending?_of_moved moved panicked⟩

/-- An item panics only when its work ends so. -/
theorem panicked_of_moves (coherent : Coherent p) (moves : Moves fresh p action q)
    (other : ∀ i, action ≠ .finishWork i .panicked) (h : q.Panicked) : p.Panicked := by
  obtain ⟨i, y, now, panicked⟩ := h
  obtain ⟨request, inside⟩ := items_of_phase? now
  obtain ⟨x, before, moved⟩ | ⟨-, -, begins⟩ := origin_of_moves coherent moves inside
  · cases Phase.ends_of_moved moved panicked with
    | inl already => exact ⟨i, x, phase?_of_items before, already⟩
    | inr ends =>
      cases ends with
      | own _ same => exact absurd same (other i)
  · obtain rfl | rfl | rfl := begins <;> cases panicked

/-- A failed item records its failure, unless another one was recorded before. -/
theorem record_of_moves {i : Nat} (moves : Moves fresh p (.unwind i) q)
    (failed : p.phase? i = some (.ended (.failed cause))) :
    q.phase? i = some (.recorded cause) ∧ q.firstFailure = p.firstFailure.or (some cause) ∧ q.driver = p.driver := by
  cases moves with
  | record found =>
    obtain rfl : cause = _ := by simpa [failed] using found
    refine ⟨?_, rfl, rfl⟩
    show (p.setPhase i (.recorded cause)).phase? i = _
    rw [phase?_setPhase, if_pos rfl, found]
    rfl
  | discount found other =>
    obtain rfl : Ending.failed cause = _ := by simpa [failed] using found
    exact absurd rfl (other cause)
  | shut found | flag found | discountFailed found | freeTask found | freeCall found | finish found =>
    simp [failed] at found

/-- A failure that some item tells has been told before, or is recorded now. -/
theorem tells_of_moves (coherent : Coherent p) (moves : Moves fresh p action q) (h : q.Tells cause) :
    p.Tells cause ∨ ∃ i, action = .unwind i ∧ p.phase? i = some (.ended (.failed cause)) := by
  obtain ⟨i, y, now, told⟩ := h
  obtain ⟨request, inside⟩ := items_of_phase? now
  obtain ⟨x, before, moved⟩ | ⟨-, -, begins⟩ := origin_of_moves coherent moves inside
  · rcases Phase.record_of_moved moved told with already | ⟨rfl, rfl⟩
    · exact .inl ⟨i, x, phase?_of_items before, already⟩
    · exact .inr ⟨i, rfl, phase?_of_items before⟩
  · obtain rfl | rfl | rfl := begins <;> cases told

end Steps

/-! ## How the driver fails -/

/-- What the driver can leave its loop with. -/
inductive Leaves (p : Pipeline σ) : GenerationError → Prop
  | sees : p.raised = true → Leaves p (p.firstFailure.getD .aborted)
  | joins {i : Nat} {cause : GenerationError} : p.phase? i = some (.finished (.failed cause)) →
      Leaves p (p.firstFailure.getD cause)
  | breaks {i : Nat} {ending : Ending} : p.phase? i = some (.finished ending) → ending ≠ .done →
      (∀ cause, ending ≠ .failed cause) → Leaves p (.internal "task panicked")

section Steps

variable {p q : Pipeline σ} {fresh : ArchivalRequest → σ} {action : Action σ} {cause : GenerationError}

theorem Driver.cause?_of_isLooping {d : Driver} (loops : d.isLooping = true) : d.cause? = none := by
  cases d <;> first | rfl | cases loops

/-- While the driver has not failed, the first failure changes only when one is recorded. -/
theorem firstFailure_of_moves (moves : Moves fresh p action q) (going : q.driver.isFailing = false) :
    q.firstFailure = p.firstFailure ∨ ∃ i cause, action = .unwind i ∧ p.phase? i = some (.ended (.failed cause)) ∧
      q.firstFailure = p.firstFailure.or (some cause) := by
  have next := signals_of_moves moves
  change q.signals.driver.isFailing = false at going
  show q.signals.firstFailure = p.firstFailure ∨ ∃ i cause, action = .unwind i ∧
    p.phase? i = some (.ended (.failed cause)) ∧ q.signals.firstFailure = p.firstFailure.or (some cause)
  generalize q.signals = s at next going
  cases next with
  | record found => exact .inr ⟨_, _, rfl, found, rfl⟩
  | seeFlag | joinFailed => cases going
  | _ => exact .inl rfl

/-- The driver keeps its failure, and gets one only where it leaves its loop. -/
theorem leaves_of_moves (moves : Moves fresh p action q) (failed : q.driver.cause? = some cause) :
    p.driver.cause? = some cause ∨ p.driver.isFailing = false ∧ p.Leaves cause := by
  have next := signals_of_moves moves
  change q.signals.driver.cause? = some cause at failed
  generalize q.signals = s at next failed
  cases next with
  | goOn _ _ loops => simp [Driver.cause?_of_isLooping loops] at failed
  | seeFlag state raised =>
    cases failed
    exact .inr ⟨by rw [state]; rfl, .sees raised⟩
  | joinFailed state found =>
    cases failed
    exact .inr ⟨by rw [state]; rfl, .joins found⟩
  | joinBroken state found notDone notFailed =>
    cases failed
    exact .inr ⟨by rw [state]; rfl, .breaks found notDone notFailed⟩
  | raiseFlag state | closeBudget state | sealQueue state | cancelTasks state | fail state =>
    rw [state]
    exact .inl failed
  | succeed | abandon => cases failed
  | _ => exact .inl failed

end Steps

/-! ## Whom a failure is put down to -/

/-- What a pipeline may fail with: what some item has failed with by itself, a panic and, if the flag was raised from
outside, that it was aborted. -/
inductive Blame (outside : Prop) (p : Pipeline σ) : GenerationError → Prop
  | item {cause : GenerationError} : p.Tells cause → cause ≠ .aborted → Blame outside p cause
  | panic : p.Panicked → Blame outside p (.internal "task panicked")
  | outside : outside → Blame outside p .aborted

/-- Something inside the pipeline has gone wrong. -/
def Troubled (p : Pipeline σ) : Prop := p.driver.isFailing = true ∨ ∃ cause, p.Tells cause

/-- Whoever finds a signal set can tell why, where `outside` says whether the flag may have been raised from outside. -/
structure Blamed (outside : Prop) (p : Pipeline σ) : Prop where
  heard : p.driver.isFailing = false → ∀ cause, p.Tells cause → p.firstFailure ≠ none
  first : p.driver.isFailing = false → ∀ cause, p.firstFailure = some cause → Blame outside p cause
  cause : ∀ cause, p.driver.cause? = some cause → Blame outside p cause
  closed : p.budgetClosed = true → p.Troubled
  raised : p.raised = true → outside ∨ p.Troubled
  abandoned : p.abandoned = true → outside
  dropped : p.driver = .dropped → outside
  aborted : ∀ i x, p.phase? i = some x → x.ending? = some (.failed .aborted) → p.raised = true

section Steps

variable {p q : Pipeline σ} {fresh : ArchivalRequest → σ} {action : Action σ} {outside outside' : Prop}

theorem Blame.moves {cause : GenerationError} (h : Blame outside p cause) (coherent : Coherent p)
    (moves : Moves fresh p action q) : Blame outside q cause := by
  cases h with
  | item tells own => exact .item (tells.moves coherent moves) own
  | panic panicked => exact .panic (panicked.moves coherent moves)
  | outside told => exact .outside told

theorem Blamed.mono (h : Blamed outside p) (more : outside → outside') : Blamed outside' p := by
  have blame {cause : GenerationError} (b : Blame outside p cause) : Blame outside' p cause := by
    cases b with
    | item tells own => exact .item tells own
    | panic panicked => exact .panic panicked
    | outside told => exact .outside (more told)
  exact
    { h with
      first := fun going cause known => blame (h.first going cause known)
      cause := fun cause failed => blame (h.cause cause failed)
      raised := fun raised => (h.raised raised).imp_left more
      abandoned := fun abandoned => more (h.abandoned abandoned)
      dropped := fun dropped => more (h.dropped dropped) }

theorem Troubled.moves (h : p.Troubled) (coherent : Coherent p) (moves : Moves fresh p action q) : q.Troubled := by
  rcases h with failing | ⟨cause, tells⟩
  · exact .inl ((later_of_moves moves).failing failing)
  · exact .inr ⟨cause, tells.moves coherent moves⟩

namespace Blamed

theorem start {parallelism : Nat} (h : Pipeline.start parallelism = .ok p) : Blamed outside p := by
  unfold Pipeline.start at h
  split at h <;> cases h
  constructor <;> simp [Tells, phase?, Driver.cause?]

/-- While the driver has not failed and nobody has raised the flag from outside, somebody has recorded a failure if the
flag is raised. -/
theorem firstFailure_ne_none (h : Blamed outside p) (going : p.driver.isFailing = false) (raised : p.raised = true)
    (alone : ¬ outside) : p.firstFailure ≠ none := by
  rcases (h.raised raised).resolve_left alone with failing | ⟨cause, tells⟩
  · simp [going] at failing
  · exact h.heard going cause tells

/-- A task that the driver joins without a result has panicked, for none is cancelled while the driver has not failed. -/
theorem panicked_of_joined (coherent : Coherent p) (orderly : Orderly p) (going : p.driver.isFailing = false) {i : Nat}
    {ending : Ending} (found : p.phase? i = some (.finished ending)) (notDone : ending ≠ .done)
    (notFailed : ∀ cause, ending ≠ .failed cause) : p.Panicked := by
  have ofTask : ending.isOfTask = true := coherent.proper i _ found
  cases ending with
  | done => exact absurd rfl notDone
  | failed cause => exact absurd rfl (notFailed cause)
  | panicked => exact ⟨i, _, found, rfl⟩
  | cancelled =>
    have failing := orderly.signals.told (orderly.cancelled i _ found rfl)
    simp [signals, going] at failing
  | _ => cases ofTask

/-- What the driver leaves its loop with can be put down to somebody. -/
theorem blame_of_leaves (h : Blamed outside p) (coherent : Coherent p) (orderly : Orderly p)
    (going : p.driver.isFailing = false) {cause : GenerationError} (leaves : p.Leaves cause) :
    Blame outside p cause := by
  cases leaves with
  | sees raised =>
    cases known : p.firstFailure with
    | some first => exact h.first going first known
    | none =>
      have told : outside := by
        by_contra alone
        exact h.firstFailure_ne_none going raised alone known
      exact .outside told
  | @joins i own found =>
    have some := h.heard going own ⟨i, _, found, rfl⟩
    obtain ⟨first, known⟩ := Option.ne_none_iff_exists'.1 some
    rw [known]
    exact h.first going first known
  | breaks found notDone notFailed => exact .panic (panicked_of_joined coherent orderly going found notDone notFailed)

/-- A failure that is the first to be recorded can be put down to somebody. -/
theorem blame_of_recorded (h : Blamed outside p) (going : p.driver.isFailing = false) {i : Nat} {cause : GenerationError}
    (moves : Moves fresh p (.unwind i) q) (failed : p.phase? i = some (.ended (.failed cause)))
    (none : p.firstFailure = none) : Blame outside q cause := by
  by_cases own : cause = .aborted
  · subst own
    have raised := h.aborted i _ failed rfl
    refine .outside ?_
    by_contra alone
    exact h.firstFailure_ne_none going raised alone none
  · exact .item ⟨i, _, (record_of_moves moves failed).1, rfl⟩ own

/-- Every step keeps track of who is to blame, as long as the flag is raised from outside only with leave and only work
that has seen the flag fails as aborted. -/
theorem step (h : Blamed outside p) (coherent : Coherent p) (orderly : Orderly p) (moves : Moves fresh p action q)
    (leave : action = .abort ∨ action = .dropHandle → outside)
    (aborts : ∀ i, action = .finishWork i (.failed .aborted) → p.raised = true) : Blamed outside q := by
  have later := later_of_moves moves
  have going : q.driver.isFailing = false → p.driver.isFailing = false := by
    intro going
    by_contra failing
    have := later.failing (by simpa [signals] using failing)
    simp [signals, going] at this
  have trouble : p.Troubled → q.Troubled := fun troubled => troubled.moves coherent moves
  have tells {i : Nat} {x : Phase σ} {cause : GenerationError} (found : p.phase? i = some x)
      (told : x.told? = some cause) : q.Troubled := trouble (.inr ⟨cause, i, x, found, told⟩)
  refine ⟨fun goes cause tells => ?_, fun goes cause known => ?_, fun cause failed => ?_, fun closed => ?_,
    fun raised => ?_, fun abandoned => ?_, fun dropped => ?_, fun i y found failed => ?_⟩
  · rcases firstFailure_of_moves moves goes with same | ⟨i, own, -, -, recorded⟩
    · rcases tells_of_moves coherent moves tells with before | ⟨i, rfl, failed⟩
      · rw [same]
        exact h.heard (going goes) cause before
      · simp [(record_of_moves moves failed).2.1]
    · simp [recorded]
  · rcases firstFailure_of_moves moves goes with same | ⟨i, own, rfl, failed, recorded⟩
    · exact (h.first (going goes) cause (same ▸ known)).moves coherent moves
    · cases before : p.firstFailure with
      | some first =>
        obtain rfl : first = cause := by simpa [recorded, before] using known
        exact (h.first (going goes) first before).moves coherent moves
      | none =>
        obtain rfl : own = cause := by simpa [recorded, before] using known
        exact h.blame_of_recorded (going goes) moves failed before
  · rcases leaves_of_moves moves failed with before | ⟨going, leaves⟩
    · exact (h.cause cause before).moves coherent moves
    · exact (h.blame_of_leaves coherent orderly going leaves).moves coherent moves
  · have next := signals_of_moves moves
    change q.signals.budgetClosed = true at closed
    generalize q.signals = s at next closed
    cases next with
    | shut found => exact tells found rfl
    | closeBudget state => exact trouble (.inl (by rw [state]; rfl))
    | _ => exact trouble (h.closed closed)
  · have next := signals_of_moves moves
    change q.signals.raised = true at raised
    generalize q.signals = s at next raised
    cases next with
    | abort => exact .inl (leave (.inl rfl))
    | dropRunning => exact .inl (leave (.inr rfl))
    | flag found => exact .inr (tells found rfl)
    | raiseFlag state => exact .inr (trouble (.inl (by rw [state]; rfl)))
    | _ => exact (h.raised raised).imp_right trouble
  · have next := signals_of_moves moves
    change q.signals.abandoned = true at abandoned
    generalize q.signals = s at next abandoned
    cases next with
    | dropRunning => exact leave (.inr rfl)
    | _ => exact h.abandoned abandoned
  · have next := signals_of_moves moves
    change q.signals.driver = .dropped at dropped
    generalize q.signals = s at next dropped
    cases next with
    | abandon told => exact h.abandoned told
    | goOn _ _ loops =>
      simp only at dropped
      simp [dropped, Driver.isLooping] at loops
    | succeed | seeFlag | joinFailed | joinBroken | raiseFlag | closeBudget | sealQueue | cancelTasks | fail =>
      cases dropped
    | _ => exact h.dropped dropped
  · obtain ⟨request, inside⟩ := items_of_phase? found
    apply later.raised
    obtain ⟨x, before, moved⟩ | ⟨-, -, begins⟩ := origin_of_moves coherent moves inside
    · cases Phase.ends_of_moved moved failed with
      | inl already => exact h.aborted i x (phase?_of_items before) already
      | inr ends =>
        cases ends with
        | own _ same => exact aborts i same
    · obtain rfl | rfl | rfl := begins <;> cases failed

end Blamed

/-! ## The failure that was recorded first -/

/-- This is what the pipeline fails with: some item has told it, and it is the first failure, which the driver takes when
it leaves its loop. -/
structure Leading (cause : GenerationError) (p : Pipeline σ) : Prop where
  told : p.Tells cause
  kept : p.driver.isFailing = false ∧ p.firstFailure = some cause ∨ p.driver.cause? = some cause ∨ p.driver = .dropped

theorem Driver.cause?_of_isFailing {d : Driver} (failing : d.isFailing = true) :
    (∃ cause, d.cause? = some cause) ∨ d = .dropped := by
  cases d with
  | raising cause | shutting cause | sealing cause | cancelling cause | draining cause => exact .inl ⟨cause, rfl⟩
  | finished result =>
    cases result with
    | error cause => exact .inl ⟨cause, rfl⟩
    | ok => cases failing
  | dropped => exact .inr rfl
  | _ => cases failing

theorem Driver.isFailing_of_cause? {d : Driver} {cause : GenerationError} (failed : d.cause? = some cause) :
    d.isFailing = true := by
  cases d with
  | finished result =>
    cases result with
    | error => rfl
    | ok => cases failed
  | _ => first | rfl | cases failed

/-- The driver takes this failure when it leaves its loop, or has taken it, unless it was stopped. -/
def Takes (cause : GenerationError) (p : Pipeline σ) : Prop :=
  p.driver.isFailing = false ∧ p.firstFailure = some cause ∨ p.driver.cause? = some cause ∨ p.driver = .dropped

/-- Every step leaves it at that, unless an item has panicked. -/
theorem Takes.moves {cause : GenerationError} (h : p.Takes cause) (coherent : Coherent p) (orderly : Orderly p)
    (sane : ¬ p.Panicked) (moves : Moves fresh p action q) : q.Takes cause := by
  -- a driver that leaves its loop takes the first failure
  have taken : p.driver.isFailing = false → p.firstFailure = some cause → ∀ own, p.Leaves own → own = cause := by
    intro going first own leaves
    cases leaves with
    | sees | joins => simp [first]
    | breaks found notDone notFailed =>
      exact absurd (Blamed.panicked_of_joined coherent orderly going found notDone notFailed) sane
  cases failing : q.driver.isFailing with
  | false =>
    have going : p.driver.isFailing = false := by
      by_contra failed
      have := (later_of_moves moves).failing (by simpa [signals] using failed)
      simp [signals, failing] at this
    rcases h with ⟨-, first⟩ | failed | dropped
    · refine .inl ⟨failing, ?_⟩
      rcases firstFailure_of_moves moves failing with same | ⟨_, _, -, -, recorded⟩
      · rw [same, first]
      · rw [recorded, first]
        rfl
    · simp [Driver.isFailing_of_cause? failed] at going
    · simp [dropped, Driver.isFailing] at going
  | true =>
    rcases Driver.cause?_of_isFailing failing with ⟨own, failed⟩ | dropped
    · refine .inr (.inl ?_)
      rw [failed, Option.some.injEq]
      rcases leaves_of_moves moves failed with before | ⟨going, leaves⟩
      · rcases h with ⟨going, -⟩ | same | dropped
        · simp [Driver.isFailing_of_cause? before] at going
        · exact Option.some.inj (before.symm.trans same)
        · simp [dropped, Driver.cause?] at before
      · rcases h with ⟨-, first⟩ | same | dropped
        · exact taken going first own leaves
        · simp [Driver.isFailing_of_cause? same] at going
        · simp [dropped, Driver.isFailing] at going
    · exact .inr (.inr dropped)

namespace Leading

variable {cause : GenerationError}

/-- Every step leaves it at that, unless an item has panicked. -/
theorem moves (h : Leading cause p) (coherent : Coherent p) (orderly : Orderly p) (sane : ¬ p.Panicked)
    (moves : Moves fresh p action q) : Leading cause q :=
  ⟨h.told.moves coherent moves, Takes.moves h.kept coherent orderly sane moves⟩

/-- The result is the failure. -/
theorem result (h : Leading cause p) (coherent : Coherent p) {result : Except GenerationError Nat}
    (finished : p.driver = .finished result) : result = .error cause := by
  cases result with
  | ok count =>
    obtain ⟨i, x, found, told⟩ := h.told
    obtain rfl | rfl | rfl := (coherent.over_of_success finished).2 i x found <;> cases told
  | error own =>
    rcases h.kept with ⟨going, -⟩ | failed | dropped
    · simp [finished, Driver.isFailing] at going
    · rw [finished] at failed
      cases failed
      rfl
    · simp [finished] at dropped

end Leading

/-- The first item that records a failure leads, unless the flag was raised from outside or an item has panicked. -/
theorem Blamed.leading_of_record (h : Blamed outside p) (alone : ¬ outside) (sane : ¬ p.Panicked)
    (untold : ∀ cause, ¬ p.Tells cause) {i : Nat} {cause : GenerationError} (moves : Moves fresh p (.unwind i) q)
    (failed : p.phase? i = some (.ended (.failed cause))) : Leading cause q ∧ cause ≠ .aborted := by
  have blameless : ∀ own, ¬ Blame outside p own := by
    rintro own (⟨tells, -⟩ | panicked | told)
    · exact untold own tells
    · exact sane panicked
    · exact alone told
  have going : p.driver.isFailing = false := by
    by_contra failing
    rcases Driver.cause?_of_isFailing (by simpa using failing) with ⟨own, failed⟩ | dropped
    · exact blameless own (h.cause own failed)
    · exact alone (h.dropped dropped)
  have none : p.firstFailure = none := by
    by_contra some
    obtain ⟨own, first⟩ := Option.ne_none_iff_exists'.1 some
    exact blameless own (h.first going own first)
  obtain ⟨now, first, driver⟩ := record_of_moves moves failed
  refine ⟨⟨⟨i, _, now, rfl⟩, .inl ⟨by rw [driver]; exact going, by rw [first, none]; rfl⟩⟩, ?_⟩
  rintro rfl
  exact h.firstFailure_ne_none going (h.aborted i _ failed rfl) alone none

end Steps
end ChainArchive.Pipeline
