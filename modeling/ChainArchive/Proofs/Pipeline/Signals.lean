import ChainArchive.Proofs.Pipeline.Items

/-!
# Signals

The producer, the driver and the items of a pipeline hear of each other through
a few flags, the first failure and the place of the driver. Here is what a step
can do to them. It follows in which order they are set: nobody closes the queue
while the input and the budget are open, and no task is stopped while the driver
is in its loop.
-/

namespace ChainArchive.Pipeline
set_option autoImplicit false

variable {σ : Type}

/-- What the parts of a pipeline tell each other. -/
structure Signals where
  inputOpen : Bool
  budgetClosed : Bool
  queueClosed : Bool
  raised : Bool
  cancelling : Bool
  abandoned : Bool
  firstFailure : Option GenerationError
  driver : Driver

/-- The signals of a pipeline. -/
def signals (p : Pipeline σ) : Signals :=
  ⟨p.inputOpen, p.budgetClosed, p.queueClosed, p.raised, p.cancelling, p.abandoned, p.firstFailure, p.driver⟩

@[simp] theorem signals_release (p : Pipeline σ) : p.release.signals = p.signals := by
  obtain ⟨-, same⟩ | ⟨_, -, -, granted⟩ := release_cases p
  · rw [same]
    rfl
  · rw [granted]
    rfl

theorem signals_discardQueue (p : Pipeline σ) : p.discardQueue.signals = { p.signals with queueClosed := true } := by
  have all : ∀ (queue : List Nat) (p : Pipeline σ),
      (queue.foldl (fun p i => p.setPhase i (.ended .discarded)) p).signals = p.signals := by
    intro queue
    induction queue with
    | nil => exact fun _ => rfl
    | cons i queue ih => exact fun p => ih (p.setPhase i (.ended .discarded))
  exact congrArg (fun s : Signals => { s with queueClosed := true }) (all p.queue p)

/-- The driver is in its loop. -/
def Driver.isLooping : Driver → Bool
  | .idle | .head | .watching | .joining | .receiving => true
  | _ => false

theorem Driver.isFailing_of_isLooping {d : Driver} (loops : d.isLooping = true) : d.isFailing = false := by
  cases d <;> first | rfl | cases loops

/-! ## What a step does to the signals -/

/-- What an action makes of the signals. -/
inductive Signals.Next (p : Pipeline σ) : Action σ → Signals → Prop
  | same (action : Action σ) : Next p action p.signals
  -- the producer
  | complete : Next p .complete { p.signals with inputOpen := false }
  | abort : Next p .abort { p.signals with raised := true }
  | dropEnded : Next p .dropHandle { p.signals with inputOpen := false }
  | dropRunning : Next p .dropHandle { p.signals with inputOpen := false, raised := true, abandoned := true }
  -- an item that has failed
  | record {i : Nat} {cause : GenerationError} : p.phase? i = some (.ended (.failed cause)) →
      Next p (.unwind i) { p.signals with firstFailure := p.firstFailure.or (some cause) }
  | shut {i : Nat} {cause : GenerationError} : p.phase? i = some (.recorded cause) →
      Next p (.unwind i) { p.signals with budgetClosed := true }
  | flag {i : Nat} {cause : GenerationError} : p.phase? i = some (.shut cause) →
      Next p (.unwind i) { p.signals with raised := true }
  -- the driver's loop and the ways out of it
  | goOn {d : Driver} (action : Action σ) : p.driver.isLooping = true → d.isLooping = true →
      Next p action { p.signals with driver := d }
  | succeed : p.driver = .head → p.exhausted = true → p.isRunning = false →
      Next p .drive { p.signals with queueClosed := true, driver := .finished (.ok p.completed) }
  | seeFlag : p.driver = .watching → p.raised = true →
      Next p .drive
        { p.signals with firstFailure := none, driver := .raising (p.firstFailure.getD .aborted) }
  | joinFailed {i : Nat} {cause : GenerationError} : p.driver = .joining →
      p.phase? i = some (.finished (.failed cause)) →
      Next p .drive { p.signals with firstFailure := none, driver := .raising (p.firstFailure.getD cause) }
  | joinBroken {i : Nat} {ending : Ending} : p.driver = .joining → p.phase? i = some (.finished ending) →
      ending ≠ .done → (∀ cause, ending ≠ .failed cause) →
      Next p .drive { p.signals with driver := .raising (.internal "task panicked") }
  -- the driver after it has left its loop with a failure
  | raiseFlag {cause : GenerationError} : p.driver = .raising cause →
      Next p .drive { p.signals with raised := true, driver := .shutting cause }
  | closeBudget {cause : GenerationError} : p.driver = .shutting cause →
      Next p .drive { p.signals with budgetClosed := true, driver := .sealing cause }
  | sealQueue {cause : GenerationError} : p.driver = .sealing cause →
      Next p .drive { p.signals with queueClosed := true, driver := .cancelling cause }
  | cancelTasks {cause : GenerationError} : p.driver = .cancelling cause →
      Next p .drive { p.signals with cancelling := true, driver := .draining cause }
  | fail {cause : GenerationError} : p.driver = .draining cause → p.isRunning = false →
      Next p .drive { p.signals with queueClosed := true, driver := .finished (.error cause) }
  | abandon : p.abandoned = true →
      Next p .abandon { p.signals with queueClosed := true, cancelling := true, driver := .dropped }

section Steps

variable {p q : Pipeline σ} {fresh : ArchivalRequest → σ} {action : Action σ}

theorem signals_spawn (p : Pipeline σ) (i : Nat) (rest : List Nat) :
    (p.spawn fresh i rest).signals = { p.signals with driver := .head } := by
  unfold spawn
  dsimp only
  split <;> rfl

/-- Every step changes the signals in one of the listed ways. -/
theorem signals_of_moves (moves : Moves fresh p action q) : Signals.Next p action q.signals := by
  cases moves with
  | refuseGranted | withdrawGranted | withdrawHolding | freeTask | freeCall =>
    rw [signals_release]
    exact .same _
  | complete => exact .complete
  | abort => exact .abort
  | dropHandle =>
    unfold dropHandle
    split
    · exact .dropEnded
    · exact .dropRunning
  | record found => exact .record found
  | shut found => exact .shut found
  | flag found => exact .flag found
  | wake state | watch state | seeNoFlag state | receive state | rest state | await state | exhaust state =>
    exact .goOn _ (by rw [state]; rfl) rfl
  | spawn state =>
    rw [signals_spawn]
    exact .goOn _ (by rw [state]; rfl) rfl
  | joinNobody state => exact .goOn (d := .joining) _ (by rw [state]; rfl) rfl
  | succeed state known stopped => exact .succeed state known stopped
  | seeFlag state raised => exact .seeFlag state raised
  | @join _ _ ending state _ found =>
    cases ending with
    | done => exact .goOn (d := .head) _ (by rw [state]; rfl) rfl
    | failed => exact .joinFailed state found
    | _ => exact .joinBroken state found (by simp) (by simp)
  | raiseFlag state => exact .raiseFlag state
  | closeBudget state => exact .closeBudget state
  | sealQueue state => exact .sealQueue state
  | cancelTasks state => exact .cancelTasks state
  | drainNobody state =>
    rw [← state]
    exact .same _
  | @fail cause state _ stopped =>
    show Signals.Next p _ { p.discardQueue.signals with driver := .finished (.error cause) }
    rw [signals_discardQueue]
    exact .fail state stopped
  | abandon _ told =>
    show Signals.Next p _ { p.discardQueue.signals with cancelling := true, driver := .dropped }
    rw [signals_discardQueue]
    exact .abandon told
  | _ => exact .same _

/-! ## What is never taken back -/

/-- One state of the signals can come after another. -/
structure Signals.Later (s t : Signals) : Prop where
  input : s.inputOpen = false → t.inputOpen = false
  budget : s.budgetClosed = true → t.budgetClosed = true
  queue : s.queueClosed = true → t.queueClosed = true
  raised : s.raised = true → t.raised = true
  cancelling : s.cancelling = true → t.cancelling = true
  failing : s.driver.isFailing = true → t.driver.isFailing = true

theorem later_of_moves (moves : Moves fresh p action q) : p.signals.Later q.signals := by
  have next := signals_of_moves moves
  generalize q.signals = s at next
  cases next with
  | goOn _ loops =>
    refine ⟨id, id, id, id, id, fun failing => ?_⟩
    exact absurd (Driver.isFailing_of_isLooping loops) (by simpa [signals] using failing)
  | succeed state | seeFlag state | joinFailed state | joinBroken state =>
    constructor <;> simp [signals, state, Driver.isFailing]
  | _ => constructor <;> simp_all [signals, Driver.isFailing]

/-- Only the producer closes the input. -/
theorem inputOpen_of_moves (moves : Moves fresh p action q) (complete : action ≠ .complete)
    (dropHandle : action ≠ .dropHandle) : q.inputOpen = p.inputOpen := by
  have next := signals_of_moves moves
  show q.signals.inputOpen = p.inputOpen
  generalize q.signals = s at next
  cases next with
  | complete => exact absurd rfl complete
  | dropEnded | dropRunning => exact absurd rfl dropHandle
  | _ => rfl

/-- Only the producer drops the handle. -/
theorem abandoned_of_moves (moves : Moves fresh p action q) (dropHandle : action ≠ .dropHandle) :
    q.abandoned = p.abandoned := by
  have next := signals_of_moves moves
  show q.signals.abandoned = p.abandoned
  generalize q.signals = s at next
  cases next with
  | dropRunning => exact absurd rfl dropHandle
  | _ => rfl

/-- Nothing further is taken. -/
def Closed (p : Pipeline σ) : Prop := p.inputOpen = false ∨ p.budgetClosed = true

theorem Closed.moves (h : p.Closed) (moves : Moves fresh p action q) : q.Closed :=
  h.imp (later_of_moves moves).input (later_of_moves moves).budget

/-- A call is refused at once only when nothing further is taken. -/
theorem closed_of_call_refused {request : ArchivalRequest} (moves : Moves fresh p (.call request) q)
    (refused : q.phase? p.items.length = some (.over .refused)) : p.Closed := by
  cases moves with
  | callRefused closed => exact closed
  | callWaits | callHolds => simp [phase?] at refused

/-! ## The order in which things are closed -/

/-- How many of the four things the failing driver has done: raise the flag, close the budget, close the queue and tell
the tasks to stop. -/
def Driver.measures : Driver → Nat
  | .shutting _ => 1
  | .sealing _ => 2
  | .cancelling _ => 3
  | .draining _ | .finished (.error _) => 4
  | _ => 0

theorem Driver.measures_of_isLooping {d : Driver} (loops : d.isLooping = true) : d.measures = 0 := by
  cases d <;> first | rfl | cases loops

/-- What is closed is closed in order. -/
structure Signals.InOrder (s : Signals) : Prop where
  raised : 1 ≤ s.driver.measures → s.raised = true
  shut : 2 ≤ s.driver.measures → s.budgetClosed = true
  closed : 3 ≤ s.driver.measures → s.queueClosed = true
  stopping : 4 ≤ s.driver.measures → s.cancelling = true
  left : s.abandoned = true → s.inputOpen = false
  dropped : s.driver = .dropped → s.abandoned = true
  sealed : s.queueClosed = true → s.inputOpen = false ∨ s.budgetClosed = true
  told : s.cancelling = true → s.driver.isFailing = true

theorem Signals.InOrder.next {s : Signals} (h : p.signals.InOrder) (coherent : Coherent p)
    (next : Signals.Next p action s) : s.InOrder := by
  cases next with
  | same | record => exact { h with }
  | complete | dropEnded => exact { h with left := fun _ => rfl, sealed := fun _ => .inl rfl }
  | dropRunning =>
    exact { h with raised := fun _ => rfl, left := fun _ => rfl, dropped := fun _ => rfl, sealed := fun _ => .inl rfl }
  | abort | flag => exact { h with raised := fun _ => rfl }
  | shut => exact { h with shut := fun _ => rfl, sealed := fun _ => .inr rfl }
  | @goOn d _ loops goes =>
    have none := Driver.measures_of_isLooping goes
    refine { h with raised := ?_, shut := ?_, closed := ?_, stopping := ?_, dropped := ?_, told := fun told => ?_ }
    · simp [none]
    · simp [none]
    · simp [none]
    · simp [none]
    · rintro rfl
      cases goes
    · have failing : p.driver.isFailing = true := h.told told
      simp [Driver.isFailing_of_isLooping loops] at failing
  | succeed state known =>
    have going : p.driver.isFailing = false := by rw [state]; rfl
    refine { h with
      raised := nofun, shut := nofun, closed := nofun, stopping := nofun, dropped := nofun
      sealed := fun _ => .inl (coherent.exhausted known).1, told := fun told => ?_ }
    have failing : p.driver.isFailing = true := h.told told
    simp [going] at failing
  | seeFlag | joinFailed | joinBroken =>
    exact { h with
      raised := nofun, shut := nofun, closed := nofun, stopping := nofun, dropped := nofun, told := fun _ => rfl }
  -- a failing driver keeps what it has done and does one thing more
  | raiseFlag state =>
    refine { h with
      raised := fun _ => rfl, shut := ?_, closed := ?_, stopping := ?_, dropped := nofun, told := fun _ => rfl }
    all_goals simp [Driver.measures]
  | closeBudget state =>
    have done : p.signals.driver.measures = 1 := by simp only [signals, state, Driver.measures]
    refine { h with
      raised := fun _ => h.raised (by omega), shut := fun _ => rfl, closed := ?_, stopping := ?_, dropped := nofun
      sealed := fun _ => .inr rfl, told := fun _ => rfl }
    all_goals simp [Driver.measures]
  | sealQueue state =>
    have done : p.signals.driver.measures = 2 := by simp only [signals, state, Driver.measures]
    have shut := h.shut (by omega)
    refine { h with
      raised := fun _ => h.raised (by omega), shut := fun _ => shut, closed := fun _ => rfl, stopping := ?_
      dropped := nofun, sealed := fun _ => .inr shut, told := fun _ => rfl }
    simp [Driver.measures]
  | cancelTasks state =>
    have done : p.signals.driver.measures = 3 := by simp only [signals, state, Driver.measures]
    exact { h with
      raised := fun _ => h.raised (by omega), shut := fun _ => h.shut (by omega), closed := fun _ => h.closed (by omega)
      stopping := fun _ => rfl, dropped := nofun, told := fun _ => rfl }
  | fail state =>
    have done : p.signals.driver.measures = 4 := by simp only [signals, state, Driver.measures]
    have shut := h.shut (by omega)
    exact { h with
      raised := fun _ => h.raised (by omega), shut := fun _ => shut, closed := fun _ => rfl
      stopping := fun _ => h.stopping (by omega), dropped := nofun, sealed := fun _ => .inr shut, told := fun _ => rfl }
  | abandon told =>
    exact { h with
      raised := nofun, shut := nofun, closed := nofun, stopping := nofun, dropped := fun _ => told
      sealed := fun _ => .inl (h.left told), told := fun _ => rfl }

/-- What is closed is closed in order, items that are refused, thrown away or cancelled tell what was closed before, and
no task is left when the driver has its result. -/
structure Orderly (p : Pipeline σ) : Prop where
  signals : p.signals.InOrder
  unwanted : ∀ i x, p.phase? i = some x → x.ending? = some .refused ∨ x.ending? = some .discarded → p.Closed
  cancelled : ∀ i x, p.phase? i = some x → x.ending? = some .cancelled → p.cancelling = true
  stopped : ∀ result, p.driver = .finished result → ∀ i x, p.phase? i = some x → x.isRunning = false

/-- Only the driver's loop starts a task. -/
theorem Phase.isRunning_of_moved {first : σ} {i : Nat} {x y : Phase σ} (h : Phase.Moved p first action i x y)
    (stopped : x.isRunning = false) (busy : p.driver ≠ .receiving) : y.isRunning = false := by
  cases h with
  | same => exact stopped
  | next h =>
    cases h with
    | begin receives => exact absurd receives busy
    | _ => first | exact stopped | rfl
  | withdraw _ _ _ given => obtain rfl | rfl := given <;> rfl
  | work | done | record => cases stopped

/-- When the driver gets its result no task is left. -/
theorem stopped_of_finished {result : Except GenerationError Nat}
    (before : ∀ result, p.driver = .finished result → ∀ i x, p.phase? i = some x → x.isRunning = false)
    (moves : Moves fresh p action q) (finished : q.driver = .finished result) :
    (∀ i x, p.phase? i = some x → x.isRunning = false) ∧ p.driver ≠ .receiving := by
  have next := signals_of_moves moves
  change q.signals.driver = .finished result at finished
  generalize q.signals = s at next finished
  cases next with
  | goOn _ _ loops =>
    simp only at finished
    simp [finished, Driver.isLooping] at loops
  | succeed state _ stopped | fail state stopped => exact ⟨isRunning_eq_false_iff.1 stopped, by simp [state]⟩
  | seeFlag | joinFailed | joinBroken | raiseFlag | closeBudget | sealQueue | cancelTasks | abandon => cases finished
  | _ =>
    change p.driver = .finished result at finished
    exact ⟨before result finished, by simp [finished]⟩

namespace Orderly

theorem start {parallelism : Nat} (h : Pipeline.start parallelism = .ok p) : Orderly p := by
  unfold Pipeline.start at h
  split at h <;> cases h
  refine ⟨?_, ?_, ?_, ?_⟩
  · constructor <;> simp [Pipeline.signals, Driver.measures]
  all_goals simp [phase?]

/-- Every step keeps the order. -/
theorem step (h : Orderly p) (coherent : Coherent p) (moves : Moves fresh p action q) : Orderly q := by
  have later := later_of_moves moves
  refine ⟨h.signals.next coherent (signals_of_moves moves), fun i y found unwanted => ?_, fun i y found ended => ?_,
    fun result finished i y found => ?_⟩
  · obtain ⟨request, inside⟩ := items_of_phase? found
    obtain ⟨x, before, moved⟩ | ⟨rfl, rfl, begins⟩ := origin_of_moves coherent moves inside
    · apply Closed.moves _ moves
      have old := h.unwanted i x (phase?_of_items before)
      have sealed : p.queueClosed = true → p.Closed := h.signals.sealed
      rcases unwanted with refused | discarded
      · cases Phase.ends_of_moved moved refused with
        | inl already => exact old (.inl already)
        | inr ends =>
          cases ends with
          | refused _ closed => exact closed.elim .inr sealed
          | own _ _ own => cases own
      · cases Phase.ends_of_moved moved discarded with
        | inl already => exact old (.inr already)
        | inr ends =>
          cases ends with
          | discarded _ stopped =>
            obtain ⟨cause, state⟩ | told := stopped
            · exact .inr (h.signals.shut (by simp [Pipeline.signals, state, Driver.measures]))
            · exact .inl (h.signals.left told)
          | own _ _ own => cases own
    · obtain rfl | rfl | rfl := begins
      · exact (closed_of_call_refused moves found).moves moves
      · rcases unwanted with ended | ended <;> cases ended
      · rcases unwanted with ended | ended <;> cases ended
  · obtain ⟨request, inside⟩ := items_of_phase? found
    apply later.cancelling
    obtain ⟨x, before, moved⟩ | ⟨-, -, begins⟩ := origin_of_moves coherent moves inside
    · cases Phase.ends_of_moved moved ended with
      | inl already => exact h.cancelled i x (phase?_of_items before) already
      | inr ends =>
        cases ends with
        | cancelled _ told => exact told
        | own _ _ own => cases own
    · obtain rfl | rfl | rfl := begins <;> cases ended
  · obtain ⟨stopped, busy⟩ := stopped_of_finished h.stopped moves finished
    obtain ⟨request, inside⟩ := items_of_phase? found
    obtain ⟨x, before, moved⟩ | ⟨-, -, begins⟩ := origin_of_moves coherent moves inside
    · exact Phase.isRunning_of_moved moved (stopped i x (phase?_of_items before)) busy
    · obtain rfl | rfl | rfl := begins <;> rfl

end Orderly
end Steps
end ChainArchive.Pipeline
