import ChainArchive.Event
import ChainArchive.Transition

/-!
# The archival pipeline

A producer enqueues items, a driver takes them out of a queue and starts a task
for each. A permit is taken before an item enters the queue and given back when
its task is done with it, so as many items are in flight as there are permits,
and the producer waits while all permits are taken. The first failing item
tells its error, closes the budget of permits and raises the abort flag before
it gives its place free.

Every step below is one atomic access to what the producer, the driver and the
tasks share; the machine takes every order of them.
-/

namespace ChainArchive
set_option autoImplicit false

namespace Pipeline

/-- How an item comes to its end. -/
inductive Ending
  /-- Its work is done. -/
  | done
  /-- Its work failed. -/
  | failed (cause : GenerationError)
  /-- Its work panicked. -/
  | panicked
  /-- Its task was cancelled. -/
  | cancelled
  /-- It was still queued when the queue was thrown away. -/
  | discarded
  /-- The pipeline did not take it. -/
  | refused
  /-- The producer gave up before the pipeline took it. -/
  | withdrawn
deriving Repr, DecidableEq

/-- The item had a task, which the driver waits for. -/
def Ending.isOfTask : Ending → Bool
  | .done | .failed _ | .panicked | .cancelled => true
  | .discarded | .refused | .withdrawn => false

/-- Where an item is on its way. -/
inductive Phase (σ : Type)
  /-- It waits for a permit. -/
  | waiting
  /-- A permit was handed to it, but the producer has not gone on yet. -/
  | granted
  /-- It has a permit. -/
  | holding
  /-- It has been counted; so many items were in flight then. -/
  | counted (inFlight : Nat)
  /-- The peak has been noted. -/
  | noted
  /-- It is in the queue. -/
  | queued
  /-- Its task works on it. -/
  | working (work : σ)
  /-- It has come to its end, which nobody knows yet. -/
  | ended (ending : Ending)
  /-- Its failure has been recorded. -/
  | recorded (cause : GenerationError)
  /-- Its failure has closed the budget. -/
  | shut (cause : GenerationError)
  /-- Its failure has raised the flag. -/
  | flagged (cause : GenerationError)
  /-- It is no longer counted, but still has its permit. -/
  | uncounted (ending : Ending)
  /-- Its permit is back, but its task has not come to its end. -/
  | freed (ending : Ending)
  /-- Its task waits for the driver. -/
  | finished (ending : Ending)
  /-- Nothing is left of it. -/
  | over (ending : Ending)
deriving Repr, DecidableEq

namespace Phase

variable {σ : Type}

/-- The item has a permit. -/
def hasPermit : Phase σ → Bool
  | .waiting | .freed _ | .finished _ | .over _ => false
  | _ => true

/-- The item is counted as in flight. -/
def isCounted : Phase σ → Bool
  | .waiting | .granted | .holding | .uncounted _ | .freed _ | .finished _ | .over _ => false
  | _ => true

/-- The item has a task that the driver has not joined. -/
def isRunning : Phase σ → Bool
  | .working _ | .recorded _ | .shut _ | .flagged _ => true
  | .ended e | .uncounted e | .freed e | .finished e => e.isOfTask
  | _ => false

/-- The producer is busy with the item: enqueueing it, or giving its place back. -/
def isCalling : Phase σ → Bool
  | .waiting | .granted | .holding | .counted _ | .noted => true
  | .ended e | .uncounted e => !e.isOfTask && e != .discarded
  | _ => false

end Phase

/-- An item and where it is. -/
structure Item (σ : Type) where
  request : ArchivalRequest
  phase : Phase σ
deriving Repr, DecidableEq

/-- What the driver is about to do. -/
inductive Driver
  /-- It sleeps until something happens. -/
  | idle
  /-- It asks whether all is done. -/
  | head
  /-- It looks at the flag. -/
  | watching
  /-- It looks for a finished task. -/
  | joining
  /-- It looks into the queue. -/
  | receiving
  /-- The run has failed: it raises the flag, -/
  | raising (cause : GenerationError)
  /-- closes the budget, -/
  | shutting (cause : GenerationError)
  /-- closes the queue, -/
  | sealing (cause : GenerationError)
  /-- cancels all tasks -/
  | cancelling (cause : GenerationError)
  /-- and waits for them. -/
  | draining (cause : GenerationError)
  /-- It has its result: how many items were completed, or the failure. -/
  | finished (result : Except GenerationError Nat)
  /-- It was aborted together with its handle. -/
  | dropped

end Pipeline

open Pipeline in
/-- A pipeline. Items are named by their number in order of the calls that enqueue them. -/
structure Pipeline (σ : Type) where
  parallelism : Nat
  /-- The permits that nobody has. -/
  free : Nat
  /-- No further permit is handed out. -/
  budgetClosed : Bool := false
  /-- The producer may still enqueue. -/
  inputOpen : Bool := true
  /-- The queue takes nothing more. -/
  queueClosed : Bool := false
  /-- The abort flag. -/
  raised : Bool := false
  /-- The tasks have been told to stop. -/
  cancelling : Bool := false
  /-- The driver has been told to stop. -/
  abandoned : Bool := false
  /-- The first failure that was recorded, until the driver takes it. -/
  firstFailure : Option GenerationError := none
  /-- How many items are in flight, and the most that ever were. -/
  inFlight : Nat := 0
  peak : Nat := 0
  items : List (Item σ) := []
  queue : List Nat := []
  /-- The tasks that have finished, in that order, and were not joined. -/
  unjoined : List Nat := []
  driver : Driver := .idle
  /-- The driver knows that no further item comes. -/
  exhausted : Bool := false
  completed : Nat := 0
  log : List Event := []

namespace Pipeline

variable {σ : Type}

/-- A pipeline with that many permits. -/
def start (parallelism : Nat) : Except GenerationError (Pipeline σ) :=
  if parallelism = 0 then .error (.config "pipeline parallelism must be at least 1")
  else .ok { parallelism, free := parallelism }

/-- The phase of an item. -/
def phase? (p : Pipeline σ) (item : Nat) : Option (Phase σ) := (p.items[item]?).map (·.phase)

/-- Puts an item into another phase. -/
def setPhase (p : Pipeline σ) (item : Nat) (phase : Phase σ) : Pipeline σ :=
  { p with items := p.items.modify item fun i => { i with phase } }

/-- The item waits for a permit. -/
def Item.isWaiting (i : Item σ) : Bool :=
  match i.phase with
  | .waiting => true
  | _ => false

/-- Gives a permit back: it goes to the item that waits longest, unless the budget is closed. -/
def release (p : Pipeline σ) : Pipeline σ :=
  match p.items.findIdx? Item.isWaiting with
  | some item => if p.budgetClosed then { p with free := p.free + 1 } else p.setPhase item .granted
  | none => { p with free := p.free + 1 }

/-- The producer is busy with some item. -/
def isCalling (p : Pipeline σ) : Bool := p.items.any fun i => i.phase.isCalling

/-- Some task was started and not joined. -/
def isRunning (p : Pipeline σ) : Bool := p.items.any fun i => i.phase.isRunning

/-! ## The producer -/

/-- Calls for an item to be enqueued. -/
def call (p : Pipeline σ) (request : ArchivalRequest) : Pipeline σ :=
  let add (phase : Phase σ) : List (Item σ) := p.items ++ [⟨request, phase⟩]
  if !p.inputOpen || p.budgetClosed then { p with items := add (.over .refused) }
  else if p.free = 0 then { p with items := add .waiting }
  else { p with items := add .holding, free := p.free - 1 }

/-- A call goes on, unless it has to wait: for a permit or, if the queue were full, for room in it. -/
def resume (p : Pipeline σ) (item : Nat) : Option (Pipeline σ) := do
  match ← p.phase? item with
  | .waiting => if p.budgetClosed then some (p.setPhase item (.over .refused)) else none
  | .granted =>
    if p.budgetClosed then some (p.setPhase item (.over .refused)).release else some (p.setPhase item .holding)
  | .holding =>
    some { p.setPhase item (.counted (p.inFlight + 1)) with inFlight := p.inFlight + 1 }
  | .counted inFlight => some { p.setPhase item .noted with peak := max p.peak inFlight }
  | .noted =>
    if p.queueClosed then some (p.setPhase item (.ended .refused))
    else if p.queue.length < p.parallelism then some { p.setPhase item .queued with queue := p.queue ++ [item] }
    else none
  | _ => none

/-- A call is given up. -/
def withdraw (p : Pipeline σ) (item : Nat) : Option (Pipeline σ) := do
  match ← p.phase? item with
  | .waiting => some (p.setPhase item (.over .withdrawn))
  | .granted | .holding => some (p.setPhase item (.over .withdrawn)).release
  | .counted _ | .noted => some (p.setPhase item (.ended .withdrawn))
  | _ => none

/-- What a call has come to: `none` while it is under way, else whether the item was taken. -/
def accepted? (p : Pipeline σ) (item : Nat) : Option Bool :=
  match p.phase? item with
  | none | some .waiting | some .granted | some .holding | some (.counted _) | some .noted
  | some (.ended .refused) | some (.uncounted .refused) => none
  | some (.over .refused) => some false
  | some _ => some true

/-- No further item comes. -/
def complete (p : Pipeline σ) : Pipeline σ := { p with inputOpen := false }

/-- Raises the abort flag. -/
def abort (p : Pipeline σ) : Pipeline σ := { p with raised := true }

/-- The driver has ended, one way or the other. -/
def isSettled (p : Pipeline σ) : Bool :=
  match p.driver with
  | .finished _ | .dropped => true
  | _ => false

/-- The handle is dropped; if the driver has not ended, the run is aborted. -/
def dropHandle (p : Pipeline σ) : Pipeline σ :=
  if p.isSettled then { p with inputOpen := false }
  else { p with inputOpen := false, raised := true, abandoned := true }

/-! ## The tasks -/

/-- The work on an item goes on. -/
def setWork (p : Pipeline σ) (item : Nat) (work : σ) : Pipeline σ := p.setPhase item (.working work)

/-- The work on an item has come to an end. -/
def finishWork (p : Pipeline σ) (item : Nat) (ending : Ending) : Pipeline σ := p.setPhase item (.ended ending)

/-- The item is on its way out. A failure is recorded, closes the budget and raises the flag; then the item is
discounted, its permit goes back, and last its task ends. -/
def unwind (p : Pipeline σ) (item : Nat) : Option (Pipeline σ) := do
  match ← p.phase? item with
  | .ended (.failed cause) =>
    some { p.setPhase item (.recorded cause) with firstFailure := p.firstFailure.or (some cause) }
  | .recorded cause => some { p.setPhase item (.shut cause) with budgetClosed := true }
  | .shut cause => some { p.setPhase item (.flagged cause) with raised := true }
  | .flagged cause => some { p.setPhase item (.uncounted (.failed cause)) with inFlight := p.inFlight - 1 }
  | .ended ending => some { p.setPhase item (.uncounted ending) with inFlight := p.inFlight - 1 }
  | .uncounted ending =>
    if ending.isOfTask then some (p.setPhase item (.freed ending)).release
    else some (p.setPhase item (.over ending)).release
  | .freed ending => some { p.setPhase item (.finished ending) with unjoined := p.unjoined ++ [item] }
  | _ => none

/-! ## The driver -/

/-- Takes an item out of the queue and starts its task. -/
def spawn (fresh : ArchivalRequest → σ) (p : Pipeline σ) (item : Nat) (rest : List Nat) : Pipeline σ :=
  let p := { p with queue := rest, driver := .head }
  match p.items[item]? with
  | some i =>
    { p.setPhase item (.working (fresh i.request)) with
      log := p.log ++ [.itemAdmitted i.request.transaction.id i.request.number] }
  | none => p

/-- What the end of a task means for the run. -/
def join (p : Pipeline σ) (ending : Ending) : Pipeline σ :=
  match ending with
  | .done => { p with completed := p.completed + 1, driver := .head }
  | .failed cause => { p with firstFailure := none, driver := .raising (p.firstFailure.getD cause) }
  | _ => { p with driver := .raising (.internal "task panicked") }

/-- The items that are still queued are thrown away. -/
def discardQueue (p : Pipeline σ) : Pipeline σ :=
  { p.queue.foldl (fun p item => p.setPhase item (.ended .discarded)) p with queue := [], queueClosed := true }

/-- The driver goes on, unless it sleeps or waits for tasks to stop. -/
def drive (fresh : ArchivalRequest → σ) (p : Pipeline σ) : Option (Pipeline σ) :=
  match p.driver with
  | .idle | .finished _ | .dropped => none
  | .head =>
    if p.exhausted && !p.isRunning then some { p with driver := .finished (.ok p.completed), queueClosed := true }
    else some { p with driver := .watching }
  | .watching =>
    if p.raised then some { p with firstFailure := none, driver := .raising (p.firstFailure.getD .aborted) }
    else some { p with driver := .joining }
  | .joining =>
    match p.unjoined with
    | item :: rest =>
      match p.phase? item with
      | some (.finished ending) => some ({ p.setPhase item (.over ending) with unjoined := rest }.join ending)
      | _ => some { p with unjoined := rest }
    | [] => some { p with driver := .receiving }
  | .receiving =>
    if p.exhausted then some { p with driver := .idle }
    else
      match p.queue with
      | item :: rest => some (p.spawn fresh item rest)
      | [] =>
        if p.inputOpen then some { p with driver := .idle } else some { p with exhausted := true, driver := .head }
  | .raising cause => some { p with raised := true, driver := .shutting cause }
  | .shutting cause => some { p with budgetClosed := true, driver := .sealing cause }
  | .sealing cause => some { p with queueClosed := true, driver := .cancelling cause }
  | .cancelling cause => some { p with cancelling := true, driver := .draining cause }
  | .draining cause =>
    match p.unjoined with
    | item :: rest =>
      match p.phase? item with
      | some (.finished ending) => some { p.setPhase item (.over ending) with unjoined := rest }
      | _ => some { p with unjoined := rest }
    | [] =>
      if p.isRunning then none
      else
        some { p.discardQueue with
          driver := .finished (.error cause), log := p.log ++ [.pipelineFailed cause p.completed] }

/-- The driver wakes up. It may do so even when it has been told to stop, for the flag is raised before it is told. -/
def wake (p : Pipeline σ) : Option (Pipeline σ) :=
  match p.driver with
  | .idle => some { p with driver := .watching }
  | _ => none

/-- The driver is stopped where it sleeps or waits. -/
def abandon (p : Pipeline σ) : Option (Pipeline σ) :=
  match p.driver with
  | .idle | .draining _ =>
    if p.abandoned then some { p.discardQueue with cancelling := true, driver := .dropped } else none
  | _ => none

/-- There is something that the sleeping driver has not seen. -/
def isAwaited (p : Pipeline σ) : Bool :=
  p.raised || !p.unjoined.isEmpty || (!p.exhausted && (!p.queue.isEmpty || !p.inputOpen))

/-! ## All steps -/

/-- What can happen in a pipeline, whatever the work on an item is. The input is completed and the handle dropped only
while no call is under way. -/
inductive Action (σ : Type)
  | call (request : ArchivalRequest)
  | resume (item : Nat)
  | withdraw (item : Nat)
  | complete
  | abort
  | dropHandle
  /-- The work on an item goes on, -/
  | setWork (item : Nat) (work : σ)
  /-- ends by itself -/
  | finishWork (item : Nat) (ending : Ending)
  /-- or is stopped. -/
  | cancelWork (item : Nat)
  | unwind (item : Nat)
  | wake
  | drive
  | abandon

/-- The work on an item is under way. -/
def isWorking (p : Pipeline σ) (item : Nat) : Bool :=
  match p.phase? item with
  | some (.working _) => true
  | _ => false

/-- The work can end this way by itself. -/
def Ending.isOfWork : Ending → Bool
  | .done | .failed _ | .panicked => true
  | _ => false

/-- The state after an action, if it is possible. -/
def step (fresh : ArchivalRequest → σ) (p : Pipeline σ) : Action σ → Option (Pipeline σ)
  | .call request => some (p.call request)
  | .resume item => p.resume item
  | .withdraw item => p.withdraw item
  | .complete => if p.isCalling then none else some p.complete
  | .abort => some p.abort
  | .dropHandle => if p.isCalling then none else some p.dropHandle
  | .setWork item work => if p.isWorking item then some (p.setWork item work) else none
  | .finishWork item ending =>
    if p.isWorking item && ending.isOfWork then some (p.finishWork item ending) else none
  | .cancelWork item => if p.isWorking item && p.cancelling then some (p.finishWork item .cancelled) else none
  | .unwind item => p.unwind item
  | .wake => p.wake
  | .drive => p.drive fresh
  | .abandon => p.abandon

end Pipeline
end ChainArchive
