import ChainArchive.Archiver

/-!
# Runs over a store

A run walks a chain backwards, one lookup at a time, and enqueues what it finds
with its position. When it has reached the head it completes the pipeline and
waits for it; when something fails it waits for the pipeline to stop and tells
the failure that came first.

A world is one store and all runs over it. Its steps are those of the walkers,
the drivers and the items, and what comes from outside: answers of transforms,
timeouts, runs that are begun and dropped.
-/

namespace ChainArchive
set_option autoImplicit false

open Archiver (Work Effect)

/-! ## The walker -/

/-- How a walk ended. -/
inductive WalkEnd
  /-- The head was reached. -/
  | complete
  /-- The pipeline took nothing more. -/
  | closed
  /-- The walk itself failed. -/
  | failed (cause : GenerationError)
deriving Repr, DecidableEq

/-- What the walker is about to do. -/
inductive Walker
  /-- It looks at the flag before it goes to a record. -/
  | checking (current : TransactionId)
  /-- It asked the store for a record; the store has been told to answer or not. -/
  | finding (current : TransactionId) (asked : Nat) (answering : Bool)
  /-- It has a record. -/
  | resolved (transaction : Transaction)
  /-- It waits for the pipeline to take the item. -/
  | enqueueing (item : Nat) (previous : Option TransactionId)
  /-- The walk is over. -/
  | walked (outcome : WalkEnd)
  /-- The pipeline gets no further input. -/
  | closing (outcome : WalkEnd)
  /-- It waits for the pipeline. -/
  | awaiting (outcome : WalkEnd)
  /-- The run has been dropped and gives up what it holds. -/
  | leaving
  /-- The run is over. -/
  | finished (result : Except GenerationError Receipt)
  /-- The run has been dropped. -/
  | dropped

/-- The result of a run whose walk ended so and whose pipeline ended so: how many items were relocated, or the first
failure. -/
def WalkEnd.result : WalkEnd → Except GenerationError Nat → Except GenerationError Nat
  | .complete, result => result
  | .closed, .error cause => .error cause
  | .closed, .ok _ => .error .pipelineClosed
  | .failed own, .error cause => if cause = .aborted then .error own else .error cause
  | .failed own, .ok _ => .error own

/-- One run. -/
structure Run where
  statement : StatementId
  settings : GenerationSettings
  walker : Walker
  /-- The ids that were gone to, in order. -/
  visited : List TransactionId := []
  /-- How many lookups were begun, -/
  lookups : Nat := 0
  /-- and how many relocations. -/
  relocations : Nat := 0
  pipeline : Pipeline Work
  /-- What the walker and the items logged. -/
  log : List Event := []

namespace Run

/-- All that a run logged. -/
def events (r : Run) : List Event := r.log ++ r.pipeline.log

/-- Begins a run that archives the chain ending in `last`. -/
def begin (settings : GenerationSettings) (statement : StatementId) (last : TransactionId) :
    Except GenerationError Run :=
  (Pipeline.start settings.parallelism).map fun pipeline =>
    { statement, settings, walker := .checking last, pipeline
      log := [.generationStarted statement last settings.parallelism] }

/-- The result of a run that is over. -/
def result? (r : Run) : Option (Except GenerationError Receipt) :=
  match r.walker with
  | .finished result => some result
  | _ => none

/-- The run is over or dropped. -/
def isOver (r : Run) : Bool :=
  match r.walker with
  | .finished _ | .dropped => true
  | _ => false

/-- The walker is about to do something else. -/
def goTo (r : Run) (walker : Walker) : Run := { r with walker }

/-- Adds to the log. -/
def say (r : Run) (events : List Event) : Run := { r with log := r.log ++ events }

/-- The walker goes to a record, unless the run has failed or the record was walked before. -/
def check (now : Nat) (gated : Bool) (r : Run) (current : TransactionId) : Run :=
  if r.pipeline.raised then r.goTo (.walked .closed)
  else if r.visited.contains current then r.goTo (.walked (.failed (.chainCycle current)))
  else
    { r with walker := .finding current now !gated, visited := r.visited ++ [current], lookups := r.lookups + 1 }

/-- The store answers a lookup. -/
def find (r : Run) (current : TransactionId) : Except StoreError Transaction → Run
  | .ok t => (r.goTo (.resolved t)).say [.transactionResolved r.statement t.id r.visited.length]
  | .error cause => r.goTo (.walked (.failed (.ofLookup current cause)))

/-- The walker hands a record to the pipeline. -/
def enqueue (r : Run) (t : Transaction) : Run :=
  { r with
    walker := .enqueueing r.pipeline.items.length t.previous
    pipeline := r.pipeline.call ⟨r.statement, r.visited.length, t⟩ }

/-- The run ends and tells how. -/
def finish (r : Run) : Except GenerationError Nat → Run
  | .ok archived =>
    (r.goTo (.finished (.ok ⟨r.statement, archived⟩))).say
      [.statementGenerated r.statement archived r.visited.length r.pipeline.peak]
  | .error cause => (r.goTo (.finished (.error cause))).say [.generationFailed r.statement cause]

/-- The walker goes on, unless it waits. -/
def walk (store : Store) (now : Nat) (gated : Bool) (r : Run) : Option Run :=
  match r.walker with
  | .checking current => some (r.check now gated current)
  | .finding current _ answering => if answering then some (r.find current (store.lookup current)) else none
  | .resolved t => some (r.enqueue t)
  | .enqueueing item previous =>
    match r.pipeline.accepted? item with
    | none => ((r.pipeline.resume item).or (r.pipeline.unwind item)).map fun pipeline => { r with pipeline }
    | some false => some (r.goTo (.walked .closed))
    | some true =>
      match previous with
      | some id => some (r.goTo (.checking id))
      | none => some (r.goTo (.walked .complete))
  | .walked (.failed cause) => some { r with walker := .closing (.failed cause), pipeline := r.pipeline.abort }
  | .walked outcome => some (r.goTo (.closing outcome))
  | .closing outcome => some { r with walker := .awaiting outcome, pipeline := r.pipeline.complete }
  | .awaiting outcome =>
    match r.pipeline.driver with
    | .finished result => some (r.finish (outcome.result result))
    | _ => none
  | .leaving =>
    match r.pipeline.items.findIdx? fun i => i.phase.isCalling with
    | some item => ((r.pipeline.withdraw item).or (r.pipeline.unwind item)).map fun pipeline => { r with pipeline }
    | none => some { r with walker := .dropped, pipeline := r.pipeline.dropHandle }
  | .finished _ | .dropped => none

/-- The run is dropped by whoever waits for it. -/
def drop (r : Run) : Option Run := if r.isOver then none else some (r.goTo .leaving)

/-! ## The items of a run -/

/-- The work on an item, with its request. -/
def work? (r : Run) (item : Nat) : Option (ArchivalRequest × Work) :=
  match r.pipeline.items[item]? with
  | some ⟨request, .working work⟩ => some (request, work)
  | _ => none

/-- A step of the work on an item takes effect. -/
def apply (r : Run) (item : Nat) (effect : Effect) : Run :=
  let pipeline := match effect.next with
    | .working work => r.pipeline.setWork item work
    | .ended ending => r.pipeline.finishWork item ending
  { r with pipeline }.say effect.log

/-- The task of an item goes on, unless it waits. -/
def advanceItem (store : Store) (now : Nat) (gated : Bool) (r : Run) (item : Nat) : Option (Store × Run) :=
  match r.work? item with
  | some (request, work) => do
    let (store, effect) ← Archiver.advance store now r.pipeline.raised gated request work
    let r := if effect.submits then { r with relocations := r.relocations + 1 } else r
    return (store, r.apply item effect)
  | none => (r.pipeline.unwind item).map fun pipeline => (store, { r with pipeline })

/-- An item receives a signal, if it can. Only when the pipeline has told its tasks to stop is one stopped. -/
def signal (r : Run) (item : Nat) (s : Archiver.Signal) : Option Run := do
  let (request, work) ← r.work? item
  let possible := match s with
    | .cancel => r.pipeline.cancelling
    | _ => true
  if possible then return r.apply item (← Archiver.receive r.settings request work s) else none

/-- The driver goes on, unless it sleeps or waits. -/
def drive (r : Run) : Option Run := (r.pipeline.drive fun _ => .unstarted).map fun pipeline => { r with pipeline }

end Run

/-! ## The world -/

/-- A store and the runs over it. A gated store answers only when it is told to. -/
structure World where
  store : Store
  gated : Bool := false
  now : Nat := 0
  runs : List Run := []

namespace World

/-- Who can go on by itself. -/
inductive Task
  | walker (run : Nat)
  | driver (run : Nat)
  | item (run item : Nat)
deriving Repr, DecidableEq

/-- What can happen. -/
inductive Action
  /-- A task takes its next step. -/
  | go (task : Task)
  /-- A driver wakes up. -/
  | wake (run : Nat)
  /-- A driver whose run was dropped is stopped. -/
  | abandon (run : Nat)
  /-- Something comes to an item from outside. -/
  | signal (run item : Nat) (s : Archiver.Signal)
  /-- A gated store answers a lookup, or fails. -/
  | proceedLookup (run : Nat)
  | refuseLookup (run : Nat) (cause : StoreError)
  /-- A run is begun, or dropped. -/
  | begin (settings : GenerationSettings) (statement : StatementId) (last : TransactionId)
  | drop (run : Nat)
  /-- A caller changes the store directly. -/
  | insert (transaction : Transaction)
  | relocate (record : ArchivedTransaction) (original : TransactionId)
  /-- The clock goes on. -/
  | tick (now : Nat)

/-- Puts a run into the place of another. -/
def setRun (w : World) (run : Nat) (r : Run) : World := { w with runs := w.runs.set run r }

/-- A run takes a step that leaves the store alone. -/
def onRun (w : World) (run : Nat) (f : Run → Option Run) : Option World := do
  return w.setRun run (← f (← w.runs[run]?))

/-- A task takes its next step, if it can. -/
def advance (w : World) : Task → Option World
  | .walker run => w.onRun run fun r => r.walk w.store w.now w.gated
  | .driver run => w.onRun run Run.drive
  | .item run item => do
    let (store, r) ← (← w.runs[run]?).advanceItem w.store w.now w.gated item
    return { w.setRun run r with store }

/-- The state after an action, if it is possible. -/
def step (w : World) : Action → Option World
  | .go task => w.advance task
  | .wake run => w.onRun run fun r => r.pipeline.wake.map fun pipeline => { r with pipeline }
  | .abandon run => w.onRun run fun r => r.pipeline.abandon.map fun pipeline => { r with pipeline }
  | .signal run item s => w.onRun run fun r => r.signal item s
  | .proceedLookup run => w.onRun run fun r =>
    match r.walker with
    | .finding current asked false => some (r.goTo (.finding current asked true))
    | _ => none
  | .refuseLookup run cause => w.onRun run fun r =>
    match r.walker with
    | .finding current _ false => some (r.find current (.error cause))
    | _ => none
  | .begin settings statement last =>
    match Run.begin settings statement last with
    | .ok r => some { w with runs := w.runs ++ [r] }
    | .error _ => none
  | .drop run => w.onRun run Run.drop
  | .insert t => some { w with store := w.store.insert t }
  | .relocate record original =>
    match w.store.relocate record original with
    | .ok store => some { w with store }
    | .error _ => none
  | .tick now => if w.now ≤ now then some { w with now } else none

/-- All that the runs logged. -/
def events (w : World) : List Event := w.runs.flatMap Run.events

/-! ## What happens by itself -/

/-- The items of all runs, by the numbers of the run and of the item. -/
def places (w : World) : List (Nat × Nat) :=
  w.runs.zipIdx.flatMap fun (r, run) => (List.range r.pipeline.items.length).map fun item => (run, item)

/-- The first of these actions that is possible. -/
def firstPossible (w : World) (actions : List Action) : Option Action := actions.find? fun a => (w.step a).isSome

/-- What the task of an item does: where it waits it can be stopped, else it goes on. -/
def itemActions (place : Nat × Nat) : List Action :=
  [.signal place.1 place.2 .cancel, .go (.item place.1 place.2)]

/-- What a driver does. A sleeping driver is woken by what it has not seen. -/
def driverActions (w : World) (run : Nat) : List Action :=
  let awaited := (w.runs[run]?).any fun r => r.pipeline.isAwaited
  [.go (.driver run), .abandon run] ++ if awaited then [.wake run] else []

/-- The next thing that happens by itself: items go on first, then drivers, then walkers. -/
def nextAction (w : World) : Option Action :=
  let runs := List.range w.runs.length
  match w.places.findSome? fun place => w.firstPossible (itemActions place) with
  | some a => some a
  | none =>
    match runs.findSome? fun run => w.firstPossible (w.driverActions run) with
    | some a => some a
    | none => w.firstPossible (runs.map fun run => .go (.walker run))

/-- A bound on what can happen by itself before something comes from outside. -/
def bound (w : World) : Nat := 64 * (w.runs.length + 1) * (w.store.live.length + w.places.length + 4)

end World
end ChainArchive
