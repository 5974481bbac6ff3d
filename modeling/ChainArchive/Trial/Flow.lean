import ChainArchive.Trial.Agenda
import ChainArchive.Trigger

/-!
# Flow trials

Runs over one store under a virtual clock. A script inserts transactions,
generates statements one after the other or several at once, bounds runs by
timeouts, and looks at the tables.
-/

namespace ChainArchive.Trial
set_option autoImplicit false

open Archiver (Work)

/-- A flow trial under way. -/
structure FlowTrial where
  settings : GenerationSettings
  scripts : Scripts
  world : World := { store := {}, gated := true }
  /-- The most transforms of a kind that were under way at once. -/
  mostCompressing : Nat := 0
  mostSigning : Nat := 0
  /-- What was logged about requests. -/
  log : List Event := []

namespace FlowTrial

/-- The work on all items of all runs. -/
def works (t : FlowTrial) : List Work :=
  t.world.runs.flatMap fun r => r.pipeline.items.filterMap fun i =>
    match i.phase with
    | .working work => some work
    | _ => none

/-- The compressions under way. -/
def compressing (t : FlowTrial) : Nat :=
  t.works.countP fun
    | .transforming _ none _ => true
    | _ => false

/-- The signatures under way. -/
def signing (t : FlowTrial) : Nat :=
  t.works.countP fun
    | .transforming _ _ none => true
    | _ => false

/-- The world has changed. -/
def enter (t : FlowTrial) (world : World) : FlowTrial :=
  let t := { t with world }
  { t with mostCompressing := max t.mostCompressing t.compressing, mostSigning := max t.mostSigning t.signing }

/-- Takes an action, if it is possible. -/
def act (t : FlowTrial) (action : World.Action) : Option FlowTrial := (t.world.step action).map t.enter

/-- The next thing that happens by itself. -/
def advance (t : FlowTrial) : Option FlowTrial := t.world.nextAction.bind t.act

/-- Whoever can go on does. -/
def settleAll (t : FlowTrial) : FlowTrial := settle advance t.world.bound t

/-- What comes to a walker by now comes, and it goes on. -/
def wakeWalker (t : FlowTrial) (run : Nat) : FlowTrial :=
  match (t.world.runs[run]?).bind fun r => t.scripts.lookupDue r.walker with
  | some due =>
    if due.time ≤ t.world.now then
      let t := (t.act (match due.what with
        | none => .proceedLookup run
        | some cause => .refuseLookup run cause)).getD t
      settle (fun t => t.act (.go (.walker run))) t.world.bound t
    else t
  | none => t

/-- What will come to an item. -/
def itemDues (t : FlowTrial) (run item : Nat) : List (Due Archiver.Signal) :=
  match (t.world.runs[run]?).bind fun r => (r.work? item).map fun x => (r.settings, x) with
  | some (settings, request, work) => t.scripts.itemDues settings true request work
  | none => []

/-- What comes to an item by now comes, one thing after the other, and it goes on each time. -/
def wakeItem (run item : Nat) : Nat → FlowTrial → FlowTrial
  | 0, t => t
  | fuel + 1, t =>
    match Due.first (t.itemDues run item) with
    | some due =>
      if due.time ≤ t.world.now then
        match t.act (.signal run item due.what) with
        | some t => wakeItem run item fuel (settle (fun t => t.act (.go (.item run item))) 16 t)
        | none => t
      else t
    | none => t

/-- What comes by now comes, to walkers and then to items. -/
def wakeAll (t : FlowTrial) : FlowTrial :=
  let t := (List.range t.world.runs.length).foldl wakeWalker t
  t.world.places.foldl (fun t (run, item) => wakeItem run item 4 t) t

/-- All that can happen now happens. -/
def rest (t : FlowTrial) : FlowTrial := t.settleAll.wakeAll.settleAll

/-- The moments at which something comes. -/
def dues (t : FlowTrial) : List Nat :=
  (t.world.runs.filterMap fun r => (t.scripts.lookupDue r.walker).map (·.time)) ++
    t.world.places.flatMap fun (run, item) => (t.itemDues run item).map (·.time)

/-- Sets the clock. -/
def setNow (t : FlowTrial) (now : Nat) : FlowTrial := { t with world := { t.world with now } }

/-- The clock goes on to the next moment at which something comes, if that is before the limit. -/
def jump (limit : Option Nat) (t : FlowTrial) : Option FlowTrial :=
  match earliest id t.dues with
  | some due => if limit.all (due < ·) then some (t.setNow (max t.world.now due)) else none
  | none => none

/-- A bound on how often something comes: a lookup per record, and a few things per item. -/
def ticks (t : FlowTrial) : Nat :=
  8 * (t.world.runs.length + 1) * (t.world.store.live.length + t.world.places.length + 4)

/-- Waits until `stop` holds; what comes at the limit still comes. -/
def wait (t : FlowTrial) (deadline : Option Nat) (stop : FlowTrial → Bool) : FlowTrial :=
  let t := elapse rest (jump (deadline.map (· + 1))) stop t.ticks t
  if stop t then t else t.setNow (deadline.getD t.world.now)

/-- Lets that many milliseconds pass. -/
def sleep (t : FlowTrial) (millis : Nat) : FlowTrial :=
  let limit := t.world.now + millis
  (elapse rest (jump (some limit)) (fun _ => false) t.ticks t).setNow limit

/-- Begins a run. -/
def begin (t : FlowTrial) (statement : StatementId) (last : TransactionId) : FlowTrial :=
  (t.act (.begin t.settings statement last)).getD t

/-- The result of a run. -/
def result? (t : FlowTrial) (run : Nat) : Option (Except GenerationError Receipt) :=
  (t.world.runs[run]?).bind Run.result?

/-- Generates a statement for each of these ids, all at once. -/
def race (t : FlowTrial) (targets : List (StatementId × TransactionId)) :
    FlowTrial × List (Except GenerationError Receipt) :=
  let runs := (List.range targets.length).map (t.world.runs.length + ·)
  let t := targets.foldl (fun t (statement, last) => t.begin statement last) t
  let t := t.wait none fun t => runs.all fun run => (t.result? run).isSome
  (t, runs.filterMap t.result?)

/-- Generates a statement. -/
def generate (t : FlowTrial) (statement : StatementId) (last : TransactionId) :
    FlowTrial × Except GenerationError Receipt :=
  let (t, results) := t.race [(statement, last)]
  (t, results.headD (.error .aborted))

/-- Generates a statement for a caller who waits for a bounded time. -/
def trigger (t : FlowTrial) (statement : StatementId) (raw : String) (timeout : Span) :
    FlowTrial × Except TriggerError Receipt :=
  match TransactionId.parse raw with
  | .error cause => (t, .error (.invalidId cause))
  | .ok last =>
    let run := t.world.runs.length
    let t := ({ t with log := t.log ++ [Event.requested last] }).begin statement last
    let t := t.wait (some (t.world.now + timeout.ticks)) fun t => (t.result? run).isSome
    let result := t.result? run
    let t := if result.isSome then t else ((t.act (.drop run)).getD t).settleAll
    ({ t with log := t.log ++ [Event.ofTrigger last timeout result] }, TriggerError.ofRun timeout result)

/-- All that was logged. -/
def events (t : FlowTrial) : List Event := t.log ++ t.world.events

/-- How many items were begun; each asks for both transforms. -/
def begun (t : FlowTrial) : Nat :=
  t.world.events.countP fun
    | .archivingStarted .. => true
    | _ => false

end FlowTrial
end ChainArchive.Trial
