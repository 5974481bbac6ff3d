import ChainArchive.Pipeline
import ChainArchive.Trial.Clock

/-!
# Pipeline trials

A pipeline under a virtual clock. Rules say how long the work on an item takes
and how it ends; a script enqueues, completes, aborts, drops and watches.
-/

namespace ChainArchive.Trial
set_option autoImplicit false

open Pipeline

/-- How the work on an item ends in a trial. -/
inductive WorkEnd
  | ok
  | fail (message : String)
  | aborted
  | stall
  | panic
deriving DecidableEq

/-- What happens to the items with a number, or to all. -/
structure WorkRule where
  number : Option Nat := none
  delay : Nat := 0
  ending : WorkEnd := .ok

/-- The work on an item: not begun, or due at a moment. -/
inductive ScriptedWork
  | fresh
  | delaying (due : Nat) (ending : WorkEnd)

/-- A pipeline trial under way. -/
structure PipelineTrial where
  rules : List WorkRule
  pipeline : Pipeline ScriptedWork
  now : Nat := 0
  /-- The numbers of the items whose work has begun, -/
  started : List Nat := []
  /-- whose work ended well, in that order, -/
  finished : List Nat := []
  /-- and whose work was dropped. -/
  cancelled : List Nat := []
  /-- The handle is gone. -/
  gone : Bool := false

namespace PipelineTrial

/-- The rule for an item. -/
def ruleFor (rules : List WorkRule) (number : Nat) : WorkRule :=
  (rules.find? fun r => r.number.all (· == number)).getD {}

/-- The number of an item. -/
def numberOf (t : PipelineTrial) (item : Nat) : Nat := ((t.pipeline.items[item]?).map (·.request.number)).getD 0

/-- The work on an item goes on, if it is not waiting for its time. -/
def advanceWork (t : PipelineTrial) (item : Nat) : ScriptedWork → Option PipelineTrial
  | .fresh =>
    if t.pipeline.cancelling then some { t with pipeline := t.pipeline.finishWork item .cancelled }
    else
      let n := t.numberOf item
      let rule := ruleFor t.rules n
      some { t with
        pipeline := t.pipeline.setWork item (.delaying (t.now + rule.delay) rule.ending), started := t.started ++ [n] }
  | .delaying .. =>
    if t.pipeline.cancelling then
      some { t with pipeline := t.pipeline.finishWork item .cancelled, cancelled := t.cancelled ++ [t.numberOf item] }
    else none

/-- The task of an item goes on. -/
def advanceItem (t : PipelineTrial) (item : Nat) : Option PipelineTrial :=
  match t.pipeline.phase? item with
  | some (.working work) => t.advanceWork item work
  | _ => (t.pipeline.unwind item).map fun pipeline => { t with pipeline }

/-- The driver goes on, if there is something for it. -/
def advanceDriver (t : PipelineTrial) : Option PipelineTrial :=
  let p := t.pipeline
  let next := (p.drive fun _ => .fresh).or (p.abandon.or (if p.isAwaited then p.wake else none))
  next.map fun pipeline => { t with pipeline }

/-- The next thing that happens by itself: first the tasks go on, then the driver, then the call of the script. -/
def advance (t : PipelineTrial) : Option PipelineTrial :=
  let items := List.range t.pipeline.items.length
  (items.findSome? t.advanceItem).or <|
    t.advanceDriver.or <|
      items.findSome? fun item => (t.pipeline.resume item).map fun pipeline => { t with pipeline }

/-- A bound on what can happen before the clock has to move: an item takes at most a dozen steps, and the driver a
few for each of them. -/
def bound (t : PipelineTrial) : Nat := 40 * (t.pipeline.items.length + 2)

/-- The work that is due, with the moment. -/
def dues (t : PipelineTrial) : List (Nat × Nat × WorkEnd) :=
  t.pipeline.items.zipIdx.filterMap fun (i, item) =>
    match i.phase with
    | .working (.delaying due ending) => if ending = .stall then none else some (due, item, ending)
    | _ => none

/-- The work on an item ends, and its task goes on as far as it can. -/
def endWork (t : PipelineTrial) (item : Nat) (ending : WorkEnd) : PipelineTrial :=
  let finish (t : PipelineTrial) (e : Ending) : PipelineTrial :=
    { t with pipeline := settle (fun p => p.unwind item) 8 (t.pipeline.finishWork item e) }
  match ending, t.pipeline.items[item]? with
  | .ok, some i => finish { t with finished := t.finished ++ [i.request.number] } .done
  | .fail message, some i => finish t (.failed (.storageFailure i.request.transaction.id message))
  | .aborted, some _ => finish t (.failed .aborted)
  | .panic, some _ => finish t .panicked
  | _, _ => t

/-- All work that is due ends. -/
def endDue (t : PipelineTrial) : PipelineTrial :=
  (t.dues.filter fun (due, _, _) => due ≤ t.now).foldl (fun t (_, item, ending) => t.endWork item ending) t

/-- All that can happen now happens: the work that is due ends, and whoever can go on does. -/
def rest (t : PipelineTrial) : PipelineTrial :=
  let t := settle advance t.bound t.endDue
  settle advance t.bound t.endDue

/-- The clock goes on to the next work that is due, if that is before the limit. -/
def jump (limit : Nat) (t : PipelineTrial) : Option PipelineTrial :=
  match earliest (·.1) t.dues with
  | some (due, _, _) => if due < limit then some { t with now := max t.now due } else none
  | none => none

/-- Waits until `stop` holds, but not beyond the deadline; what is due at the deadline still happens. -/
def wait (t : PipelineTrial) (deadline : Nat) (stop : PipelineTrial → Bool) : PipelineTrial :=
  let t := elapse rest (jump (deadline + 1)) stop (t.pipeline.items.length + 1) t
  if stop t then t else { t with now := deadline }

/-- Lets that many milliseconds pass; what is due at the end has not happened yet. -/
def pass (t : PipelineTrial) (millis : Nat) : PipelineTrial :=
  let limit := t.now + millis
  { elapse rest (jump limit) (fun _ => false) (t.pipeline.items.length + 1) t with now := limit }

end PipelineTrial

/-- One step of a pipeline trial. -/
inductive PipelineStep
  | enqueue (request : ArchivalRequest) (wait : Nat)
  | complete
  | abort
  | drop
  | watch (wait : Nat)
  | sleep (millis : Nat)

/-- The answer to one step of a pipeline trial. -/
inductive PipelineAnswer
  | queued
  | suspended
  | completed
  | aborted
  | dropped
  | report (completed peak : Nat)
  | pending
  | slept
  | gone
  | error (cause : GenerationError)

namespace PipelineTrial

/-- The driver's result. -/
def result? (t : PipelineTrial) : Option (Except GenerationError Nat) :=
  match t.pipeline.driver with
  | .finished result => some result
  | _ => none

/-- Drops the handle. -/
def dropHandle (t : PipelineTrial) : PipelineTrial := { t with pipeline := t.pipeline.dropHandle, gone := true }

/-- Enqueues an item and waits for a while. -/
def enqueue (t : PipelineTrial) (request : ArchivalRequest) (wait : Nat) : PipelineTrial × PipelineAnswer :=
  let item := t.pipeline.items.length
  let t := { t with pipeline := t.pipeline.call request }
  let t := t.wait (t.now + wait) fun t => (t.pipeline.accepted? item).isSome
  match t.pipeline.accepted? item with
  | some true => (t, .queued)
  | some false => (t, .error .pipelineClosed)
  | none => ({ t with pipeline := (t.pipeline.withdraw item).getD t.pipeline }, .suspended)

/-- Watches for the completion and waits for a while. -/
def watch (t : PipelineTrial) (wait : Nat) : PipelineTrial × PipelineAnswer :=
  let t := { t with pipeline := t.pipeline.complete }
  let t := t.wait (t.now + wait) fun t => t.result?.isSome
  match t.result? with
  | some (.ok completed) => (t.dropHandle, .report completed t.pipeline.peak)
  | some (.error cause) => (t.dropHandle, .error cause)
  | none => (t.dropHandle, .pending)

/-- Takes one step. -/
def step (t : PipelineTrial) : PipelineStep → PipelineTrial × PipelineAnswer
  | .sleep millis => (t.pass millis, .slept)
  | .enqueue request wait => if t.gone then (t, .gone) else t.enqueue request wait
  | .complete => if t.gone then (t, .gone) else ({ t with pipeline := t.pipeline.complete }, .completed)
  | .abort => if t.gone then (t, .gone) else ({ t with pipeline := t.pipeline.abort }, .aborted)
  | .drop => if t.gone then (t, .gone) else (t.dropHandle, .dropped)
  | .watch wait => if t.gone then (t, .gone) else t.watch wait

/-- The flag, as long as there is a handle to ask. -/
def failed? (t : PipelineTrial) : Option Bool := if t.gone then none else some t.pipeline.raised

end PipelineTrial
end ChainArchive.Trial
