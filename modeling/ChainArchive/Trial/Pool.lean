import ChainArchive.Pool

/-!
# Pool trials

A pool under a virtual clock, with workers that do a few simple things: they
tell their name, double a number, refuse, panic, or hold a request until they
are released. The clock stands still while anything can happen and then jumps
to the next ask whose time is over.
-/

namespace ChainArchive.Trial
set_option autoImplicit false

/-- What a trial asks of a worker. -/
structure Demand where
  word : String
  number : Option Int := none
  /-- The reason of a refusal. -/
  message : String := ""

/-- How a demand is recorded when a worker takes it up. -/
def Demand.label (d : Demand) : String :=
  match d.number with
  | some n => s!"{d.word}:{n}"
  | none => d.word

/-- What a worker of a trial answers. -/
inductive Reply
  | text (text : String)
  | number (n : Int)

/-- A pool as trials use it. -/
abbrev DemandPool := ChainArchive.Pool Demand Reply String

/-- What a worker of a trial does; holding lasts until the release. -/
def handleDemand (pool : String) (held : Bool) : Pool.Handler Demand Reply String := fun worker d =>
  match d.word with
  | "name" => some (.reply (.text s!"{pool}-{worker}"))
  | "double" => some (.reply (.number (2 * d.number.getD 0)))
  | "fail" => some (.reject d.message)
  | "panic" => some .panic
  | "hold" => if held then none else some (.reply (.text "released"))
  | _ => some (.reject "unknown request")

/-- One step of a pool trial. -/
inductive PoolStep
  /-- Asks and waits. -/
  | ask (demand : Demand) (timeout : Span)
  /-- Asks a worker to hold, in the background. -/
  | hold (demand : Demand) (timeout : Span)
  /-- Asks several at once and waits for all. -/
  | burst (demands : List Demand) (timeout : Span)
  /-- Ends all holding, and waits for the asks in the background. -/
  | release

/-- The result of one ask. -/
abbrev AskResult := Except (AskError String) Reply

/-- The answer to one step of a pool trial. -/
inductive PoolAnswer
  | one (result : AskResult)
  | many (results : List AskResult)
  | holding

/-- A pool trial under way. -/
structure PoolTrial where
  pool : DemandPool
  now : Nat := 0
  /-- When the time of each ask is over. -/
  dues : List Nat := []
  held : Bool := true
  background : List Nat := []

namespace PoolTrial

/-- The pool does what it can. -/
def run (t : PoolTrial) : PoolTrial := { t with pool := t.pool.run (handleDemand t.pool.name t.held) }

/-- Starts an ask. -/
def post (t : PoolTrial) (demand : Demand) (timeout : Span) : PoolTrial :=
  { t with pool := t.pool.post demand timeout, dues := t.dues ++ [t.now + timeout.ticks] }

/-- The pending asks, with the moment at which their time is over. -/
def pending (t : PoolTrial) : List (Nat × Nat) :=
  ((t.pool.asks.zip t.dues).zipIdx.filter fun ((a, _), _) => a.isPending).map fun ((_, due), ask) => (due, ask)

/-- The pending ask whose time is over first; of several, the one that started first. -/
def first (t : PoolTrial) : Option (Nat × Nat) :=
  t.pending.foldl (fun best x =>
    match best with
    | none => some x
    | some b => if x.1 < b.1 then some x else some b) none

/-- Ends the asks whose time is over by now. -/
def expire (t : PoolTrial) : PoolTrial :=
  t.pending.foldl (fun t (due, ask) => if due ≤ t.now then { t with pool := t.pool.expire ask } else t) t

/-- Waits until these asks are over, letting time pass from one end to the next. -/
def await (asks : List Nat) : Nat → PoolTrial → PoolTrial
  | 0, t => t
  | fuel + 1, t =>
    let t := t.run
    if asks.all fun ask => (t.pool.result? ask).isSome then t
    else
      match t.first with
      | none => t
      | some (due, _) => await asks fuel { t with now := due }.expire

/-- The results of asks. -/
def results (t : PoolTrial) (asks : List Nat) : List AskResult := asks.filterMap t.pool.result?

/-- Asks all at once and waits for all. An ask without any time gives up before a worker has answered. -/
def askAll (t : PoolTrial) (demands : List Demand) (timeout : Span) : PoolTrial × List AskResult :=
  let first := t.pool.asks.length
  let asks := (List.range demands.length).map (first + ·)
  let t := (demands.foldl (fun t d => t.post d timeout) t).expire
  let t := t.await asks (t.pool.asks.length + 1)
  (t, t.results asks)

/-- Takes one step. -/
def step (t : PoolTrial) : PoolStep → PoolTrial × PoolAnswer
  | .ask demand timeout =>
    let (t, results) := t.askAll [demand] timeout
    (t, .one (results.headD (.error (.closed t.pool.name))))
  | .burst demands timeout =>
    let (t, results) := t.askAll demands timeout
    (t, .many results)
  | .hold demand timeout =>
    ({ t.post demand timeout with background := t.background ++ [t.pool.asks.length] }.run, .holding)
  | .release =>
    let t := { t with held := false }.run
    ({ t with background := [] }, .many (t.results t.background))

/-- Takes all steps. -/
def steps (t : PoolTrial) : List PoolStep → PoolTrial × List PoolAnswer
  | [] => (t, [])
  | s :: rest =>
    let (t, answer) := t.step s
    let (t, answers) := t.steps rest
    (t, answer :: answers)

/-- The labels of all handled requests, by worker. -/
def seen (t : PoolTrial) : List String :=
  t.pool.workers.flatMap fun w =>
    w.handled.filterMap fun (ask, _) => (t.pool.asks[ask]?).map fun a => a.request.label

end PoolTrial

/-- What a pool trial shows. -/
structure PoolReport where
  answers : List PoolAnswer
  seen : List String

/-- Starts a pool, takes the steps, releases all and shuts down. -/
def runPool (name : String) (size : Nat) (steps : List PoolStep) : Attempt PoolError PoolReport := do
  let pool ← Pool.start name size
  let (t, answers) := PoolTrial.steps { pool } steps
  let t := { t with held := false }
  let t := { t with pool := t.pool.shutdown (handleDemand name t.held) }
  Attempt.say t.pool.log
  return ⟨answers, t.seen⟩

end ChainArchive.Trial
