import ChainArchive.Attempt
import ChainArchive.Transition

/-!
# Worker pools

A pool has a fixed number of workers, each with a mailbox of bounded size. The
asks are dealt out in turn. An ask waits for room in the mailbox of its worker,
then for the answer, and gives up when its time is over. A worker handles one
request after the other. If handling a request panics, the worker is gone, and
whoever waits for it is told that the pool is closed.

The machine below takes every order in which asks, workers and clocks may act.
-/

namespace ChainArchive
set_option autoImplicit false

/-- Why a pool cannot be started. The system is taken to have a thread for every worker, so that there is no failure for
want of one. -/
inductive PoolError
  | noWorkers (pool : String)
deriving Repr, DecidableEq

/-- The text shown for a pool that cannot be started. -/
def PoolError.message : PoolError → String
  | .noWorkers pool => s!"Worker pool '{pool}' must have at least one worker"

/-- Why an ask has no answer. -/
inductive AskError (ε : Type)
  /-- No answer came in time. -/
  | timeout (pool : String) (timeout : Span)
  /-- The worker is gone. -/
  | closed (pool : String)
  /-- The worker refused the request. -/
  | rejected (cause : ε)
deriving Repr, DecidableEq

/-- The text shown for an ask without an answer, given that of the refusals. -/
def AskError.message {ε : Type} (cause : ε → String) : AskError ε → String
  | .timeout pool span => s!"Request to pool '{pool}' timed out after {span.text}"
  | .closed pool => s!"Worker pool '{pool}' is closed"
  | .rejected e => s!"Request rejected by worker: {cause e}"

/-- How handling a request ends. -/
inductive Handling (α ε : Type)
  | reply (answer : α)
  | reject (cause : ε)
  | panic
deriving Repr, DecidableEq

namespace Pool

/-- How many requests a mailbox holds beyond the one being handled. -/
def mailboxCapacity : Nat := 64

/-- Where an ask stands. -/
inductive Phase (α ε : Type)
  /-- It waits for room in the mailbox. -/
  | waiting
  /-- Its request is in the mailbox or being handled. -/
  | queued
  /-- The worker has answered, and the asker has not yet looked. -/
  | answered (answer : Except ε α)
  /-- The asker has its result. -/
  | over (result : Except (AskError ε) α)
  /-- The asker went away without a result. -/
  | cancelled

/-- One ask. -/
structure Ask (ρ α ε : Type) where
  request : ρ
  timeout : Span
  /-- The worker that it was dealt to. -/
  worker : Nat
  phase : Phase α ε := .waiting

/-- The asker waits for room or for an answer. -/
def Ask.isWaiting {ρ α ε : Type} (a : Ask ρ α ε) : Bool :=
  match a.phase with
  | .waiting | .queued => true
  | .answered _ | .over _ | .cancelled => false

/-- The asker is still there. -/
def Ask.isPending {ρ α ε : Type} (a : Ask ρ α ε) : Bool :=
  match a.phase with
  | .waiting | .queued | .answered _ => true
  | .over _ | .cancelled => false

/-- One worker. Asks are named by their number in order of their start. -/
structure Worker (α ε : Type) where
  mailbox : List Nat := []
  current : Option Nat := none
  /-- What was handled, with its end, in order. -/
  handled : List (Nat × Handling α ε) := []
  /-- No request made the worker panic. -/
  alive : Bool := true

/-- The worker has nothing to do. -/
def Worker.isIdle {α ε : Type} (w : Worker α ε) : Bool := w.mailbox.isEmpty && w.current.isNone

end Pool

/-- A pool: all asks so far and the workers. -/
structure Pool (ρ α ε : Type) where
  name : String
  asks : List (Pool.Ask ρ α ε) := []
  workers : List (Pool.Worker α ε)
  /-- Shutdown has begun: no further ask comes. -/
  closing : Bool := false
  /-- What was logged since the start. -/
  log : List Event := []

namespace Pool

variable {ρ α ε : Type}

/-- Starts a pool of that many workers. -/
def start (name : String) (size : Nat) : Attempt PoolError (Pool ρ α ε) :=
  if size = 0 then .fail (.noWorkers name)
  else do
    Attempt.say [.poolStarted name size]
    return { name, workers := List.replicate size {} }

/-- The number of workers. -/
def size (p : Pool ρ α ε) : Nat := p.workers.length

/-- The counter by which asks are dealt out has 64 bits. -/
def counterLimit : Nat := Nat.pow 2 64

/-- The worker, of so many, that an ask is dealt to: they have their turns one after the other. -/
def turnOf (size ask : Nat) : Nat := ask % counterLimit % size

/-- The worker that the next ask is dealt to. -/
def nextWorker (p : Pool ρ α ε) : Nat := turnOf p.size p.asks.length

/-- Puts an ask into another phase. -/
def setPhase (p : Pool ρ α ε) (ask : Nat) (phase : Phase α ε) : Pool ρ α ε :=
  { p with asks := p.asks.modify ask fun a => { a with phase } }

/-- Changes a worker. -/
def setWorker (p : Pool ρ α ε) (worker : Nat) (w : Worker α ε) : Pool ρ α ε :=
  { p with workers := p.workers.set worker w }

/-- Adds to the log. -/
def say (p : Pool ρ α ε) (event : Event) : Pool ρ α ε := { p with log := p.log ++ [event] }

/-! ## Steps -/

/-- What can happen in a pool. -/
inductive Action (ρ α ε : Type)
  /-- A caller asks. -/
  | ask (request : ρ) (timeout : Span)
  /-- An ask puts its request into the mailbox. -/
  | enter (ask : Nat)
  /-- A worker takes the oldest request out of its mailbox. -/
  | take (worker : Nat)
  /-- A worker is done with a request. -/
  | finish (worker : Nat) (handling : Handling α ε)
  /-- An asker picks its answer up. -/
  | receive (ask : Nat)
  /-- An asker learns that its worker is gone. -/
  | notice (ask : Nat)
  /-- An asker's time is over, and there is no answer yet. -/
  | expire (ask : Nat)
  /-- An asker goes away. -/
  | cancel (ask : Nat)
  /-- Shutdown begins; it needs the pool for itself, so no ask is pending. -/
  | close

/-- A new ask, dealt to the next worker. -/
def begin (p : Pool ρ α ε) (request : ρ) (timeout : Span) : Pool ρ α ε :=
  { p with asks := p.asks ++ [{ request, timeout, worker := p.nextWorker }] }

/-- The result of an ask that was answered. -/
def resultOf (answer : Except ε α) : Except (AskError ε) α := answer.mapError .rejected

/-- A worker is done with an ask: the answer goes to the asker, if it is still there. -/
def conclude (p : Pool ρ α ε) (worker : Nat) (ask : Nat) (answer : Except ε α) : Pool ρ α ε :=
  match p.asks[ask]? with
  | some { phase := .queued, .. } => p.setPhase ask (.answered answer)
  | _ => p.say (.replyDiscarded p.name worker)

/-- The state after an action, if it is possible. -/
def step (p : Pool ρ α ε) : Action ρ α ε → Option (Pool ρ α ε)
  | .ask request timeout => if p.closing then none else some (p.begin request timeout)
  | .enter ask => do
    let a ← p.asks[ask]?
    let w ← p.workers[a.worker]?
    match a.phase with
    | .waiting =>
      if w.alive && w.mailbox.length < mailboxCapacity then
        some ((p.setPhase ask .queued).setWorker a.worker { w with mailbox := w.mailbox ++ [ask] })
      else none
    | _ => none
  | .take worker => do
    let w ← p.workers[worker]?
    match w.mailbox, w.current with
    | ask :: rest, none =>
      if w.alive then some (p.setWorker worker { w with mailbox := rest, current := ask }) else none
    | _, _ => none
  | .finish worker handling => do
    let w ← p.workers[worker]?
    let ask ← w.current
    let w := { w with current := none, handled := w.handled ++ [(ask, handling)] }
    match handling with
    | .reply answer => some ((p.setWorker worker w).conclude worker ask (.ok answer))
    | .reject cause => some ((p.setWorker worker w).conclude worker ask (.error cause))
    | .panic => some (p.setWorker worker { w with mailbox := [], alive := false })
  | .receive ask => do
    match (← p.asks[ask]?).phase with
    | .answered answer => some (p.setPhase ask (.over (resultOf answer)))
    | _ => none
  | .notice ask => do
    let a ← p.asks[ask]?
    let w ← p.workers[a.worker]?
    match a.phase with
    | .waiting | .queued => if w.alive then none else some (p.setPhase ask (.over (.error (.closed p.name))))
    | _ => none
  | .expire ask => do
    let a ← p.asks[ask]?
    if a.isWaiting then
      some ((p.setPhase ask (.over (.error (.timeout p.name a.timeout)))).say (.askTimedOut p.name a.worker a.timeout))
    else none
  | .cancel ask => do
    if (← p.asks[ask]?).isPending then some (p.setPhase ask .cancelled) else none
  | .close => if p.asks.any Ask.isPending then none else some { p with closing := true }

/-- Shutdown is over: every worker has emptied its mailbox or is gone. -/
def isDown (p : Pool ρ α ε) : Bool := p.closing && p.workers.all fun w => w.isIdle || !w.alive

/-- The last events of a pool, once it is down. -/
def farewell (p : Pool ρ α ε) : List Event :=
  (p.workers.filter fun w => !w.alive).map (fun _ => .workerPanicked p.name) ++ [.poolShutDown p.name]

/-! ## Running a pool -/

/-- The result of an ask, once the asker has it. -/
def result? (p : Pool ρ α ε) (ask : Nat) : Option (Except (AskError ε) α) :=
  match p.asks[ask]? with
  | some { phase := .over result, .. } => some result
  | _ => none

/-- What a worker does with a request, unless it is held up. -/
abbrev Handler (ρ α ε : Type) := Nat → ρ → Option (Handling α ε)

/-- A worker that is done with a request has done with it what the handler says. -/
def obeys [DecidableEq α] [DecidableEq ε] (handler : Handler ρ α ε) (p : Pool ρ α ε) : Action ρ α ε → Bool
  | .finish worker handling =>
    match (p.workers[worker]?).bind (·.current) with
    | some ask => (p.asks[ask]?).any fun a => handler worker a.request == some handling
    | none => true
  | _ => true

/-- The next thing that the pool does by itself: an answer is picked up, a lost worker noticed, a mailbox entered, a
request handled or taken. -/
def nextAction (handler : Handler ρ α ε) (p : Pool ρ α ε) : Option (Action ρ α ε) :=
  let asks := p.asks.zipIdx.findSome? fun (a, ask) =>
    let gone := (p.workers[a.worker]?).any fun w => !w.alive
    let room := (p.workers[a.worker]?).any fun w => w.alive && w.mailbox.length < mailboxCapacity
    match a.phase with
    | .waiting => if gone then some (.notice ask) else if room then some (.enter ask) else none
    | .queued => if gone then some (.notice ask) else none
    | .answered _ => some (.receive ask)
    | .over _ | .cancelled => none
  let workers := p.workers.zipIdx.findSome? fun (w, worker) =>
    match w.current with
    | some ask => do
      let a ← p.asks[ask]?
      return .finish worker (← handler worker a.request)
    | none => if w.alive && !w.mailbox.isEmpty then some (.take worker) else none
  asks.or workers

/-- The pool after the next thing that it does by itself. -/
def advance (handler : Handler ρ α ε) (p : Pool ρ α ε) : Option (Pool ρ α ε) :=
  (p.nextAction handler).bind p.step

/-- A bound on what a pool can do by itself: an ask enters, is taken, handled and received. -/
def bound (p : Pool ρ α ε) : Nat := 4 * p.asks.length

/-- The pool does what it can. -/
def run (handler : Handler ρ α ε) (p : Pool ρ α ε) : Pool ρ α ε := settle (advance handler) p.bound p

/-- The time of an ask is over, if it has no answer yet. -/
def expire (p : Pool ρ α ε) (ask : Nat) : Pool ρ α ε := (p.step (.expire ask)).getD p

/-- One event for each request that was answered. -/
def events (p : Pool ρ α ε) (event : ρ → α → Event) : List Event :=
  p.workers.flatMap fun w =>
    w.handled.filterMap fun (ask, handling) => do
      match handling with
      | .reply answer => return event (← p.asks[ask]?).request answer
      | _ => none

/-- Starts an ask and puts its request into the mailbox, if there is room. -/
def post (p : Pool ρ α ε) (request : ρ) (timeout : Span) : Pool ρ α ε :=
  let begun := p.begin request timeout
  (begun.step (.enter p.asks.length)).getD begun

/-- Asks, and waits as long as the ask's time allows. Handling takes time, so an ask without any gives up first. -/
def call (handler : Handler ρ α ε) (p : Pool ρ α ε) (request : ρ) (timeout : Span) :
    Pool ρ α ε × Except (AskError ε) α :=
  let ask := p.asks.length
  let posted := p.post request timeout
  let p := ((if timeout.isZero then posted.expire ask else posted).run handler).expire ask
  (p, (p.result? ask).getD (.error (.closed p.name)))

/-- Shuts a pool down: the workers empty their mailboxes and end. -/
def shutdown (handler : Handler ρ α ε) (p : Pool ρ α ε) : Pool ρ α ε :=
  let p := p.run handler
  let p := ((p.step .close).getD p).run handler
  { p with log := p.log ++ p.farewell }

end Pool
end ChainArchive
