import ChainArchive.Pool

/-!
# Shutting a pool down

Shutdown takes the pool for itself, so no asker is left. It closes the mailboxes
and waits for the workers, one after the other. A worker ends when there is
nothing left in its mailbox; one that panicked has ended already, which is noted,
and shutdown goes on to the next. It returns when it has waited for all.

The machine below takes every order in which the workers and the one who waits
for them may act.
-/

namespace ChainArchive.Pool
set_option autoImplicit false

/-- A closed pool, and how far the one who waits for its workers has come. -/
structure Shutdown (ρ α ε : Type) where
  pool : Pool ρ α ε
  /-- How many workers have been waited for. -/
  joined : Nat := 0
  /-- What was logged about them. -/
  notes : List Event := []

namespace Shutdown

variable {ρ α ε : Type}

/-- What can happen while a pool is shut down. -/
inductive Action (α ε : Type)
  /-- A worker takes the oldest request out of its mailbox. -/
  | take (worker : Nat)
  /-- A worker is done with a request. -/
  | finish (worker : Nat) (handling : Handling α ε)
  /-- The worker that is waited for has ended. -/
  | join

/-- The state after an action, if it is possible. -/
def step (s : Shutdown ρ α ε) : Action α ε → Option (Shutdown ρ α ε)
  | .take worker => do return { s with pool := ← s.pool.step (.take worker) }
  | .finish worker handling => do return { s with pool := ← s.pool.step (.finish worker handling) }
  | .join => do
    let w ← s.pool.workers[s.joined]?
    if w.alive then
      if w.isIdle then return { s with joined := s.joined + 1 } else none
    else return { s with joined := s.joined + 1, notes := s.notes ++ [.workerPanicked s.pool.name] }

/-- All workers have been waited for. -/
def hasReturned (s : Shutdown ρ α ε) : Bool := s.joined == s.pool.size

end Shutdown
end ChainArchive.Pool
