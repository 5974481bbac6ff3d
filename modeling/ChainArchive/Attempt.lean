import ChainArchive.Event

/-!
# Attempts

What may fail also tells what happened on the way: an attempt is what was
logged, and how it ended. Attempts are put together with `do`.
-/

namespace ChainArchive
set_option autoImplicit false

/-- What was logged, and the result or the failure. -/
structure Attempt (ε α : Type) where
  log : List Event
  result : Except ε α

namespace Attempt

variable {ε ε' α β : Type}

/-- Succeeds and logs nothing. -/
def succeed (a : α) : Attempt ε α := ⟨[], .ok a⟩

/-- Fails and logs nothing. -/
def fail (e : ε) : Attempt ε α := ⟨[], .error e⟩

/-- Goes on with a result; a failure ends it. -/
def andThen (x : Attempt ε α) (f : α → Attempt ε β) : Attempt ε β :=
  match x.result with
  | .ok a => ⟨x.log ++ (f a).log, (f a).result⟩
  | .error e => ⟨x.log, .error e⟩

instance : Monad (Attempt ε) where
  pure := succeed
  bind := andThen

/-- Logs something. -/
def say (events : List Event) : Attempt ε Unit := ⟨events, .ok ()⟩

/-- What logs nothing. -/
def of (result : Except ε α) : Attempt ε α := ⟨[], result⟩

/-- Puts a failure into other words. -/
def mapError (f : ε → ε') (x : Attempt ε α) : Attempt ε' α := ⟨x.log, x.result.mapError f⟩

end Attempt
end ChainArchive
