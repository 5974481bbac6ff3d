import ChainArchive.Event

/-!
# Requests

A caller asks for the statement of a chain by the id of its last transaction
and waits for a bounded time. When that time is over the run is dropped; what
it has relocated stays relocated.
-/

namespace ChainArchive
set_option autoImplicit false

/-- Why a request has no receipt. -/
inductive TriggerError
  /-- The id is blank. -/
  | invalidId (cause : IdentifierError)
  /-- The run took too long and was dropped. -/
  | timedOut (timeout : Span)
  /-- The run failed. -/
  | generation (cause : GenerationError)
deriving Repr, DecidableEq

namespace TriggerError

/-- The text shown for a request without a receipt. -/
def message : TriggerError → String
  | .invalidId cause => s!"Invalid transaction id: {cause.message}"
  | .timedOut timeout => s!"Statement generation timed out after {timeout.text}"
  | .generation cause => cause.message

end TriggerError

/-- The result of a request whose run ended so, or was dropped. -/
def TriggerError.ofRun (timeout : Span) : Option (Except GenerationError Receipt) → Except TriggerError Receipt
  | some result => result.mapError .generation
  | none => .error (.timedOut timeout)

/-- What is logged about a result of a request. -/
def Event.ofTrigger (last : TransactionId) (timeout : Span) : Option (Except GenerationError Receipt) → Event
  | some (.ok receipt) => .answered receipt
  | some (.error cause) => .requestFailed last cause
  | none => .requestTimedOut last timeout

end ChainArchive
