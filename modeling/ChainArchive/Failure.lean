import ChainArchive.Record
import ChainArchive.Span

/-!
# Failures of a run

Every failure is final and names its cause. The first one of a run ends it;
what was relocated before stays relocated.
-/

namespace ChainArchive
set_option autoImplicit false

/-- The two transforms of an item. -/
inductive TransformStage
  | compress
  | sign
deriving Repr, DecidableEq

/-- The word for a transform in messages. -/
def TransformStage.text : TransformStage → String
  | .compress => "compress"
  | .sign => "sign"

/-- Why a transform gave no result. -/
inductive TransformError
  /-- The worker did not answer in time. -/
  | timeout (millis : Nat)
  /-- The transform itself failed, or its workers are gone. -/
  | failed (reason : String)
deriving Repr, DecidableEq

/-- The text shown for a failed transform. -/
def TransformError.message : TransformError → String
  | .timeout millis => s!"timed out after {millis} ms"
  | .failed reason => reason

/-- Why the store did not do what it was asked. -/
inductive StoreError
  /-- No live record carries this id. -/
  | notFound (id : TransactionId)
  /-- A relocation was rolled back. -/
  | relocationFailed (id : TransactionId) (reason : String)
  /-- Stored octets could not be written or read. -/
  | serialization (reason : String)
  /-- The store cannot be reached. -/
  | unavailable (reason : String)
deriving Repr, DecidableEq

/-- The text shown for a store failure. -/
def StoreError.message : StoreError → String
  | .notFound id => s!"Transaction not found: {id}"
  | .relocationFailed id reason => s!"Relocation of {id} rolled back: {reason}"
  | .serialization reason => s!"Record serialization failed: {reason}"
  | .unavailable reason => s!"Store unavailable: {reason}"

/-- Why a generation run failed. -/
inductive GenerationError
  /-- The requested id, or a predecessor, is not live. -/
  | notFound (id : TransactionId)
  /-- A predecessor pointer leads back to a record already walked. -/
  | chainCycle (id : TransactionId)
  /-- A transform exceeded its timeout. -/
  | transformTimeout (id : TransactionId) (stage : TransformStage) (millis : Nat)
  /-- A transform failed. -/
  | transformFailure (id : TransactionId) (stage : TransformStage) (reason : String)
  /-- An item was not relocated within the item timeout. -/
  | itemTimeout (id : TransactionId) (millis : Nat)
  /-- The store failed while this record was handled. -/
  | storageFailure (id : TransactionId) (reason : String)
  /-- The item was given up because the run had been aborted. -/
  | aborted
  /-- The pipeline takes no more work. -/
  | pipelineClosed
  /-- The settings are invalid. -/
  | config (reason : String)
  /-- A task panicked. -/
  | internal (reason : String)
deriving Repr, DecidableEq

namespace GenerationError

/-- The text shown for a failed run. -/
def message : GenerationError → String
  | .notFound id => s!"Transaction not found: {id}"
  | .chainCycle id => s!"Chain revisits transaction {id}"
  | .transformTimeout id stage millis => s!"{stage.text} of {id} timed out after {millis} ms"
  | .transformFailure id stage reason => s!"{stage.text} of {id} failed: {reason}"
  | .itemTimeout id millis => s!"Archiving {id} timed out after {millis} ms"
  | .storageFailure id reason => s!"Storage failure for {id}: {reason}"
  | .aborted => "Archival aborted"
  | .pipelineClosed => "Pipeline closed"
  | .config reason => s!"Invalid configuration: {reason}"
  | .internal reason => s!"Internal error: {reason}"

/-- What a lookup failure means for the run that looked `id` up. -/
def ofLookup (id : TransactionId) : StoreError → GenerationError
  | .notFound missing => .notFound missing
  | other => .storageFailure id other.message

/-- What a failed transform means for the item that asked for it. -/
def ofTransform (id : TransactionId) (stage : TransformStage) : TransformError → GenerationError
  | .timeout millis => .transformTimeout id stage millis
  | .failed reason => .transformFailure id stage reason

end GenerationError
end ChainArchive
