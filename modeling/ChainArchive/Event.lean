import ChainArchive.Settings

/-!
# Events

What happens is told by events. Each has a level, a message and named values,
all of them texts.
-/

namespace ChainArchive
set_option autoImplicit false

/-- How much an event matters. -/
inductive Level
  | debug
  | info
  | warn
  | error
deriving Repr, DecidableEq

/-- The word for a level. -/
def Level.text : Level → String
  | .debug => "DEBUG"
  | .info => "INFO"
  | .warn => "WARN"
  | .error => "ERROR"

/-- One thing that happened. -/
inductive Event
  -- worker pools
  | poolStarted (pool : String) (size : Nat)
  | askTimedOut (pool : String) (worker : Nat) (timeout : Span)
  | replyDiscarded (pool : String) (worker : Nat)
  | workerPanicked (pool : String)
  | poolShutDown (pool : String)
  -- compression and signatures
  | payloadCompressed (original compressed : Nat)
  | payloadDecompressed (compressed decompressed : Nat)
  | compressionStarted (compressors decompressors : Nat)
  | keysLoaded (privateKey publicKey : String)
  | signatureCreated (payload : Nat)
  | signatureStarted (signers verifiers : Nat)
  -- one item
  | archivingStarted (statement : StatementId) (id : TransactionId) (number payload : Nat)
  | transformFailed (id : TransactionId) (stage : TransformStage) (cause : TransformError)
  | relocationSkipped (id : TransactionId)
  | relocated (statement : StatementId) (id : TransactionId) (number : Nat)
  | relocationFailed (statement : StatementId) (id : TransactionId) (number : Nat) (cause : StoreError)
  | itemTimedOut (id : TransactionId) (timeout : Span)
  -- one pipeline
  | itemAdmitted (id : TransactionId) (number : Nat)
  | pipelineFailed (cause : GenerationError) (completed : Nat)
  -- one run
  | generationStarted (statement : StatementId) (last : TransactionId) (parallelism : Nat)
  | transactionResolved (statement : StatementId) (id : TransactionId) (number : Nat)
  | statementGenerated (statement : StatementId) (archived enqueued peak : Nat)
  | generationFailed (statement : StatementId) (cause : GenerationError)
  -- one request
  | requested (last : TransactionId)
  | answered (receipt : Receipt)
  | requestFailed (last : TransactionId) (cause : GenerationError)
  | requestTimedOut (last : TransactionId) (timeout : Span)
  -- start and shutdown
  | startingPools
  | compressionPoolsStarted (compressors decompressors : Nat)
  | signaturePoolsStarted (signers verifiers : Nat)
  | wiringGenerator
  | generatorReady (parallelism : Nat)
  | shutdownStarted
  | compressionStillHeld
  | signatureStillHeld
  | shutdownComplete
  -- settings and seed
  | overridden (name value : String)
  | overrideIgnored (name value : String)
  | seedLoaded (path : String) (count : Nat)
  | storeReady (count : Nat)
deriving Repr, DecidableEq

namespace Event

/-- The level of an event. -/
def level : Event → Level
  | .askTimedOut .. | .workerPanicked .. | .transformFailed .. | .pipelineFailed .. | .compressionStillHeld
  | .signatureStillHeld | .overrideIgnored .. => .warn
  | .relocationFailed .. | .itemTimedOut .. | .generationFailed .. | .requestFailed .. | .requestTimedOut .. => .error
  | .replyDiscarded .. | .poolShutDown .. | .payloadCompressed .. | .payloadDecompressed .. | .signatureCreated ..
  | .relocationSkipped .. | .itemAdmitted .. | .transactionResolved .. => .debug
  | _ => .info

/-- The message of an event. -/
def message : Event → String
  | .poolStarted .. => "Worker pool started"
  | .askTimedOut .. => "Worker request timed out"
  | .replyDiscarded .. => "Requester gone, response discarded"
  | .workerPanicked .. => "Worker thread panicked"
  | .poolShutDown .. => "Worker pool shut down"
  | .payloadCompressed .. => "Payload compressed"
  | .payloadDecompressed .. => "Payload decompressed"
  | .compressionStarted .. => "Compression service started"
  | .keysLoaded .. => "RSA key material loaded"
  | .signatureCreated .. => "RSA signature created"
  | .signatureStarted .. => "Signature service started"
  | .archivingStarted .. => "Archiving transaction"
  | .transformFailed .. => "Transform failed"
  | .relocationSkipped .. => "Relocation skipped, run aborted"
  | .relocated .. => "Transaction relocated to archive"
  | .relocationFailed .. => "Relocation failed"
  | .itemTimedOut .. => "Archiving timed out"
  | .itemAdmitted .. => "Item admitted to pipeline"
  | .pipelineFailed .. => "Archival pipeline failed"
  | .generationStarted .. => "Statement generation started"
  | .transactionResolved .. => "Transaction resolved"
  | .statementGenerated .. | .answered .. => "Statement generated"
  | .generationFailed .. | .requestFailed .. => "Statement generation failed"
  | .requested .. => "Statement generation requested"
  | .requestTimedOut .. => "Statement generation timed out"
  | .startingPools => "Phase 1: Starting worker pools"
  | .compressionPoolsStarted .. => "  [sa-01] Compression pools started"
  | .signaturePoolsStarted .. => "  [sa-02] Signature pools started"
  | .wiringGenerator => "Phase 2: Wiring statement generator"
  | .generatorReady .. => "  [sa-03] Statement generator ready"
  | .shutdownStarted => "Initiating graceful shutdown..."
  | .compressionStillHeld => "Compression pools still referenced; skipping join"
  | .signatureStillHeld => "Signature pools still referenced; skipping join"
  | .shutdownComplete => "Shutdown complete"
  | .overridden .. => "Configuration override from environment"
  | .overrideIgnored .. => "Ignoring unparsable configuration value"
  | .seedLoaded .. => "Seed transactions loaded"
  | .storeReady .. => "In-memory transaction store ready"

/-- The named values of an event. Sizes in KiB are rounded down. -/
def fields : Event → List (String × String)
  | .poolStarted pool size => [("pool", pool), ("size", toString size)]
  | .askTimedOut pool worker timeout =>
    [("pool", pool), ("worker", toString worker), ("timeout_ms", toString timeout.millisWord)]
  | .replyDiscarded pool worker => [("pool", pool), ("worker", toString worker)]
  | .workerPanicked pool | .poolShutDown pool => [("pool", pool)]
  | .payloadCompressed original compressed =>
    [("original_kib", toString (original / 1024)), ("compressed_kib", toString (compressed / 1024)),
     ("original_bytes", toString original), ("compressed_bytes", toString compressed)]
  | .payloadDecompressed compressed decompressed =>
    [("compressed_kib", toString (compressed / 1024)), ("decompressed_kib", toString (decompressed / 1024))]
  | .compressionStarted compressors decompressors | .compressionPoolsStarted compressors decompressors =>
    [("compressors", toString compressors), ("decompressors", toString decompressors)]
  | .keysLoaded privateKey publicKey => [("private_key", privateKey), ("public_key", publicKey)]
  | .signatureCreated payload => [("payload_bytes", toString payload)]
  | .signatureStarted signers verifiers =>
    [("signers", toString signers), ("verifiers", toString verifiers), ("algorithm", "SHA512withRSA")]
  | .signaturePoolsStarted signers verifiers =>
    [("signers", toString signers), ("verifiers", toString verifiers)]
  | .archivingStarted statement id number payload =>
    [("statement_id", statement.text), ("transaction_id", id.text), ("transaction_number", toString number),
     ("payload_bytes", toString payload)]
  | .transformFailed id stage cause =>
    [("transaction_id", id.text), ("stage", stage.text), ("error", cause.message)]
  | .relocationSkipped id => [("transaction_id", id.text)]
  | .relocated statement id number | .transactionResolved statement id number =>
    [("statement_id", statement.text), ("transaction_id", id.text), ("transaction_number", toString number)]
  | .relocationFailed statement id number cause =>
    [("statement_id", statement.text), ("transaction_id", id.text), ("transaction_number", toString number),
     ("error", cause.message)]
  | .itemTimedOut id timeout => [("transaction_id", id.text), ("timeout_ms", toString timeout.millisWord)]
  | .itemAdmitted id number => [("transaction_id", id.text), ("transaction_number", toString number)]
  | .pipelineFailed cause completed => [("error", cause.message), ("completed", toString completed)]
  | .generationStarted statement last parallelism =>
    [("statement_id", statement.text), ("last_transaction_id", last.text), ("parallelism", toString parallelism)]
  | .statementGenerated statement archived enqueued peak =>
    [("statement_id", statement.text), ("archived", toString archived), ("enqueued", toString enqueued),
     ("peak_in_flight", toString peak)]
  | .generationFailed statement cause => [("statement_id", statement.text), ("error", cause.message)]
  | .requested last => [("last_transaction_id", last.text)]
  | .answered receipt => [("statement_id", receipt.statement.text), ("archived", toString receipt.archived)]
  | .requestFailed last cause => [("last_transaction_id", last.text), ("error", cause.message)]
  | .requestTimedOut last timeout =>
    [("last_transaction_id", last.text), ("timeout_ms", toString timeout.millisWord)]
  | .generatorReady parallelism => [("parallelism", toString parallelism)]
  | .overridden name value | .overrideIgnored name value => [("key", name), ("value", value)]
  | .seedLoaded path count => [("path", path), ("count", toString count)]
  | .storeReady count => [("seeded", toString count)]
  | .startingPools | .wiringGenerator | .shutdownStarted | .compressionStillHeld | .signatureStillHeld
  | .shutdownComplete => []

/-- The event as a line of text. -/
def line (e : Event) : String :=
  String.intercalate " " (e.level.text :: e.message :: e.fields.map fun (name, value) => s!"{name}={value}")

end Event

/-- The events of reading an environment, in the order in which the variables are read. -/
def Settings.events (env : Settings.Environment) : List Event :=
  Settings.numericVariables.filterMap fun name =>
    (env name).map fun value =>
      if (Settings.number? value).isSome then .overridden name value else .overrideIgnored name value

end ChainArchive
