import ChainArchive.Gateway
import ChainArchive.Rsa.KeyFile
import ChainArchive.Trigger
import ChainArchive.World

/-!
# Deployments

The parts of one process: a store with the runs over it, and the services whose
workers compress, sign and check for them. They are started in a fixed order,
and whatever is wrong with the settings, the keys or the store is found at the
start.

While it runs, an item that waits for a transform asks a worker of a pool, and
what the ask comes to is what the transform answers. The machine below takes
every order in which runs, items, asks and workers may act.
-/

namespace ChainArchive
set_option autoImplicit false

/-! ## Start -/

/-- Why a deployment did not start. -/
inductive StartError
  /-- The settings are refused. -/
  | settings (cause : SettingsError)
  /-- There is no key pair. -/
  | key (cause : Rsa.KeyError)
  /-- The workers of a service cannot be started. -/
  | compression (cause : CompressionError)
  | signature (cause : Rsa.SignatureError)
  /-- The generation settings do not fit the store. -/
  | generation (cause : GenerationError)
deriving DecidableEq

namespace StartError

/-- The text of what lies behind a deployment that did not start. -/
def reason : StartError → String
  | .settings cause => cause.message
  | .key cause => cause.message
  | .compression cause => cause.message
  | .signature cause => cause.message
  | .generation cause => cause.message

/-- The text shown for a deployment that did not start. -/
def message (e : StartError) : String :=
  match e with
  | .settings _ => s!"Invalid configuration: {e.reason}"
  | .key _ => s!"Key material unavailable: {e.reason}"
  | .compression _ => s!"Compression pools failed to start: {e.reason}"
  | .signature _ => s!"Signature pools failed to start: {e.reason}"
  | .generation _ => s!"Statement generator rejected its configuration: {e.reason}"

end StartError

/-- An ask made for an item. -/
structure Errand where
  run : Nat
  item : Nat
  stage : TransformStage
  /-- The number of the ask in its pool. -/
  ask : Nat
deriving Repr, DecidableEq

/-- What runs in one process. -/
structure Deployment where
  settings : Settings
  world : World
  compression : CompressionService
  signature : SignatureService
  errands : List Errand := []
  /-- What was logged about requests and the shutdown. -/
  log : List Event := []

namespace Deployment

/-- Starts the services and the generator over a store. -/
def start (settings : Settings) (store : Store) (keys : Rsa.KeyPair) : Attempt StartError Deployment := do
  Attempt.of (settings.validate.mapError .settings)
  Attempt.say [.startingPools]
  let compression ← (CompressionService.start settings.compression).mapError .compression
  Attempt.say [.compressionPoolsStarted settings.compression.compressors settings.compression.decompressors]
  let signature ← (SignatureService.start settings.signature keys).mapError .signature
  Attempt.say [.signaturePoolsStarted settings.signature.signers settings.signature.verifiers, .wiringGenerator]
  Attempt.of ((settings.generation.validate store.capacity).mapError .generation)
  Attempt.say [.generatorReady settings.generation.parallelism]
  return { settings, world := { store }, compression, signature }

/-- Loads the keys that the settings name and starts with them. -/
def load (settings : Settings) (store : Store) (files : Files) : Attempt StartError Deployment := do
  Attempt.of (settings.validate.mapError .settings)
  let keys ←
    (Rsa.KeyPair.load files settings.signature.privateKeyPath settings.signature.publicKeyPath).mapError .key
  start settings store keys

/-- All that was logged since the start. -/
def events (d : Deployment) : List Event := d.log ++ d.world.events ++ d.compression.log ++ d.signature.log

/-- Adds to the log. -/
def say (d : Deployment) (events : List Event) : Deployment := { d with log := d.log ++ events }

/-! ## Steps -/

/-- What can happen in a deployment. -/
inductive Action
  /-- Something happens in the world that is not the answer of a transform. -/
  | world (action : World.Action)
  /-- Something happens in the pool of compressing workers, -/
  | compressor (action : Pool.Action Bytes Bytes CompressionError)
  /-- or in the pool of signing workers. -/
  | signer (action : Pool.Action Bytes Bytes Rsa.SignatureError)
  /-- An item asks for a transform. -/
  | ask (run item : Nat) (stage : TransformStage)
  /-- A transform answers what the ask for it has come to. -/
  | answer (run item : Nat) (stage : TransformStage)
  /-- A transform has taken longer than its timeout. -/
  | overdue (run item : Nat) (stage : TransformStage)

/-- The answer of a transform comes from a pool, a gateway does not panic, and all runs have the same settings. -/
def admits (d : Deployment) : World.Action → Bool
  | .signal _ _ (.answer ..) | .signal _ _ .crash => false
  | .begin settings _ _ => settings == d.settings.generation
  | _ => true

/-- The compressing workers. -/
def compressHandler : Pool.Handler Bytes Bytes CompressionError := CompressionService.compressHandler

/-- The signing workers. -/
def signHandler (d : Deployment) : Pool.Handler Bytes Bytes Rsa.SignatureError :=
  SignatureService.signHandler d.signature.keys

/-- What an item that waits for a transform asks it to work on. -/
def payload? (d : Deployment) (run item : Nat) (stage : TransformStage) : Option Bytes := do
  let (request, work) ← (← d.world.runs[run]?).work? item
  match work, stage with
  | .transforming _ none _, .compress | .transforming _ _ none, .sign => some (Archiver.input request stage)
  | _, _ => none

/-- The number of the ask that was made for an item. -/
def ask? (d : Deployment) (run item : Nat) (stage : TransformStage) : Option Nat :=
  (d.errands.find? fun e => e.run == run && e.item == item && e.stage == stage).map (·.ask)

/-- The timeout of a transform. -/
def stageTimeout (d : Deployment) (stage : TransformStage) : Span := Archiver.stageTimeout d.settings.generation stage

/-- Puts another pool of compressing workers in. -/
def setCompressors (d : Deployment) (compressors : Pool Bytes Bytes CompressionError) : Deployment :=
  { d with compression := { d.compression with compressors } }

/-- Puts another pool of signing workers in. -/
def setSigners (d : Deployment) (signers : Pool Bytes Bytes Rsa.SignatureError) : Deployment :=
  { d with signature := { d.signature with signers } }

/-- An item asks for a transform of a payload. -/
def askFor (d : Deployment) (run item : Nat) (stage : TransformStage) (payload : Bytes) : Option Deployment :=
  let errand (ask : Nat) : List Errand := d.errands ++ [{ run, item, stage, ask }]
  match stage with
  | .compress =>
    let pool := d.compression.compressors
    (pool.step (.ask payload (d.stageTimeout stage))).map fun next =>
      { d.setCompressors next with errands := errand pool.asks.length }
  | .sign =>
    let pool := d.signature.signers
    (pool.step (.ask payload (d.stageTimeout stage))).map fun next =>
      { d.setSigners next with errands := errand pool.asks.length }

/-- What an ask has come to, as the archiver sees it. -/
def transformed? (d : Deployment) (stage : TransformStage) (ask : Nat) : Option (Except TransformError Bytes) :=
  match stage with
  | .compress => (d.compression.compressors.result? ask).map TransformError.compressResult
  | .sign => (d.signature.signers.result? ask).map TransformError.signResult

/-- A transform answers an item. -/
def answerItem (d : Deployment) (run item : Nat) (stage : TransformStage) (result : Except TransformError Bytes) :
    Option Deployment :=
  (d.world.step (.signal run item (.answer stage result))).map fun world => { d with world }

/-- The state after an action, if it is possible. -/
def step (d : Deployment) : Action → Option Deployment
  | .world action =>
    if d.admits action then (d.world.step action).map fun world => { d with world } else none
  | .compressor action =>
    let pool := d.compression.compressors
    if pool.obeys compressHandler action then (pool.step action).map d.setCompressors else none
  | .signer action =>
    let pool := d.signature.signers
    if pool.obeys d.signHandler action then (pool.step action).map d.setSigners else none
  | .ask run item stage =>
    match d.ask? run item stage with
    | some _ => none
    | none => (d.payload? run item stage).bind (d.askFor run item stage)
  | .answer run item stage =>
    ((d.ask? run item stage).bind (d.transformed? stage)).bind (d.answerItem run item stage)
  | .overdue run item stage =>
    d.answerItem run item stage (Archiver.overdue d.settings.generation stage)

/-! ## Running a deployment -/

/-- The first of these actions that is possible. -/
def firstPossible (d : Deployment) (actions : List Action) : Option Action :=
  actions.find? fun a => (d.step a).isSome

/-- What an item does about its transforms. -/
def transformActions (place : Nat × Nat) : List Action :=
  [.ask place.1 place.2 .compress, .ask place.1 place.2 .sign, .answer place.1 place.2 .compress,
   .answer place.1 place.2 .sign]

/-- The next thing that happens by itself: in the world, then between items and pools, then in the pools. -/
def nextAction (d : Deployment) : Option Action :=
  match d.world.nextAction with
  | some a => some (.world a)
  | none =>
    match d.world.places.findSome? fun place => d.firstPossible (transformActions place) with
    | some a => some a
    | none =>
      match d.compression.compressors.nextAction compressHandler with
      | some a => some (.compressor a)
      | none => (d.signature.signers.nextAction d.signHandler).map .signer

/-- The deployment after the next thing that happens by itself. -/
def advance (d : Deployment) : Option Deployment := d.nextAction.bind d.step

/-- A bound on what can happen by itself. -/
def bound (d : Deployment) : Nat := 4 * d.world.bound

/-- Everything that happens by itself happens. -/
def rest (d : Deployment) : Deployment := settle advance d.bound d

/-- Takes an action, if it is possible. -/
def act (d : Deployment) (action : Action) : Deployment := (d.step action).getD d

/-- Begins a run. -/
def begin (d : Deployment) (statement : StatementId) (last : TransactionId) : Deployment :=
  d.act (.world (.begin d.settings.generation statement last))

/-- Generates a statement for a caller. A run that comes to no end is dropped when its time is over. -/
def trigger (d : Deployment) (statement : StatementId) (raw : String) : Deployment × Except TriggerError Receipt :=
  match TransactionId.parse raw with
  | .error cause => (d, .error (.invalidId cause))
  | .ok last =>
    let timeout := d.settings.requestTimeout
    let run := d.world.runs.length
    let d := ((d.say [.requested last]).begin statement last).rest
    let result := (d.world.runs[run]?).bind Run.result?
    let d := if result.isSome then d else (d.act (.world (.drop run))).rest
    (d.say [Event.ofTrigger last timeout result], TriggerError.ofRun timeout result)

/-! ## Shutdown -/

/-- Stops the services, one after the other. A service that somebody else still holds goes on. -/
def shutdown (d : Deployment) (compressionHeld signatureHeld : Bool) : Deployment :=
  let d := d.say [.shutdownStarted]
  let d := if compressionHeld then d.say [.compressionStillHeld]
    else { d with compression := d.compression.shutdown }
  let d := if signatureHeld then d.say [.signatureStillHeld]
    else { d with signature := d.signature.shutdown }
  d.say [.shutdownComplete]

end Deployment
end ChainArchive
