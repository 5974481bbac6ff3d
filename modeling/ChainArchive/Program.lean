import ChainArchive.CommandLine
import ChainArchive.Deployment
import ChainArchive.Seed

/-!
# The program

One call generates one statement: the settings come from the environment, the
live records from a seed file, the keys from their files. The statement id is
all that is written to the standard output, and only if the run succeeded.
-/

namespace ChainArchive
set_option autoImplicit false

/-- Why the program fails. -/
inductive ProgramError
  /-- The arguments are at fault. -/
  | usage (cause : UsageError)
  /-- The settings are refused. -/
  | settings (cause : SettingsError)
  /-- There is no seed. -/
  | seed (cause : SeedError)
  /-- The services did not start. -/
  | start (cause : StartError)
  /-- The run gave no receipt. -/
  | trigger (cause : TriggerError)
deriving DecidableEq

namespace ProgramError

/-- The text of a failure, followed by those of its causes. -/
def chain : ProgramError → List String
  | .usage cause => [cause.message]
  | .settings cause => ["Invalid configuration", cause.message]
  | .seed cause => [cause.message, cause.reason]
  | .start cause => ["Failed to start archive services", cause.message, cause.reason]
  | .trigger (.invalidId cause) => [(TriggerError.invalidId cause).message, cause.message]
  | .trigger cause => [cause.message]

/-- The exit code of a failure: faulty arguments have one of their own. -/
def exitCode : ProgramError → Nat
  | .usage _ => 2
  | _ => 1

/-- What is written to the standard error. -/
def text (e : ProgramError) : String :=
  match e.chain with
  | [] => ""
  | [single] => s!"Error: {single}"
  | first :: causes =>
    let lines := causes.zipIdx.map fun (cause, n) => s!"    {n}: {cause}"
    String.intercalate "\n" (s!"Error: {first}" :: "" :: "Caused by:" :: lines)

end ProgramError

/-- What the program sees of its surroundings. -/
structure Surroundings where
  environment : Settings.Environment
  files : Files
  /-- The id for the statement, which nobody has used before. -/
  statement : StatementId

namespace Program

/-- Loads the seed file, if there is one. -/
def seedOf (files : Files) : Option String → Attempt SeedError (List Transaction)
  | none => .succeed []
  | some path => loadSeed files path

/-- Generates the statement of the chain that ends with an id. -/
def generate (s : Surroundings) (last : String) (seed : Option String) : Attempt ProgramError StatementId := do
  Attempt.say (Settings.events s.environment)
  let settings := Settings.ofEnvironment s.environment
  Attempt.of (settings.validate.mapError .settings)
  let transactions ← (seedOf s.files seed).mapError .seed
  Attempt.say [.storeReady transactions.length]
  let store := Store.ofList settings.store.maxConnections transactions
  let deployment ← (Deployment.load settings store s.files).mapError .start
  let (deployment, result) := deployment.trigger s.statement last
  Attempt.say (deployment.shutdown false false).events
  let receipt ← Attempt.of (result.mapError .trigger)
  return receipt.statement

/-- Answers a call with what is written to the standard output. -/
def run (s : Surroundings) (arguments : List String) : Attempt ProgramError String := do
  match ← Attempt.of ((Invocation.parse arguments).mapError .usage) with
  | .help => return Invocation.helpText
  | .generate last seed => return s!"{← generate s last seed}\n"

/-- The files that a call may read. -/
def paths (environment : Settings.Environment) (arguments : List String) : List String :=
  let settings := Settings.ofEnvironment environment
  let seed := match Invocation.parse arguments with
    | .ok (.generate _ (some path)) => [path]
    | _ => []
  seed ++ [settings.signature.privateKeyPath, settings.signature.publicKeyPath]

/-- The exit code of a call. -/
def exitCode (answer : Attempt ProgramError String) : Nat :=
  match answer.result with
  | .ok _ => 0
  | .error e => e.exitCode

/-- What a call writes to the standard output. -/
def output (answer : Attempt ProgramError String) : String := answer.result.toOption.getD ""

end Program
end ChainArchive
