import ChainArchive.Failure
import ChainArchive.Text.Blank

/-!
# Settings

Defaults apply unless a variable of the environment overrides them. A numeric
variable counts if, blanks around it aside, it is a decimal number of 64 bits
with an optional plus sign; any other text is ignored. Each variable touches
its own fields only.
-/

namespace ChainArchive
set_option autoImplicit false

/-- The settings of a generation run. -/
structure GenerationSettings where
  /-- How many items may be in flight. -/
  parallelism : Nat := 8
  compressTimeout : Span := .seconds 60
  signTimeout : Span := .seconds 30
  /-- Bounds an item as a whole: both transforms and the relocation. -/
  itemTimeout : Span := .seconds 60
deriving Repr, DecidableEq, Inhabited

/-- Every item in flight may hold a connection, so the parallelism may not exceed the store's capacity. -/
def GenerationSettings.validate (s : GenerationSettings) (capacity : Nat) : Except GenerationError Unit :=
  if s.parallelism = 0 then .error (.config "parallelism must be at least 1")
  else if capacity < s.parallelism then
    .error (.config s!"parallelism {s.parallelism} exceeds store capacity {capacity}")
  else if s.compressTimeout.isZero || s.signTimeout.isZero then
    .error (.config "transform timeouts must be non-zero")
  else if s.itemTimeout.isZero then .error (.config "item timeout must be non-zero")
  else .ok ()

/-- The sizes of the two compression pools. -/
structure CompressionSettings where
  compressors : Nat := 16
  decompressors : Nat := 16
deriving Repr, DecidableEq

/-- The sizes of the two signature pools and where the keys are. -/
structure SignatureSettings where
  signers : Nat := 16
  verifiers : Nat := 16
  privateKeyPath : String := "keys/privateKey.der"
  publicKeyPath : String := "keys/publicKey.der"
deriving Repr, DecidableEq

/-- The settings of the store. -/
structure StoreSettings where
  dataDir : String := "./data/archive"
  maxConnections : Nat := 10
  /-- Every relocation is forced to disk. -/
  syncWrites : Bool := true
deriving Repr, DecidableEq

/-- All settings. -/
structure Settings where
  generation : GenerationSettings := {}
  compression : CompressionSettings := {}
  signature : SignatureSettings := {}
  store : StoreSettings := {}
  /-- Bounds one request as a whole. -/
  requestTimeout : Span := .seconds 90
deriving Repr, DecidableEq

/-- Why settings are refused. -/
inductive SettingsError
  /-- A worker pool has no workers. -/
  | emptyPool (pool : String)
  /-- The generation settings do not fit the store. -/
  | generation (reason : String)
  /-- A request would time out at once. -/
  | zeroRequestTimeout
deriving Repr, DecidableEq

/-- The text shown for refused settings. -/
def SettingsError.message : SettingsError → String
  | .emptyPool pool => s!"Worker pool '{pool}' needs at least one worker"
  | .generation reason => s!"Invalid generation settings: {reason}"
  | .zeroRequestTimeout => "Request timeout must be non-zero"

namespace Settings

/-- The names and sizes of the worker pools. -/
def pools (s : Settings) : List (String × Nat) :=
  [("compressor", s.compression.compressors), ("decompressor", s.compression.decompressors),
   ("signer", s.signature.signers), ("verifier", s.signature.verifiers)]

/-- The first fault of the settings: an empty pool, unfit generation settings, a zero request timeout. -/
def validate (s : Settings) : Except SettingsError Unit :=
  match s.pools.find? (·.2 == 0) with
  | some (pool, _) => .error (.emptyPool pool)
  | none =>
    match s.generation.validate s.store.maxConnections with
    | .error e => .error (.generation e.message)
    | .ok () => if s.requestTimeout.isZero then .error .zeroRequestTimeout else .ok ()

/-! ## Overrides -/

/-- The number a text denotes: decimal digits after an optional plus sign, below `2 ^ 64`. -/
def number? (raw : String) : Option Nat :=
  let trimmed := Blank.trim raw.toList
  let digits := if trimmed.head? = some '+' then trimmed.tail else trimmed
  if digits.isEmpty || !digits.all Char.isDigit then none
  else
    let value := digits.foldl (fun n c => n * 10 + (c.toNat - 48)) 0
    if value < Nat.pow 2 64 then some value else none

/-- The values of environment variables. -/
abbrev Environment := String → Option String

/-- The variables that hold numbers, in the order in which they are read. -/
def numericVariables : List String :=
  ["SA_PARALLELISM", "SA_COMPRESS_TIMEOUT_SECS", "SA_SIGN_TIMEOUT_SECS", "SA_ITEM_TIMEOUT_SECS",
   "SA_COMPRESSION_WORKERS", "SA_SIGNATURE_WORKERS", "SA_STORE_MAX_CONNECTIONS", "SA_REQUEST_TIMEOUT_SECS"]

/-- The variables that hold paths. -/
def pathVariables : List String := ["SA_PRIVATE_KEY_PATH", "SA_PUBLIC_KEY_PATH", "SA_DATA_DIR"]

/-- The number that a variable overrides a default with. -/
def override? (env : Environment) (name : String) : Option Nat := (env name).bind number?

/-- The defaults with the overrides of an environment. -/
def ofEnvironment (env : Environment) : Settings :=
  let defaults : Settings := {}
  let number (name : String) (default : Nat) : Nat := (override? env name).getD default
  let span (name : String) (default : Span) : Span := ((override? env name).map Span.seconds).getD default
  { generation :=
      { parallelism := number "SA_PARALLELISM" defaults.generation.parallelism
        compressTimeout := span "SA_COMPRESS_TIMEOUT_SECS" defaults.generation.compressTimeout
        signTimeout := span "SA_SIGN_TIMEOUT_SECS" defaults.generation.signTimeout
        itemTimeout := span "SA_ITEM_TIMEOUT_SECS" defaults.generation.itemTimeout }
    compression :=
      { compressors := number "SA_COMPRESSION_WORKERS" defaults.compression.compressors
        decompressors := number "SA_COMPRESSION_WORKERS" defaults.compression.decompressors }
    signature :=
      { signers := number "SA_SIGNATURE_WORKERS" defaults.signature.signers
        verifiers := number "SA_SIGNATURE_WORKERS" defaults.signature.verifiers
        privateKeyPath := (env "SA_PRIVATE_KEY_PATH").getD defaults.signature.privateKeyPath
        publicKeyPath := (env "SA_PUBLIC_KEY_PATH").getD defaults.signature.publicKeyPath }
    store :=
      { defaults.store with
        dataDir := (env "SA_DATA_DIR").getD defaults.store.dataDir
        maxConnections := number "SA_STORE_MAX_CONNECTIONS" defaults.store.maxConnections }
    requestTimeout := span "SA_REQUEST_TIMEOUT_SECS" defaults.requestTimeout }

end Settings
end ChainArchive
