import ChainArchive.Pool
import ChainArchive.Rsa.Signature

/-!
# The signature service

Two pools over one key pair, one whose workers sign and one whose workers
verify.
-/

namespace ChainArchive
set_option autoImplicit false

open Rsa

/-- What an ask without an answer means for a signature request. -/
def Rsa.SignatureError.ofAsk : AskError SignatureError → SignatureError
  | .timeout _ span => .timeout span.millisWord
  | .closed pool => .unavailable pool
  | .rejected e => e

/-- The two pools and the keys that they share. -/
structure SignatureService where
  keys : KeyPair
  signers : Pool Bytes Bytes SignatureError
  verifiers : Pool (Bytes × Bytes) Bool SignatureError

namespace SignatureService

/-- What a signing worker does. -/
def signHandler (keys : KeyPair) : Pool.Handler Bytes Bytes SignatureError := fun _ message =>
  match keys.sign message with
  | .ok signature => some (.reply signature)
  | .error e => some (.reject e)

/-- What a verifying worker does with a message and a signature. -/
def verifyHandler (keys : KeyPair) : Pool.Handler (Bytes × Bytes) Bool SignatureError := fun _ (message, signature) =>
  some (.reply (keys.verify message signature))

/-- Starts both pools. -/
def start (settings : SignatureSettings) (keys : KeyPair) : Attempt SignatureError SignatureService := do
  let signers ← (Pool.start "signer" settings.signers).mapError fun e => .unavailable e.message
  let verifiers ← (Pool.start "verifier" settings.verifiers).mapError fun e => .unavailable e.message
  Attempt.say [.signatureStarted settings.signers settings.verifiers]
  return ⟨keys, signers, verifiers⟩

/-- Asks a worker to sign. -/
def sign (s : SignatureService) (message : Bytes) (timeout : Span) : SignatureService × Except SignatureError Bytes :=
  let (pool, result) := s.signers.call (signHandler s.keys) message timeout
  ({ s with signers := pool }, result.mapError .ofAsk)

/-- Asks a worker to verify. -/
def verify (s : SignatureService) (message signature : Bytes) (timeout : Span) :
    SignatureService × Except SignatureError Bool :=
  let (pool, result) := s.verifiers.call (verifyHandler s.keys) (message, signature) timeout
  ({ s with verifiers := pool }, result.mapError .ofAsk)

/-- What was logged since the start, also by the workers while they handled requests. -/
def log (s : SignatureService) : List Event :=
  s.signers.log ++ s.signers.events (fun message _ => .signatureCreated message.length) ++ s.verifiers.log

/-- Stops both pools. -/
def shutdown (s : SignatureService) : SignatureService :=
  ⟨s.keys, s.signers.shutdown (signHandler s.keys), s.verifiers.shutdown (verifyHandler s.keys)⟩

end SignatureService
end ChainArchive
