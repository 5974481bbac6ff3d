import ChainArchive.Attempt
import ChainArchive.Der
import ChainArchive.Files
import ChainArchive.Rsa.Key
import ChainArchive.Text.Quoted

/-!
# Key files

A private key file is a PKCS#8 envelope around a PKCS#1 key with two factors, a
public key file the SubjectPublicKeyInfo envelope. Both name the algorithm
rsaEncryption. The values for the Chinese remainder theorem that a private key
file gives are not used.
-/

namespace ChainArchive.Rsa
set_option autoImplicit false

/-- The text shown for keys that cannot be used. -/
def KeyError.message : KeyError → String
  | .unreadable path reason => s!"Failed to read key resource {Quoted.display path}: {reason}"
  | .invalidPrivateKey => "Invalid RSA private key"
  | .invalidPublicKey => "Invalid RSA public key"
  | .mismatch => "Public key does not match private key"

namespace KeyFile

open Der

/-- The identifier rsaEncryption and the parameter NULL, as elements. -/
def algorithm : Bytes :=
  [0x06, 0x09, 0x2a, 0x86, 0x48, 0x86, 0xf7, 0x0d, 0x01, 0x01, 0x01, 0x05, 0x00]

/-- The algorithm of an envelope, which can only be one. -/
def rsaAlgorithm : Reader Unit := fun input => do
  let (content, rest) ← tagged Tag.sequence input
  if content = algorithm then some ((), rest) else none

/-- A modulus and a public exponent. -/
def publicNumbers : Reader PublicKey := sequenceOf fun input => do
  let (modulus, rest) ← natural input
  let (exponent, rest) ← natural rest
  return (← PublicKey.of? modulus exponent, rest)

/-- The numbers of a private key with two factors. -/
def privateNumbers : Reader PrivateKey := sequenceOf fun input => do
  let (version, rest) ← natural input
  let (modulus, rest) ← natural rest
  let (exponent, rest) ← natural rest
  let (secret, rest) ← natural rest
  let (p, rest) ← natural rest
  let (q, rest) ← natural rest
  let (_, rest) ← natural rest
  let (_, rest) ← natural rest
  let (_, rest) ← natural rest
  if version = 0 then return (← PrivateKey.of? modulus exponent secret p q, rest) else none

/-- A public key that goes with a private key: context element 1, a bit string. Elements 0, the attributes, may
stand before it. -/
def enclosedPublicKey : Nat → Reader (Option Bytes)
  | 0, input => some (none, input)
  | fuel + 1, input =>
    match input with
    | [] => some (none, input)
    | tag :: _ =>
      if !Tag.isKnown tag then none
      else if !Tag.isContextSpecific tag || 1 < Tag.number tag then some (none, input)
      else do
        let (e, rest) ← element input
        if Tag.number tag = 1 then
          if Tag.isConstructed tag then none else some (some (← octetsOfBits? e.content), rest)
        else enclosedPublicKey fuel rest

/-- All that follows are context elements around one element each. -/
def onlyExtensions : Nat → Bytes → Bool
  | _, [] => true
  | 0, _ => false
  | fuel + 1, input =>
    match element input with
    | some (e, rest) =>
      Tag.isContextSpecific e.tag && Tag.isConstructed e.tag && (whole element e.content).isSome &&
        onlyExtensions fuel rest
    | none => false

/-- The PKCS#8 envelope. Version 1 says that a public key goes with the private key, version 0 that none does. -/
def privateEnvelope : Reader PrivateKey := sequenceOf fun input => do
  let (version, rest) ← natural input
  let (_, rest) ← rsaAlgorithm rest
  let (inner, rest) ← tagged Tag.octetString rest
  let (enclosed, rest) ← enclosedPublicKey rest.length rest
  let consistent := (version = 0 ∧ enclosed = none) ∨ (version = 1 ∧ enclosed ≠ none)
  if consistent ∧ onlyExtensions rest.length rest then return (← whole privateNumbers inner, []) else none

/-- The SubjectPublicKeyInfo envelope. -/
def publicEnvelope : Reader PublicKey := sequenceOf fun input => do
  let (_, rest) ← rsaAlgorithm input
  let (inner, rest) ← bitOctets rest
  return (← whole publicNumbers inner, rest)

end KeyFile

/-- Reads a private key file. -/
def PrivateKey.ofDer? (file : Bytes) : Option PrivateKey := Der.whole KeyFile.privateEnvelope file

/-- Reads a public key file. -/
def PublicKey.ofDer? (file : Bytes) : Option PublicKey := Der.whole KeyFile.publicEnvelope file

namespace KeyPair

/-- Pairs a private key with the public key that is claimed to belong to it. -/
def ofKeys (private_ : PrivateKey) (public_ : PublicKey) : Except KeyError KeyPair :=
  if small : public_.modulus < Nat.pow 2 4096 then
    if same : private_.toPublicKey = public_ then .ok ⟨private_, by rw [same]; exact small⟩ else .error .mismatch
  else .error .invalidPublicKey

/-- Reads a pair from the octets of its two files, the private key first. -/
def ofDer (privateFile publicFile : Bytes) : Except KeyError KeyPair := do
  let private_ ← (PrivateKey.ofDer? privateFile).elim (.error .invalidPrivateKey) .ok
  let public_ ← (PublicKey.ofDer? publicFile).elim (.error .invalidPublicKey) .ok
  ofKeys private_ public_

/-- Loads a pair from its two files. Both are read before either is looked into. -/
def load (files : Files) (privatePath publicPath : String) : Attempt KeyError KeyPair := do
  let privateFile ← Attempt.of ((files privatePath).mapError (.unreadable privatePath))
  let publicFile ← Attempt.of ((files publicPath).mapError (.unreadable publicPath))
  let keys ← Attempt.of (ofDer privateFile publicFile)
  Attempt.say [.keysLoaded (Quoted.display privatePath) (Quoted.display publicPath)]
  return keys

end KeyPair
end ChainArchive.Rsa
