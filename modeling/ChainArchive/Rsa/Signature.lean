import ChainArchive.Rsa.Arithmetic
import ChainArchive.Rsa.Key
import ChainArchive.Sha512

/-!
# RSA signatures

The scheme is RSASSA-PKCS1-v1_5 with SHA-512. A message is hashed and padded to
the length of the modulus, the padded octets are raised to the secret exponent,
and a signature is accepted if raising it to the public exponent gives the same
padded octets. A signature is checked before it is handed out.
-/

namespace ChainArchive.Rsa
set_option autoImplicit false

/-- Why a signature request failed. -/
inductive SignatureError
  /-- The message could not be signed. -/
  | signingFailed (reason : String)
  /-- No worker answered in time. -/
  | timeout (millis : Nat)
  /-- The workers are gone. -/
  | unavailable (reason : String)
deriving Repr, DecidableEq

/-- The text shown for a failed signature request. -/
def SignatureError.message : SignatureError → String
  | .signingFailed reason => s!"Signing failed: {reason}"
  | .timeout millis => s!"Signature request timed out after {millis} ms"
  | .unavailable reason => s!"Signature workers unavailable: {reason}"

/-! ## Padding -/

/-- What precedes a SHA-512 digest in the padded octets: the head of the element that names the hash. -/
def digestHead : Bytes :=
  [0x30, 0x51, 0x30, 0x0d, 0x06, 0x09, 0x60, 0x86, 0x48, 0x01, 0x65, 0x03, 0x04, 0x02, 0x03, 0x05, 0x00, 0x04, 0x40]

/-- The least length of a modulus that has room for the padding. -/
def leastSize : Nat := 94

/-- A digest, padded to `size` octets. -/
def padded (size : Nat) (digest : Bytes) : Bytes :=
  0x00 :: 0x01 :: (List.replicate (size - 86) 0xff ++ 0x00 :: (digestHead ++ digest))

theorem length_padded {size : Nat} (room : leastSize ≤ size) (message : Bytes) :
    (padded size (Sha512.digest message)).length = size := by
  simp only [leastSize] at room
  simp [padded, digestHead]
  omega

/-! ## The private and the public operation -/

/-- Raises a number to the public exponent. -/
def PublicKey.apply (key : PublicKey) (x : Nat) : Nat := powMod x key.exponent key.modulus

/-- Raises a number to the secret exponent, modulo each factor on its own where the factors have no divisor in
common. -/
def PrivateKey.apply (key : PrivateKey) (x : Nat) : Nat :=
  match inverse? key.q key.p with
  | some coefficient =>
    let modP := powMod x (key.secret % (key.p - 1)) key.p
    let modQ := powMod x (key.secret % (key.q - 1)) key.q
    let difference := (modP + key.p - modQ % key.p) % key.p
    difference * coefficient % key.p * key.q + modQ
  | none => powMod x key.secret key.modulus

/-! ## Signing and verifying -/

/-- Signs a message. -/
def PrivateKey.sign (key : PrivateKey) (message : Bytes) : Except SignatureError Bytes :=
  if key.size < leastSize then .error (.signingFailed "signature error: message too long")
  else
    let target := Bytes.toNat (padded key.size (Sha512.digest message))
    let result := key.apply target
    if key.toPublicKey.apply result = target then .ok (Bytes.ofNat key.size result)
    else .error (.signingFailed "signature error: internal error")

/-- The signature belongs to the message. It must be as long as the modulus and below it. -/
def PublicKey.verify (key : PublicKey) (message signature : Bytes) : Bool :=
  decide (leastSize ≤ key.size) && decide (signature.length = key.size) &&
    decide (Bytes.toNat signature < key.modulus) &&
    decide (key.apply (Bytes.toNat signature) = Bytes.toNat (padded key.size (Sha512.digest message)))

/-- Signs with the private key of the pair. -/
def KeyPair.sign (keys : KeyPair) (message : Bytes) : Except SignatureError Bytes := keys.signing.sign message

/-- Verifies with the public key of the pair. -/
def KeyPair.verify (keys : KeyPair) (message signature : Bytes) : Bool :=
  keys.signing.toPublicKey.verify message signature

end ChainArchive.Rsa
