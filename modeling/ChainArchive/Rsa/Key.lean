import ChainArchive.Bytes

/-!
# RSA keys

A key carries the checks that make it usable: the modulus and the exponent are
odd and in range, and a private key knows two factors of the modulus and a
secret exponent that undoes the public one modulo each factor less one. That
the factors are prime is not checked.
-/

namespace ChainArchive.Rsa
set_option autoImplicit false

/-- A modulus and a public exponent. -/
structure PublicKey where
  modulus : Nat
  exponent : Nat
  modulus_odd : modulus % 2 = 1
  exponent_odd : exponent % 2 = 1
  three_le_exponent : 3 ≤ exponent
  exponent_small : exponent < Nat.pow 2 33
  exponent_lt_modulus : exponent < modulus
deriving DecidableEq

namespace PublicKey

/-- The key of a modulus and an exponent, if they are admissible. -/
def of? (modulus exponent : Nat) : Option PublicKey :=
  if h : modulus % 2 = 1 ∧ exponent % 2 = 1 ∧ 3 ≤ exponent ∧ exponent < Nat.pow 2 33 ∧ exponent < modulus then
    some ⟨modulus, exponent, h.1, h.2.1, h.2.2.1, h.2.2.2.1, h.2.2.2.2⟩
  else none

/-- The length of the modulus, and so of every signature, in octets. -/
def size (key : PublicKey) : Nat := Bytes.width key.modulus

end PublicKey

/-- A public key with the knowledge that is needed to sign. -/
structure PrivateKey extends PublicKey where
  secret : Nat
  p : Nat
  q : Nat
  one_lt_p : 1 < p
  one_lt_q : 1 < q
  p_mul_q : p * q = modulus
  secret_mod_p : secret * exponent % (p - 1) = 1
  secret_mod_q : secret * exponent % (q - 1) = 1
deriving DecidableEq

namespace PrivateKey

/-- The private key of these numbers, if they are admissible. -/
def of? (modulus exponent secret p q : Nat) : Option PrivateKey := do
  let key ← PublicKey.of? modulus exponent
  if h : 1 < p ∧ 1 < q ∧ p * q = key.modulus ∧ secret * key.exponent % (p - 1) = 1 ∧
      secret * key.exponent % (q - 1) = 1 then
    some ⟨key, secret, p, q, h.1, h.2.1, h.2.2.1, h.2.2.2.1, h.2.2.2.2⟩
  else none

end PrivateKey

/-- The key pair of a process: a private key and the public key that belongs to it. -/
structure KeyPair where
  signing : PrivateKey
  /-- A public key has at most 4096 bits. -/
  modulus_small : signing.modulus < Nat.pow 2 4096
deriving DecidableEq

/-- Why there is no key pair. -/
inductive KeyError
  /-- A key file cannot be read. -/
  | unreadable (path reason : String)
  /-- The octets are no usable private key. -/
  | invalidPrivateKey
  /-- The octets are no usable public key. -/
  | invalidPublicKey
  /-- The public key belongs to another private key. -/
  | mismatch
deriving Repr, DecidableEq

end ChainArchive.Rsa
