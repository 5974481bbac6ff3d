import ChainArchive.Proofs.Rsa.Signature
import Mathlib.FieldTheory.Finite.Basic
import Mathlib.NumberTheory.LucasPrimality

/-!
# The two operations undo each other

If the factors of a modulus are two different primes, the secret operation and
the public operation undo each other on all numbers below the modulus, those
that share a factor with it included. So every message has exactly one
signature, if the modulus has room for the padding.
-/

namespace ChainArchive.Rsa
set_option autoImplicit false

/-! ## Powers and inverses -/

/-- Exponents count modulo one less than a prime. -/
theorem pow_modEq_self {p n : Nat} (prime : p.Prime) (undoes : n % (p - 1) = 1) (x : Nat) : x ^ n ≡ x [MOD p] := by
  have : Fact p.Prime := ⟨prime⟩
  rw [← ZMod.natCast_eq_natCast_iff, Nat.cast_pow]
  have split : n = (p - 1) * (n / (p - 1)) + 1 := by
    have := Nat.div_add_mod n (p - 1)
    omega
  rw [split, pow_succ, pow_mul]
  rcases eq_or_ne (x : ZMod p) 0 with zero | unit
  · simp [zero]
  · rw [ZMod.pow_card_sub_one_eq_one unit, one_pow, one_mul]

/-- A power that is computed modulo a number is one modulo its divisors too. -/
theorem powMod_modEq {p modulus : Nat} (divides : p ∣ modulus) (x n : Nat) : powMod x n modulus ≡ x ^ n [MOD p] := by
  rw [powMod_eq]
  exact (Nat.mod_modEq _ modulus).of_dvd divides

/-- What the Euclidean algorithm finds is an inverse. -/
theorem modEq_of_inverse? {a modulus c : Nat} (positive : 0 < modulus) (h : inverse? a modulus = some c) :
    c * a ≡ 1 [MOD modulus] := by
  have combined := bezout_eq a modulus
  simp only [inverse?, Option.ite_none_right_eq_some, Option.some.injEq] at h
  obtain ⟨one, rfl⟩ := h
  rw [one] at combined
  generalize (bezout a modulus).2.1 = x at combined ⊢
  generalize (bezout a modulus).2.2 = y at combined
  have reduced : ((x % modulus).toNat : Int) = x % modulus := Int.toNat_of_nonneg (Int.emod_nonneg _ (by omega))
  rw [← Int.natCast_modEq_iff, Nat.cast_mul, reduced]
  calc x % modulus * a ≡ x * a [ZMOD modulus] := (Int.mod_modEq x modulus).mul_right a
    _ ≡ x * a + y * modulus [ZMOD modulus] := by simp [Int.ModEq]
    _ = (1 : Nat) := combined.symm

/-- Numbers without a common divisor have inverses. -/
theorem exists_inverse? {a modulus : Nat} (coprime : a.Coprime modulus) : ∃ c, inverse? a modulus = some c := by
  have one : (bezout a modulus).1 = 1 := (bezout_fst a modulus).trans coprime
  refine ⟨((bezout a modulus).2.1 % modulus).toNat, ?_⟩
  simp only [inverse?, if_pos one]

/-! ## The operations modulo a factor -/

namespace PrivateKey

/-- What the secret operation does modulo a prime factor of the modulus. -/
structure Factor (key : PrivateKey) (p : Nat) : Prop where
  prime : p.Prime
  divides : p ∣ key.modulus
  undoes : key.secret * key.exponent % (p - 1) = 1
  apply_modEq : ∀ x, key.apply x ≡ x ^ (key.secret % (p - 1)) [MOD p]

namespace Factor

variable {key : PrivateKey} {p : Nat}

/-- The secret exponent, reduced, undoes the public one. -/
theorem pow_modEq (h : key.Factor p) (x : Nat) : x ^ (key.secret % (p - 1) * key.exponent) ≡ x [MOD p] :=
  pow_modEq_self h.prime (by rw [Nat.mod_mul_mod]; exact h.undoes) x

theorem public_secret (h : key.Factor p) (x : Nat) : key.toPublicKey.apply (key.apply x) ≡ x [MOD p] :=
  calc key.toPublicKey.apply (key.apply x) ≡ key.apply x ^ key.exponent [MOD p] := powMod_modEq h.divides _ _
    _ ≡ (x ^ (key.secret % (p - 1))) ^ key.exponent [MOD p] := (h.apply_modEq x).pow _
    _ = x ^ (key.secret % (p - 1) * key.exponent) := (pow_mul ..).symm
    _ ≡ x [MOD p] := h.pow_modEq x

theorem secret_public (h : key.Factor p) (x : Nat) : key.apply (key.toPublicKey.apply x) ≡ x [MOD p] :=
  calc key.apply (key.toPublicKey.apply x) ≡ key.toPublicKey.apply x ^ (key.secret % (p - 1)) [MOD p] :=
        h.apply_modEq _
    _ ≡ (x ^ key.exponent) ^ (key.secret % (p - 1)) [MOD p] := (powMod_modEq h.divides _ _).pow _
    _ = x ^ (key.secret % (p - 1) * key.exponent) := by rw [← pow_mul, mul_comm]
    _ ≡ x [MOD p] := h.pow_modEq x

end Factor

/-! ## The operations modulo the modulus -/

/-- The factors of the modulus are two different primes. -/
structure TwoPrimes (key : PrivateKey) : Prop where
  p_prime : key.p.Prime
  q_prime : key.q.Prime
  distinct : key.p ≠ key.q

namespace TwoPrimes

variable {key : PrivateKey}

theorem coprime (h : key.TwoPrimes) : key.p.Coprime key.q := (Nat.coprime_primes h.p_prime h.q_prime).2 h.distinct

/-- The secret operation puts together what it computes modulo each factor. -/
theorem factors (h : key.TwoPrimes) : key.Factor key.p ∧ key.Factor key.q := by
  have positive : 0 < key.p := h.p_prime.pos
  obtain ⟨coefficient, found⟩ := exists_inverse? h.coprime.symm
  have inverse := modEq_of_inverse? positive found
  refine ⟨⟨h.p_prime, key.p_mul_q ▸ Nat.dvd_mul_right .., key.secret_mod_p, fun x => ?_⟩,
    ⟨h.q_prime, key.p_mul_q ▸ Nat.dvd_mul_left .., key.secret_mod_q, fun x => ?_⟩⟩
  · refine Nat.ModEq.trans ?_ (powMod_modEq (Nat.dvd_refl key.p) x _)
    simp only [apply, found]
    generalize powMod x (key.secret % (key.p - 1)) key.p = modP
    generalize powMod x (key.secret % (key.q - 1)) key.q = modQ
    have below : modQ % key.p ≤ modP + key.p := (Nat.mod_lt _ positive).le.trans (Nat.le_add_left ..)
    calc (modP + key.p - modQ % key.p) % key.p * coefficient % key.p * key.q + modQ
        ≡ (modP + key.p - modQ % key.p) * coefficient * key.q + modQ [MOD key.p] := by
          refine Nat.ModEq.add_right _ (.mul_right _ ?_)
          exact (Nat.mod_modEq ..).trans ((Nat.mod_modEq ..).mul_right _)
      _ = (modP + key.p - modQ % key.p) * (coefficient * key.q) + modQ := by rw [mul_assoc]
      _ ≡ (modP + key.p - modQ % key.p) * 1 + modQ % key.p [MOD key.p] :=
          (inverse.mul_left _).add (Nat.mod_modEq ..).symm
      _ = modP + key.p := by omega
      _ ≡ modP [MOD key.p] := by simp [Nat.ModEq]
  · refine Nat.ModEq.trans ?_ (powMod_modEq (Nat.dvd_refl key.q) x _)
    simp [apply, found, Nat.ModEq]

/-- A number below the modulus is given by what it is modulo the factors. -/
theorem eq_of_modEq (h : key.TwoPrimes) {a b : Nat} (below : a < key.modulus) (below' : b < key.modulus)
    (modP : a ≡ b [MOD key.p]) (modQ : a ≡ b [MOD key.q]) : a = b := by
  have both := (Nat.modEq_and_modEq_iff_modEq_mul h.coprime).1 ⟨modP, modQ⟩
  rw [key.p_mul_q] at both
  exact both.eq_of_lt_of_lt below below'

/-- The public operation undoes the secret one. -/
theorem public_secret (h : key.TwoPrimes) {x : Nat} (below : x < key.modulus) :
    key.toPublicKey.apply (key.apply x) = x := by
  obtain ⟨p, q⟩ := h.factors
  exact h.eq_of_modEq (powMod_lt (Nat.zero_lt_of_lt below)) below (p.public_secret x) (q.public_secret x)

/-- The secret operation undoes the public one. -/
theorem secret_public (h : key.TwoPrimes) {x : Nat} (below : x < key.modulus) :
    key.apply (key.toPublicKey.apply x) = x := by
  obtain ⟨p, q⟩ := h.factors
  exact h.eq_of_modEq (key.apply_lt _) below (p.secret_public x) (q.secret_public x)

end TwoPrimes
end PrivateKey

/-! ## Signatures -/

/-- The padded octets begin with a zero, so they are a number below every modulus that has room for them. -/
theorem toNat_padded_lt {key : PublicKey} (room : leastSize ≤ key.size) (message : Bytes) :
    Bytes.toNat (padded key.size (Sha512.digest message)) < key.modulus := by
  have positive : 0 < key.modulus := by
    have := key.modulus_odd
    omega
  have length := length_padded room message
  obtain ⟨rest, split⟩ : ∃ rest, padded key.size (Sha512.digest message) = 0 :: rest := ⟨_, rfl⟩
  have count : rest.length = key.size - 1 := by
    rw [split, List.length_cons] at length
    omega
  calc Bytes.toNat (padded key.size (Sha512.digest message)) = Bytes.toNat rest := by
        rw [split]
        rfl
    _ < 256 ^ (key.size - 1) := count ▸ Bytes.toNat_lt rest
    _ ≤ key.modulus := Bytes.pow_le_of_width positive

namespace PrivateKey.TwoPrimes

variable {key : PrivateKey}

/-- Every message has a signature. -/
theorem sign_eq_ok (h : key.TwoPrimes) (room : leastSize ≤ key.size) (message : Bytes) : key.sign message =
    .ok (Bytes.ofNat key.size (key.apply (Bytes.toNat (padded key.size (Sha512.digest message))))) := by
  simp only [sign, if_neg (Nat.not_lt.2 room), h.public_secret (toNat_padded_lt room message), if_true]

/-- What is accepted for a message is what the signer hands out for it. -/
theorem sign_of_verify (h : key.TwoPrimes) {message candidate : Bytes}
    (accepted : key.toPublicKey.verify message candidate = true) : key.sign message = .ok candidate := by
  simp only [PublicKey.verify, Bool.and_eq_true, decide_eq_true_eq] at accepted
  obtain ⟨⟨⟨room, length⟩, below⟩, checked⟩ := accepted
  rw [h.sign_eq_ok room, ← checked, h.secret_public below, ← length, Bytes.ofNat_toNat]

end PrivateKey.TwoPrimes

namespace KeyPair

variable {keys : KeyPair}

/-- If the factors of the modulus are two different primes, every message has one signature, as long as the modulus,
provided that the modulus has at least 94 octets. No other octets are accepted for the message, and the signature is
accepted only for messages with the same digest. With a shorter modulus nothing is signed and nothing accepted. -/
theorem signature_unique (primes : keys.signing.TwoPrimes) :
    (94 ≤ keys.signing.size → ∀ message, ∃ signature, keys.sign message = .ok signature ∧
      signature.length = keys.signing.size ∧
      (∀ candidate, keys.verify message candidate = true ↔ candidate = signature) ∧
      ∀ other, keys.verify other signature = true ↔ Sha512.digest other = Sha512.digest message) ∧
    (keys.signing.size < 94 → ∀ message,
      keys.sign message = .error (.signingFailed "signature error: message too long") ∧
      ∀ candidate, keys.verify message candidate = false) := by
  constructor
  · intro room message
    have signed := primes.sign_eq_ok room message
    refine ⟨_, signed, Bytes.length_ofNat .., fun candidate => ⟨fun accepted => ?_, ?_⟩, fun other => ⟨fun accepted => ?_, ?_⟩⟩
    · exact Except.ok.inj ((primes.sign_of_verify accepted).symm.trans signed)
    · rintro rfl
      exact PrivateKey.verify_of_sign signed
    · exact PublicKey.digest_of_verify accepted (PrivateKey.verify_of_sign signed)
    · intro same
      have signed' := primes.sign_eq_ok room other
      rw [same] at signed'
      exact PrivateKey.verify_of_sign signed'
  · intro short message
    refine ⟨if_pos short, fun candidate => ?_⟩
    have none : ¬ leastSize ≤ keys.signing.size := Nat.not_le.2 short
    simp [verify, PublicKey.verify, none]

/-! ## An example -/

/-- A number `3 * 2 ^ k + 1` is prime if 5 has no smaller order than it allows. -/
theorem prime_of_powMod {k : Nat} (whole : powMod 5 (3 * 2 ^ k) (3 * 2 ^ k + 1) = 1)
    (half : powMod 5 (3 * 2 ^ k / 2) (3 * 2 ^ k + 1) ≠ 1) (third : powMod 5 (3 * 2 ^ k / 3) (3 * 2 ^ k + 1) ≠ 1) :
    (3 * 2 ^ k + 1).Prime := by
  have power (n : Nat) : ((5 : Nat) : ZMod (3 * 2 ^ k + 1)) ^ n = 1 ↔ powMod 5 n (3 * 2 ^ k + 1) = 1 := by
    have large : 1 < 3 * 2 ^ k + 1 := by
      have := Nat.two_pow_pos k
      omega
    have reduced := ZMod.natCast_eq_natCast_iff' (5 ^ n) 1 (3 * 2 ^ k + 1)
    rw [Nat.mod_eq_of_lt large, Nat.cast_pow, Nat.cast_one] at reduced
    rw [powMod_eq]
    exact reduced
  refine lucas_primality _ ((5 : Nat) : ZMod _) ((power _).2 whole) fun q prime divides => ?_
  rw [Nat.add_sub_cancel] at divides ⊢
  rw [ne_eq, power]
  rcases (prime.dvd_mul).1 divides with divides | divides
  · rwa [(Nat.prime_dvd_prime_iff_eq prime Nat.prime_three).1 divides]
  · rwa [(Nat.prime_dvd_prime_iff_eq prime Nat.prime_two).1 (prime.dvd_of_dvd_pow divides)]

/-- A key of 795 bits. -/
def exampleKeys : KeyPair where
  signing :=
    { modulus := (3 * 2 ^ 353 + 1) * (3 * 2 ^ 438 + 1)
      exponent := 5
      secret := (3 * 2 ^ 439 + 1) / 5
      p := 3 * 2 ^ 353 + 1
      q := 3 * 2 ^ 438 + 1
      modulus_odd := by decide +kernel
      exponent_odd := by decide
      three_le_exponent := by decide
      exponent_small := by decide
      exponent_lt_modulus := by decide +kernel
      one_lt_p := by decide +kernel
      one_lt_q := by decide +kernel
      p_mul_q := by decide +kernel
      secret_mod_p := by decide +kernel
      secret_mod_q := by decide +kernel }
  modulus_small := by decide +kernel

theorem twoPrimes_exampleKeys : exampleKeys.signing.TwoPrimes where
  p_prime := prime_of_powMod (k := 353) (by decide +kernel) (by decide +kernel) (by decide +kernel)
  q_prime := prime_of_powMod (k := 438) (by decide +kernel) (by decide +kernel) (by decide +kernel)
  distinct := by decide +kernel

theorem signature_unique_example : exampleKeys.signing.TwoPrimes ∧ 94 ≤ exampleKeys.signing.size ∧
    ∃ signature, exampleKeys.sign [1, 2, 3] = .ok signature ∧ signature.length = 100 ∧
      (∀ candidate, exampleKeys.verify [1, 2, 3] candidate = true ↔ candidate = signature) ∧
      ∀ other, exampleKeys.verify other signature = true ↔ Sha512.digest other = Sha512.digest [1, 2, 3] := by
  have size : exampleKeys.signing.size = 100 := by decide +kernel
  have room : 94 ≤ exampleKeys.signing.size := by
    rw [size]
    decide
  refine ⟨twoPrimes_exampleKeys, room, ?_⟩
  rw [← size]
  exact (signature_unique twoPrimes_exampleKeys).1 room [1, 2, 3]

end KeyPair
end ChainArchive.Rsa
