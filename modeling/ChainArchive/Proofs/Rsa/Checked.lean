import ChainArchive.Proofs.Rsa.Files
import ChainArchive.Service.Signature

/-!
# No bad signature is handed out

The checks on a key do not say that its factors are prime, or that they differ. So
the secret operation and the public one need not undo each other, and for some keys
they do not on most numbers. The signer does not rely on it: it applies the public
operation to its result and refuses a message for which that does not give the
padded octets back.
-/

namespace ChainArchive
set_option autoImplicit false

namespace Rsa

namespace PrivateKey

variable {key : PrivateKey}

/-- What the secret operation makes of a message, before it is checked. -/
def candidate (key : PrivateKey) (message : Bytes) : Bytes :=
  Bytes.ofNat key.size (key.apply (Bytes.toNat (padded key.size (Sha512.digest message))))

/-- The candidate denotes the result of the secret operation. -/
theorem toNat_candidate (key : PrivateKey) (message : Bytes) : Bytes.toNat (key.candidate message) =
    key.apply (Bytes.toNat (padded key.size (Sha512.digest message))) :=
  Bytes.toNat_ofNat_of_lt (Nat.lt_trans (key.apply_lt _) (Bytes.lt_of_width key.modulus))

/-- The signer hands out the candidate if the verifier accepts it, and else refuses the message. -/
theorem sign_cases (key : PrivateKey) (message : Bytes) :
    (key.sign message = .ok (key.candidate message) ∧ key.toPublicKey.verify message (key.candidate message) = true) ∨
    ((∃ reason, key.sign message = .error (.signingFailed reason)) ∧
      key.toPublicKey.verify message (key.candidate message) = false) := by
  have value := key.toNat_candidate message
  by_cases short : key.size < leastSize
  · have none : ¬ leastSize ≤ key.size := Nat.not_le.2 short
    exact .inr ⟨⟨_, if_pos short⟩, by simp [PublicKey.verify, none]⟩
  · by_cases checked : key.toPublicKey.apply (key.apply (Bytes.toNat (padded key.size (Sha512.digest message)))) =
        Bytes.toNat (padded key.size (Sha512.digest message))
    · have signed : key.sign message = .ok (key.candidate message) := (if_neg short).trans (if_pos checked)
      exact .inl ⟨signed, verify_of_sign signed⟩
    · exact .inr ⟨⟨_, (if_neg short).trans (if_neg checked)⟩, by simp [PublicKey.verify, value, checked]⟩

end PrivateKey

namespace KeyPair

/-- What two files have to say for a key pair to be read from them. -/
theorem ofDer_eq_ok {privateFile publicFile : Bytes} {keys : KeyPair} (read : ofDer privateFile publicFile = .ok keys) :
    PrivateKey.ofDer? privateFile = some keys.signing ∧ PublicKey.ofDer? publicFile = some keys.signing.toPublicKey := by
  unfold ofDer at read
  cases private_ : PrivateKey.ofDer? privateFile with
  | none => simp [private_, bind, Except.bind] at read
  | some signing =>
    cases public_ : PublicKey.ofDer? publicFile with
    | none => simp [private_, public_, bind, Except.bind] at read
    | some verifying =>
      simp only [private_, public_, Option.elim_some, bind, Except.bind, ofKeys] at read
      split at read
      · split at read
        · next same =>
          obtain rfl := Except.ok.inj read
          exact ⟨rfl, congrArg some same.symm⟩
        · cases read
      · cases read

/-- Whatever two files a key pair is read from, for every message one of two things is the case. Either the signer
has a signature, which is accepted with the pair and with the key of the public file alone; a signing worker replies
with it, and a verifying worker replies that it belongs to the message. Or the message is refused with an error, the
signing worker rejects it with the same error, and what the signer held back would not have been accepted. -/
theorem signed_or_refused {privateFile publicFile : Bytes} {keys : KeyPair}
    (read : ofDer privateFile publicFile = .ok keys) (message : Bytes) :
    (∃ signature public_, keys.sign message = .ok signature ∧ keys.verify message signature = true ∧
      PublicKey.ofDer? publicFile = some public_ ∧ public_.verify message signature = true ∧
      ∀ ask, SignatureService.signHandler keys ask message = some (.reply signature) ∧
        SignatureService.verifyHandler keys ask (message, signature) = some (.reply true)) ∨
    ∃ reason, keys.sign message = .error (.signingFailed reason) ∧
      keys.verify message (keys.signing.candidate message) = false ∧
      ∀ ask, SignatureService.signHandler keys ask message = some (.reject (.signingFailed reason)) := by
  obtain ⟨-, public_⟩ := ofDer_eq_ok read
  rcases keys.signing.sign_cases message with ⟨signed, accepted⟩ | ⟨⟨reason, refused⟩, unaccepted⟩
  · refine .inl ⟨_, _, signed, accepted, public_, accepted, fun ask => ⟨?_, ?_⟩⟩
    · simp only [SignatureService.signHandler, sign, signed]
    · simp only [SignatureService.verifyHandler, verify, accepted]
  · refine .inr ⟨reason, refused, unaccepted, fun ask => ?_⟩
    simp only [SignatureService.signHandler, sign, refused]

/-- A key whose first factor is nine. -/
def compositeKeys : KeyPair where
  signing :=
    { modulus := 9 * (7 * 2 ^ 830 + 1)
      exponent := 3
      secret := (7 * 2 ^ 831 + 1) / 3
      p := 9
      q := 7 * 2 ^ 830 + 1
      modulus_odd := by decide +kernel
      exponent_odd := by decide
      three_le_exponent := by decide
      exponent_small := by decide
      exponent_lt_modulus := by decide +kernel
      one_lt_p := by decide
      one_lt_q := by decide +kernel
      p_mul_q := by decide +kernel
      secret_mod_p := by decide +kernel
      secret_mod_q := by decide +kernel }
  modulus_small := by decide +kernel

/-- Modulo nine the two operations do not undo each other: one message is signed, another one is refused. -/
theorem signed_or_refused_example :
    ofDer compositeKeys.signing.file compositeKeys.signing.toPublicKey.file = .ok compositeKeys ∧
    compositeKeys.signing.p = 9 ∧
    (∃ signature, compositeKeys.sign [1] = .ok signature ∧ compositeKeys.verify [1] signature = true) ∧
    ∃ reason, compositeKeys.sign [0] = .error (.signingFailed reason) := by
  have read := compositeKeys.ofDer_file (by decide +kernel)
  refine ⟨read, rfl, ?_, ?_⟩
  · rcases signed_or_refused read [1] with ⟨signature, -, signed, accepted, -⟩ | ⟨reason, refused, -⟩
    · exact ⟨signature, signed, accepted⟩
    · have success : (compositeKeys.sign [1]).isOk = true := by decide +kernel
      rw [refused] at success
      cases success
  · rcases signed_or_refused read [0] with ⟨signature, -, signed, -⟩ | ⟨reason, refused, -⟩
    · have failure : (compositeKeys.sign [0]).isOk = false := by decide +kernel
      rw [signed] at failure
      cases failure
    · exact ⟨reason, refused⟩

end KeyPair
end Rsa
end ChainArchive
