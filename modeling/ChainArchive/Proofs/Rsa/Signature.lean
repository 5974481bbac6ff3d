import ChainArchive.Proofs.Bytes
import ChainArchive.Rsa.Signature

/-!
# What a signature says

What the signer hands out is accepted for the message that was signed, and a
signature is accepted for messages of one digest only.
-/

namespace ChainArchive
set_option autoImplicit false

namespace Bytes

/-- A number fits into as many octets as it needs. -/
theorem lt_of_width (n : Nat) : n < 256 ^ width n := by
  unfold width
  split
  · next zero => simp [zero]
  · have bits : n < 2 ^ (n.log2 + 1) := Nat.lt_log2_self
    apply Nat.lt_of_lt_of_le bits
    rw [show (256 : Nat) = 2 ^ 8 from rfl, ← Nat.pow_mul]
    exact Nat.pow_le_pow_right (by decide) (by omega)

/-- A number needs all the octets that it is said to need. -/
theorem pow_le_of_width {n : Nat} (positive : 0 < n) : 256 ^ (width n - 1) ≤ n := by
  have nonzero : n ≠ 0 := Nat.ne_of_gt positive
  simp only [width, if_neg nonzero, Nat.add_sub_cancel]
  calc 256 ^ (n.log2 / 8) = 2 ^ (8 * (n.log2 / 8)) := by rw [Nat.pow_mul, show (2 : Nat) ^ 8 = 256 from rfl]
    _ ≤ 2 ^ n.log2 := Nat.pow_le_pow_right (by decide) (Nat.mul_div_le ..)
    _ ≤ n := Nat.log2_self_le nonzero

end Bytes

namespace Rsa

/-- The digest can be read off the padded octets. -/
theorem padded_inj {size : Nat} {first second : Bytes} (h : padded size first = padded size second) : first = second := by
  simpa [padded] using h

namespace PrivateKey

variable {key : PrivateKey}

/-- The secret operation gives a number below the modulus. -/
theorem apply_lt (key : PrivateKey) (x : Nat) : key.apply x < key.modulus := by
  have p_pos : 0 < key.p := Nat.lt_trans Nat.zero_lt_one key.one_lt_p
  have q_pos : 0 < key.q := Nat.lt_trans Nat.zero_lt_one key.one_lt_q
  rw [← key.p_mul_q]
  unfold apply
  split
  · next coefficient _ =>
    -- a multiple of `q` with a factor below `p`, and a rest below `q`
    have factor := Nat.mod_lt ((powMod x (key.secret % (key.p - 1)) key.p + key.p -
      powMod x (key.secret % (key.q - 1)) key.q % key.p) % key.p * coefficient) p_pos
    have rest : powMod x (key.secret % (key.q - 1)) key.q < key.q := powMod_lt q_pos
    have room := Nat.mul_le_mul_right key.q factor
    rw [Nat.succ_mul] at room
    exact Nat.lt_of_lt_of_le (Nat.add_lt_add_left rest _) room
  · rw [key.p_mul_q]
    have : 0 < key.modulus := by
      have := key.modulus_odd
      omega
    exact powMod_lt this

/-- What is handed out as a signature is accepted for the message. -/
theorem verify_of_sign {message signature : Bytes} (h : key.sign message = .ok signature) :
    key.toPublicKey.verify message signature = true := by
  unfold sign at h
  split at h
  · cases h
  · next room =>
    simp only at h
    split at h
    · next checked =>
      simp only [Except.ok.injEq] at h
      subst h
      have below := key.apply_lt (Bytes.toNat (padded key.size (Sha512.digest message)))
      have fits := Nat.lt_trans below (Bytes.lt_of_width key.modulus)
      have value : Bytes.toNat (Bytes.ofNat key.size (key.apply (Bytes.toNat
          (padded key.size (Sha512.digest message))))) =
          key.apply (Bytes.toNat (padded key.size (Sha512.digest message))) := by
        rw [Bytes.toNat_ofNat]
        exact Nat.mod_eq_of_lt fits
      simp only [PublicKey.verify, Bool.and_eq_true, decide_eq_true_eq, Bytes.length_ofNat, value, checked, below]
      exact ⟨⟨⟨Nat.le_of_not_lt room, trivial⟩, trivial⟩, trivial⟩
    · cases h

end PrivateKey

/-- Messages for which the same signature is accepted have the same digest. -/
theorem PublicKey.digest_of_verify {key : PublicKey} {first second signature : Bytes}
    (h : key.verify first signature = true) (h' : key.verify second signature = true) :
    Sha512.digest first = Sha512.digest second := by
  simp only [verify, Bool.and_eq_true, decide_eq_true_eq] at h h'
  obtain ⟨⟨⟨room, -⟩, -⟩, accepted⟩ := h
  have same := accepted.symm.trans h'.2
  refine padded_inj (Bytes.toNat_inj ?_ same)
  rw [length_padded room, length_padded room]

end Rsa
end ChainArchive
