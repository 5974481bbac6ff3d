import ChainArchive.Bytes
import Mathlib.Algebra.Group.Nat.Defs
import Mathlib.Data.List.Induction
import Mathlib.Tactic.Common

/-!
# Octets and numbers

Octets of a fixed width and the numbers below the bound that the width sets are
the same thing.
-/

namespace ChainArchive.Bytes
set_option autoImplicit false

theorem toNat_lt (bytes : Bytes) : toNat bytes < 256 ^ bytes.length := by
  induction bytes using List.reverseRecOn with
  | nil => simp [toNat]
  | append_singleton bytes byte ih =>
    have := byte.toNat_lt
    rw [toNat_concat, List.length_append, List.length_singleton, Nat.pow_succ]
    omega

theorem ofNat_toNat (bytes : Bytes) : ofNat bytes.length (toNat bytes) = bytes := by
  induction bytes using List.reverseRecOn with
  | nil => rfl
  | append_singleton bytes byte ih =>
    have low := byte.toNat_lt
    have high : (toNat bytes * 256 + byte.toNat) / 256 = toNat bytes := by omega
    rw [List.length_append, List.length_singleton, toNat_concat, ofNat, high, ih]
    congr 2
    apply UInt8.toNat.inj
    rw [UInt8.toNat_ofNat']
    omega

/-- Octets of one width are given by their number. -/
theorem toNat_inj {first second : Bytes} (width : first.length = second.length) (same : toNat first = toNat second) :
    first = second := by
  rw [← ofNat_toNat first, ← ofNat_toNat second, width, same]

end ChainArchive.Bytes
