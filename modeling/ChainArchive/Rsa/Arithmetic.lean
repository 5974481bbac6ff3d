/-!
# Modular arithmetic

Powers by repeated squaring, and the inverse of a number modulo another by the
extended Euclidean algorithm.
-/

namespace ChainArchive.Rsa
set_option autoImplicit false

/-- `base ^ exponent % modulus`, without the large power. -/
def powMod (base exponent modulus : Nat) : Nat :=
  if exponent = 0 then 1 % modulus
  else
    let half := powMod (base * base % modulus) (exponent / 2) modulus
    if exponent % 2 = 1 then half * base % modulus else half
termination_by exponent
decreasing_by omega

theorem powMod_eq (base exponent modulus : Nat) :
    powMod base exponent modulus = Nat.pow base exponent % modulus := by
  rw [Nat.pow_eq]
  fun_induction powMod base exponent modulus with
  | case1 => simp
  | case2 base exponent _ half odd ih =>
    have split : base ^ exponent = (base * base) ^ (exponent / 2) * base := by
      rw [← Nat.pow_two, ← Nat.pow_mul, ← Nat.pow_succ]
      congr 1
      omega
    rw [show half = (base * base) ^ (exponent / 2) % modulus from ih.trans (Nat.pow_mod ..).symm,
      Nat.mod_mul_mod, split]
  | case3 base exponent _ half even ih =>
    have split : base ^ exponent = (base * base) ^ (exponent / 2) := by
      rw [← Nat.pow_two, ← Nat.pow_mul]
      congr 1
      omega
    rw [show half = (base * base) ^ (exponent / 2) % modulus from ih.trans (Nat.pow_mod ..).symm, split]

theorem powMod_lt {base exponent modulus : Nat} (h : 0 < modulus) : powMod base exponent modulus < modulus := by
  rw [powMod_eq]
  exact Nat.mod_lt _ h

/-- The greatest common divisor of `a` and `b`, and a factor `x` with `x * a` congruent to it modulo `b`. -/
def bezout (a b : Nat) : Nat × Int × Int :=
  if a = 0 then (b, 0, 1)
  else
    let (g, x, y) := bezout (b % a) a
    (g, y - (b / a : Nat) * x, x)
termination_by a
decreasing_by exact Nat.mod_lt _ (by omega)

theorem bezout_fst (a b : Nat) : (bezout a b).1 = Nat.gcd a b := by
  fun_induction bezout a b with
  | case1 b => simp
  | case2 a b h g x y eq ih => rw [eq] at ih; rw [Nat.gcd_rec]; exact ih

theorem bezout_eq (a b : Nat) : ((bezout a b).1 : Int) = (bezout a b).2.1 * a + (bezout a b).2.2 * b := by
  fun_induction bezout a b with
  | case1 b => simp
  | case2 a b h g x y eq ih =>
    rw [eq] at ih
    simp only at ih ⊢
    rw [ih]
    have split : (b : Int) = a * (b / a : Nat) + (b % a : Nat) := by exact_mod_cast (Nat.div_add_mod b a).symm
    generalize ((b / a : Nat) : Int) = quotient at *
    generalize ((b % a : Nat) : Int) = rest at *
    rw [split, Int.sub_mul, Int.mul_add]
    have : x * (↑a * quotient) = quotient * x * ↑a := by
      rw [← Int.mul_assoc, Int.mul_comm (x * ↑a) quotient, Int.mul_assoc]
    omega

/-- The number below `modulus` whose product with `a` is one modulo `modulus`, if there is one. -/
def inverse? (a modulus : Nat) : Option Nat :=
  let (g, x, _) := bezout a modulus
  if g = 1 then some (x % modulus).toNat else none

end ChainArchive.Rsa
