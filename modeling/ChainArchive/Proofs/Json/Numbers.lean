import ChainArchive.Proofs.Json.Spelling
import Mathlib.Algebra.Ring.Nat

/-!
# Numbers and byte strings are read back

A number is written by its decimal digits, and the first of them is no zero
unless it is the only one, so it is read as far as the digits go and to the same
value. A byte string is the array of its octets.
-/

namespace ChainArchive.Json
set_option autoImplicit false

variable {n : Nat} {rest : Bytes}

/-! ## Digits -/

theorem decimal_of_lt (small : n < 10) : decimal n = [UInt8.ofNat (48 + n)] := by
  rw [decimal, Nat.toDigits_of_lt_base small]
  decide +revert

theorem decimal_of_le (large : 10 ≤ n) : decimal n = decimal (n / 10) ++ [UInt8.ofNat (48 + n % 10)] := by
  have last : n % 10 < 10 := Nat.mod_lt n (by decide)
  rw [← decimal_of_lt last, decimal, Nat.toDigits_of_base_le (by decide) large, List.map_append, decimal, decimal,
    Nat.toDigits_of_lt_base last, List.map_singleton]

theorem isDigit_ofNat : ∀ digit < 10, isDigit (UInt8.ofNat (48 + digit)) = true := by decide

theorem isDigit_of_mem {byte : UInt8} (member : byte ∈ decimal n) : isDigit byte = true := by
  induction n using Nat.strongRecOn with
  | ind n ih =>
    rcases Nat.lt_or_ge n 10 with small | large
    · rw [decimal_of_lt small, List.mem_singleton] at member
      exact member ▸ isDigit_ofNat n small
    · rw [decimal_of_le large, List.mem_append, List.mem_singleton] at member
      rcases member with before | rfl
      · exact ih (n / 10) (by omega) before
      · exact isDigit_ofNat _ (Nat.mod_lt n (by decide))

theorem ne_of_isDigit {byte other : UInt8} (digit : isDigit byte = true) (noDigit : isDigit other = false) :
    byte ≠ other := by
  rintro rfl
  rw [digit] at noDigit
  cases noDigit

theorem isSpace_of_isDigit {byte : UInt8} (digit : isDigit byte = true) : isSpace byte = false := by
  have other {space : UInt8} (noDigit : isDigit space = false) : byte ≠ space := ne_of_isDigit digit noDigit
  simp [isSpace, other (show isDigit 32 = false by decide), other (show isDigit 9 = false by decide),
    other (show isDigit 10 = false by decide), other (show isDigit 13 = false by decide)]

/-- The digits of a number spell it. -/
theorem digitsValue_decimal (n : Nat) : digitsValue (decimal n) = n := by
  induction n using Nat.strongRecOn with
  | ind n ih =>
    have digit {m : Nat} (small : m < 10) : (UInt8.ofNat (48 + m)).toNat - 48 = m := by
      rw [UInt8.toNat_ofNat', Nat.mod_eq_of_lt (by omega)]
      omega
    rcases Nat.lt_or_ge n 10 with small | large
    · simp only [decimal_of_lt small, digitsValue, List.foldl_cons, List.foldl_nil, digit small]
      omega
    · have before := ih (n / 10) (by omega)
      rw [digitsValue] at before
      simp only [decimal_of_le large, digitsValue, List.foldl_append, before, List.foldl_cons, List.foldl_nil,
        digit (Nat.mod_lt n (by decide : 0 < 10))]
      omega

theorem decimal_ne_nil (n : Nat) : decimal n ≠ [] := by
  simp [decimal, Nat.toDigits_ne_nil]

/-- The digits of a number other than zero do not begin with a zero. -/
theorem head?_decimal (positive : 0 < n) : (decimal n).head? ≠ some 48 := by
  induction n using Nat.strongRecOn with
  | ind n ih =>
    rcases Nat.lt_or_ge n 10 with small | large
    · have first : ∀ n < 10, 0 < n → UInt8.ofNat (48 + n) ≠ 48 := by decide
      rw [decimal_of_lt small, List.head?_singleton, ne_eq, Option.some.injEq]
      exact first n small positive
    · have before := ih (n / 10) (by omega) (by omega)
      obtain ⟨byte, tail, written⟩ := List.exists_cons_of_ne_nil (decimal_ne_nil (n / 10))
      rw [written] at before
      rwa [decimal_of_le large, written]

/-! ## Numbers -/

theorem readDigits_append {digits : Bytes} (some : digits ≠ []) (all : ∀ byte ∈ digits, isDigit byte = true)
    (closes : Closes rest) : readDigits (digits ++ rest) = .ok (digits, rest) := by
  obtain ⟨byte, tail, rfl⟩ := List.exists_cons_of_ne_nil some
  have stops : rest.takeWhile isDigit = [] ∧ rest.dropWhile isDigit = rest := by
    cases rest with
    | nil => simp
    | cons byte rest => simp [(closes byte rfl).1]
  rw [List.cons_append, readDigits, if_pos (all byte (List.mem_cons_self ..)), ← List.cons_append,
    List.takeWhile_append_of_pos all, List.dropWhile_append_of_pos all, stops.1, stops.2, List.append_nil]

theorem readWhole_decimal (n : Nat) (closes : Closes rest) : readWhole (decimal n ++ rest) = .ok (decimal n, rest) := by
  have digits := readDigits_append (decimal_ne_nil n) (fun _ => isDigit_of_mem) closes
  rcases Nat.eq_zero_or_pos n with rfl | positive
  · rw [decimal_of_lt (by decide)] at digits ⊢
    cases rest with
    | nil => exact digits
    | cons byte rest => simp [readWhole, (closes byte rfl).1]
  · have head := head?_decimal positive
    obtain ⟨byte, tail, written⟩ := List.exists_cons_of_ne_nil (decimal_ne_nil n)
    rw [written] at head digits ⊢
    rw [List.cons_append, readWhole]
    · exact digits
    · rintro next more same
      simp_all

/-- A number is read back, if it has 64 bits at most. -/
theorem readNumber_decimal (small : n < 2 ^ 64) (closes : Closes rest) :
    readNumber (decimal n ++ rest) = .ok (.integer n, rest) := by
  have unsigned : ((decimal n ++ rest).head? == some 45) = false := by
    obtain ⟨byte, tail, written⟩ := List.exists_cons_of_ne_nil (decimal_ne_nil n)
    have digit : isDigit byte = true := isDigit_of_mem (written ▸ List.mem_cons_self ..)
    simpa [written] using ne_of_isDigit digit (by decide)
  have whole : readFraction rest = .ok (none, rest) ∧ readExponent rest = .ok (none, rest) := by
    cases rest with
    | nil => exact ⟨rfl, rfl⟩
    | cons byte rest =>
      obtain ⟨-, noPoint, noPower, noPower'⟩ := closes byte rfl
      constructor
      · rw [readFraction]
        simp [noPoint]
      · rw [readExponent] <;> simp [noPower, noPower']
  have value : wholeNumber false (decimal n) = .ok (.integer n) := by
    simp only [wholeNumber, digitsValue_decimal]
    exact if_pos small
  simp only [readNumber, unsigned, Bool.false_eq_true, if_false, readWhole_decimal n closes, bind, Except.bind, whole,
    value]
  rfl

/-- A number below a bound is read back. -/
theorem spells_natBelow {bound : Nat} (below : n < bound) (bounded : bound ≤ 2 ^ 64) (expected : String) :
    Spells (readNatBelow bound expected) (decimal n) n := by
  obtain ⟨byte, tail, written⟩ := List.exists_cons_of_ne_nil (decimal_ne_nil n)
  have digit : isDigit byte = true := isDigit_of_mem (written ▸ List.mem_cons_self ..)
  refine ⟨⟨byte, tail, written, isSpace_of_isDigit digit, ne_of_isDigit digit (by decide)⟩, fun rest closes => ?_⟩
  have number := readNumber_decimal (Nat.lt_of_lt_of_le below bounded) closes
  rw [written, List.cons_append] at number ⊢
  simp only [readNatBelow, skipSpace_cons (isSpace_of_isDigit digit), digit, Bool.or_true, if_true, number, bind,
    Except.bind]
  rw [if_pos (by simp [below])]
  rfl

theorem spells_octet (byte : UInt8) : Spells readOctet (decimal byte.toNat) byte := by
  obtain ⟨begins, reads⟩ := spells_natBelow (UInt8.toNat_lt byte) (by decide) "u8"
  refine ⟨begins, fun rest closes => ?_⟩
  rw [readOctet, reads rest closes]
  simp [Except.map]

/-- A byte string is read back. -/
theorem spells_octets (bytes : Bytes) : Spells readBytes (octets bytes) bytes := by
  obtain ⟨begins, reads⟩ : Spells (readArray readOctet "a byte array") (octets bytes) bytes :=
    spells_array (fun byte _ => spells_octet byte) "a byte array"
  refine ⟨begins, fun rest closes => ?_⟩
  rw [← reads rest closes, octets, array, List.cons_append, readBytes, skipSpace_cons (by decide)]
  rfl

end ChainArchive.Json
