import ChainArchive.Codec.Inflate
import ChainArchive.Proofs.Codec.Bits

/-!
# What the decoder collects

The decoder reads bit by bit. A number that was written as a field is collected
with its value, a path of a prefix code with its symbol, and both move the
position in the octet on by what they took. A stream whose bits complete the
decoder completes it octet by octet too.
-/

namespace ChainArchive.Codec
set_option autoImplicit false

namespace PrefixCode

/-- What is left of a code after some bits. -/
def reach (code : PrefixCode) (path : List Bool) : PrefixCode := path.foldl follow code

@[simp] theorem reach_nil (code : PrefixCode) : code.reach [] = code := rfl

@[simp] theorem reach_cons (code : PrefixCode) (bit : Bool) (path : List Bool) :
    code.reach (bit :: path) = (code.follow bit).reach path := rfl

@[simp] theorem reach_absent (path : List Bool) : absent.reach path = .absent := by
  induction path with
  | nil => rfl
  | cons bit path ih => exact ih

/-- Nothing goes on behind a symbol. -/
theorem reach_symbol {value : Nat} {path : List Bool} (more : path ≠ []) : (symbol value).reach path = .absent := by
  cases path with
  | nil => exact absurd rfl more
  | cons bit path => exact reach_absent path

end PrefixCode

namespace Decoder

/-- The decoder after some bits. -/
def read (d : Decoder) (bits : List Bool) : Decoder := bits.foldl step d

@[simp] theorem read_nil (d : Decoder) : d.read [] = d := rfl

@[simp] theorem read_cons (d : Decoder) (bit : Bool) (bits : List Bool) :
    d.read (bit :: bits) = (d.step bit).read bits := rfl

theorem read_append (d : Decoder) (first second : List Bool) :
    d.read (first ++ second) = (d.read first).read second := by
  simp [read, List.foldl_append]

@[simp] theorem read_complete (out : Array UInt8) (after : Nat) (bits : List Bool) :
    (complete out after).read bits = .complete out after := by
  induction bits with
  | nil => rfl
  | cons bit bits ih => exact ih

@[simp] theorem read_faulty (bits : List Bool) : faulty.read bits = .faulty := by
  induction bits with
  | nil => rfl
  | cons bit bits ih => exact ih

/-- The decoder, whatever has followed a complete stream. -/
def settled : Decoder → Decoder
  | .complete out _ => .complete out 0
  | d => d

theorem complete_of_settled {d : Decoder} {out : Array UInt8} {after : Nat} (h : d.settled = .complete out after) :
    ∃ after', d = .complete out after' := by
  cases d with
  | complete out' after' =>
    cases h
    exact ⟨after', rfl⟩
  | reading | faulty => cases h

theorem reading_of_settled {d : Decoder} {r : Reading} (h : d.settled = .reading r) : d = .reading r := by
  cases d with
  | reading r' => exact h
  | complete | faulty => cases h

/-- Octets lead where their bits lead. -/
theorem settled_foldl_take (octets : Bytes) (d : Decoder) :
    (octets.foldl take d).settled = (d.read (octets.flatMap octetBits)).settled := by
  induction octets generalizing d with
  | nil => rfl
  | cons byte octets ih =>
    rw [List.foldl_cons, ih, List.flatMap_cons, read_append]
    cases d with
    | reading r => rfl
    | complete out after => simp [take, settled]
    | faulty => simp [take]

/-- A decoder that the bits complete is completed by the octets that they fill, with the same text. -/
theorem complete_of_read {stream : Bytes} {d : Decoder} {out : Array UInt8} {after : Nat}
    (h : d.read (stream.flatMap octetBits) = .complete out after) :
    ∃ after', stream.foldl take d = .complete out after' := by
  have same := settled_foldl_take stream d
  rw [h] at same
  exact complete_of_settled same

/-- A decoder that the bits leave inside a stream is left there by the octets that they fill. -/
theorem reading_of_read {stream : Bytes} {d : Decoder} {r : Reading}
    (h : d.read (stream.flatMap octetBits) = .reading r) : stream.foldl take d = .reading r := by
  have same := settled_foldl_take stream d
  rw [h] at same
  exact reading_of_settled same

end Decoder

namespace Reading

/-- What comes next does not depend on how the last value was collected. -/
theorem collected_progress (r : Reading) (progress : Progress) (value : Nat) :
    ({ r with progress } : Reading).collected value = r.collected value := by
  obtain ⟨out, offset, isLast, goal, _⟩ := r
  cases goal <;>
    simp only [collected, nextBlock, storedNext, beginCodes, nextLength, beginLengths, lengthRead, copied, number, code]

theorem read_number_from {width : Nat} (r : Reading) (place value n : Nat) (some : 0 < width) :
    (Decoder.reading { r with progress := .number width place value }).read (fieldBits width n) =
      ({ r with offset := (r.offset + width) % 8 } : Reading).collected (value + place * (n % 2 ^ width)) := by
  induction width generalizing r place value n with
  | zero => cases some
  | succ width ih =>
    have bit : (if (n % 2 == 1) = true then value + place else value) = value + place * (n % 2) := by
      rcases Nat.mod_two_eq_zero_or_one n with even | odd
      · simp [even]
      · simp [odd]
    simp only [fieldBits, Decoder.read_cons, Decoder.step, step, bit]
    cases width with
    | zero =>
      simp only [Nat.le_refl, if_true, Decoder.read_nil, fieldBits, Nat.zero_add, Nat.pow_one]
      exact collected_progress { r with offset := (r.offset + 1) % 8 } _ _
    | succ width =>
      rw [if_neg (by omega), Nat.add_sub_cancel]
      have rest := ih { r with offset := (r.offset + 1) % 8 } (place * 2) (value + place * (n % 2)) (n / 2) (by omega)
      have offset : ((r.offset + 1) % 8 + (width + 1)) % 8 = (r.offset + (width + 1 + 1)) % 8 := by omega
      have total : value + place * (n % 2) + place * 2 * (n / 2 % 2 ^ (width + 1)) =
          value + place * (n % 2 ^ (width + 1 + 1)) := by
        rw [@Nat.pow_succ' 2 (width + 1), Nat.mod_mul, Nat.mul_add, Nat.mul_assoc, Nat.add_assoc]
      rw [offset, total] at rest
      exact rest

/-- A number that was written as a field is collected. -/
theorem read_number (r : Reading) (goal : Goal) {width value : Nat} (some : 0 < width) (fits : value < 2 ^ width) :
    (r.number goal width).read (fieldBits width value) =
      ({ r with goal, offset := (r.offset + width) % 8 } : Reading).collected value := by
  have := read_number_from { r with goal } 1 0 value some
  rwa [Nat.mod_eq_of_lt fits, Nat.one_mul, Nat.zero_add] at this

theorem read_number_short_from {bits : List Bool} {width : Nat} (r : Reading) (place value : Nat)
    (short : bits.length < width) :
    ∃ r', (Decoder.reading { r with progress := .number width place value }).read bits = .reading r' := by
  induction bits generalizing r width place value with
  | nil => exact ⟨_, rfl⟩
  | cons bit bits ih =>
    rw [List.length_cons] at short
    have more : ¬ width ≤ 1 := by omega
    simp only [Decoder.read_cons, Decoder.step, step, if_neg more]
    exact ih { r with offset := (r.offset + 1) % 8 } _ _ (Nat.lt_sub_of_add_lt short)

/-- A number is not complete before its last bit. -/
theorem read_number_short (r : Reading) (goal : Goal) {width : Nat} {bits : List Bool} (short : bits.length < width) :
    ∃ r', (r.number goal width).read bits = .reading r' :=
  read_number_short_from { r with goal } 1 0 short

theorem read_code_from {path : List Bool} (r : Reading) (code : PrefixCode) (left : Nat) {value : Nat}
    (some : path ≠ [])
    (short : path.length ≤ left) (found : code.reach path = .symbol value) :
    (Decoder.reading { r with progress := .code code left }).read path =
      ({ r with offset := (r.offset + path.length) % 8 } : Reading).collected value := by
  induction path generalizing r code left with
  | nil => exact absurd rfl some
  | cons bit path ih =>
    rw [PrefixCode.reach_cons] at found
    simp only [Decoder.read_cons, Decoder.step, step]
    cases path with
    | nil =>
      rw [PrefixCode.reach_nil] at found
      simp only [found, Decoder.read_nil, List.length_singleton]
      exact collected_progress { r with offset := (r.offset + 1) % 8 } _ _
    | cons bit' path =>
      have notYet : ∀ value, code.follow bit ≠ .symbol value := by
        intro value is
        rw [is, PrefixCode.reach_symbol (by simp)] at found
        cases found
      have rest := ih { r with offset := (r.offset + 1) % 8 } (code.follow bit) (left - 1) (by simp)
        (by simp only [List.length_cons] at short ⊢; omega) found
      have offset : ((r.offset + 1) % 8 + (bit' :: path).length) % 8 =
          (r.offset + (bit :: bit' :: path).length) % 8 := by
        simp only [List.length_cons]
        omega
      rw [offset] at rest
      rw [← rest]
      have more : ¬ left ≤ 1 := by
        simp only [List.length_cons] at short
        omega
      split
      · next value is => exact absurd is (notYet value)
      · rw [if_neg more]

/-- A path of a code is collected as its symbol. -/
theorem read_code (r : Reading) (goal : Goal) {code : PrefixCode} {path : List Bool} {value : Nat} (some : path ≠ [])
    (short : path.length ≤ maxCodeLength) (found : code.reach path = .symbol value) :
    (r.code goal code).read path =
      ({ r with goal, offset := (r.offset + path.length) % 8 } : Reading).collected value :=
  read_code_from { r with goal } code maxCodeLength some short found

end Reading
end ChainArchive.Codec
