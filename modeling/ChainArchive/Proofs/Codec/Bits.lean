import ChainArchive.Codec.Deflate
import Mathlib.Algebra.Group.Nat.Defs
import Mathlib.Tactic.Common

/-!
# Bits of a stream

A writer's octets and its pending bits are one list of bits, and everything that
is written is appended to it. How far the last octet is filled is the number of
bits modulo eight.
-/

namespace ChainArchive.Codec
set_option autoImplicit false

/-! ## Fields -/

@[simp] theorem length_fieldBits (width n : Nat) : (fieldBits width n).length = width := by
  induction width generalizing n with
  | zero => rfl
  | succ width ih => simp [fieldBits, ih]

@[simp] theorem length_octetBits (byte : UInt8) : (octetBits byte).length = 8 := length_fieldBits 8 _

theorem fieldBits_add (first second n : Nat) :
    fieldBits (first + second) n = fieldBits first n ++ fieldBits second (n / 2 ^ first) := by
  induction first generalizing n with
  | zero => simp [fieldBits]
  | succ first ih =>
    rw [Nat.succ_add, fieldBits, ih, fieldBits, List.cons_append, Nat.div_div_eq_div_mul, Nat.pow_succ']

/-- Only the lowest bits are written. -/
theorem fieldBits_mod (width n : Nat) : fieldBits width (n % 2 ^ width) = fieldBits width n := by
  induction width generalizing n with
  | zero => rfl
  | succ width ih =>
    have low : n % 2 ^ (width + 1) % 2 = n % 2 := by
      rw [Nat.pow_succ', Nat.mod_mul_right_mod]
    have high : n % 2 ^ (width + 1) / 2 = n / 2 % 2 ^ width := by
      rw [Nat.pow_succ', Nat.mod_mul_right_div_self]
    rw [fieldBits, fieldBits, low, high, ih]

/-- Two fields, one after the other, are one field. -/
theorem fieldBits_append {first low : Nat} (second high : Nat) (fits : low < 2 ^ first) :
    fieldBits first low ++ fieldBits second high = fieldBits (first + second) (low + 2 ^ first * high) := by
  have positive : 0 < 2 ^ first := Nat.two_pow_pos first
  rw [fieldBits_add, Nat.add_mul_div_left _ _ positive, Nat.div_eq_of_lt fits, Nat.zero_add]
  rw [← fieldBits_mod first (low + 2 ^ first * high), Nat.add_mul_mod_self_left, Nat.mod_eq_of_lt fits]

theorem fieldBits_zero (width : Nat) : fieldBits width 0 = List.replicate width false := by
  induction width with
  | zero => rfl
  | succ width ih => simpa [fieldBits, List.replicate_succ] using ih

/-- One more bit at the end. -/
theorem fieldBits_succ {width n : Nat} (b : Bool) (fits : n < 2 ^ width) :
    fieldBits width n ++ [b] = fieldBits (width + 1) (n + 2 ^ width * b.toNat) := by
  have last : [b] = fieldBits 1 b.toNat := by cases b <;> rfl
  rw [last, fieldBits_append 1 b.toNat fits]

/-! ## What a writer has written -/

namespace BitSink

/-- All bits that were written. -/
def stream (sink : BitSink) : List Bool := sink.octets.toList.flatMap octetBits ++ fieldBits sink.count sink.pending

/-- The pending bits fill less than an octet. -/
structure Sound (sink : BitSink) : Prop where
  count_lt : sink.count < 8
  pending_lt : sink.pending < 2 ^ sink.count

theorem sound_empty : Sound {} := ⟨by decide, by decide⟩

@[simp] theorem stream_empty : stream {} = [] := rfl

variable {sink : BitSink}

theorem length_stream (sink : BitSink) : sink.stream.length = 8 * sink.octets.size + sink.count := by
  have all : ∀ octets : List UInt8, (octets.flatMap octetBits).length = 8 * octets.length := by
    intro octets
    induction octets with
    | nil => rfl
    | cons byte octets ih =>
      rw [List.flatMap_cons, List.length_append, ih, length_octetBits, List.length_cons]
      omega
  rw [stream, List.length_append, all, length_fieldBits, Array.length_toList]

/-- How far the last octet is filled. -/
theorem Sound.count_eq (h : sink.Sound) : sink.count = sink.stream.length % 8 := by
  have := h.count_lt
  rw [length_stream]
  omega

/-- A bit is written behind all others. -/
theorem Sound.bit (h : sink.Sound) (b : Bool) : (sink.bit b).Sound ∧ (sink.bit b).stream = sink.stream ++ [b] := by
  have fits := h.pending_lt
  have pending : (if b then sink.pending + Nat.pow 2 sink.count else sink.pending) =
      sink.pending + 2 ^ sink.count * b.toNat := by
    cases b <;> simp
  have grown : sink.pending + 2 ^ sink.count * b.toNat < 2 ^ (sink.count + 1) := by
    rw [Nat.pow_succ]
    cases b <;> simp <;> omega
  unfold BitSink.bit
  rw [pending]
  split
  · next full =>
    refine ⟨⟨by simp, by simp⟩, ?_⟩
    rw [full] at grown fits
    have octet : octetBits (UInt8.ofNat (sink.pending + 2 ^ sink.count * b.toNat)) =
        fieldBits sink.count sink.pending ++ [b] := by
      rw [fieldBits_succ b (full ▸ fits), octetBits, full]
      rw [UInt8.toNat_ofNat_of_lt' (by simpa using grown)]
    simp only [stream, Array.toList_push, List.flatMap_append, List.flatMap_singleton, octet, fieldBits]
    simp
  · next more =>
    have := h.count_lt
    refine ⟨⟨by simp only; omega, grown⟩, ?_⟩
    simp [stream, fieldBits_succ b fits]

theorem Sound.bits (h : sink.Sound) (bs : List Bool) :
    (sink.bits bs).Sound ∧ (sink.bits bs).stream = sink.stream ++ bs := by
  induction bs generalizing sink with
  | nil => exact ⟨h, (List.append_nil _).symm⟩
  | cons b bs ih =>
    obtain ⟨sound, written⟩ := h.bit b
    obtain ⟨sound', written'⟩ := ih sound
    refine ⟨sound', written'.trans ?_⟩
    rw [written, List.append_assoc]
    rfl

theorem Sound.field (h : sink.Sound) (width value : Nat) :
    (sink.field width value).Sound ∧ (sink.field width value).stream = sink.stream ++ fieldBits width value :=
  h.bits _

/-- Two fields, one after the other, are written as one. -/
theorem field_field (sink : BitSink) {first low : Nat} (second high : Nat) (fits : low < 2 ^ first) :
    (sink.field first low).field second high = sink.field (first + second) (low + 2 ^ first * high) := by
  simp only [BitSink.field, BitSink.bits]
  rw [← List.foldl_append, fieldBits_append second high fits]

/-- A bit is a field of width one. -/
theorem bit_eq_field (sink : BitSink) (b : Bool) : sink.bit b = sink.field 1 b.toNat := by
  cases b <;> rfl

/-- The last octet is filled up with zeros. -/
theorem Sound.align (h : sink.Sound) : sink.align.Sound ∧ sink.align.count = 0 ∧
    sink.align.stream = sink.stream ++ List.replicate ((8 - sink.count) % 8) false := by
  have := h.count_lt
  unfold BitSink.align
  split
  · next aligned => exact ⟨h, aligned, by simp [aligned]⟩
  · next partly =>
    obtain ⟨sound, written⟩ := h.field (8 - sink.count) 0
    have rest : (8 - sink.count) % 8 = 8 - sink.count := Nat.mod_eq_of_lt (by omega)
    refine ⟨sound, ?_, by rw [written, fieldBits_zero, rest]⟩
    rw [sound.count_eq, written, List.length_append, length_fieldBits, length_stream]
    omega

/-- A writer whose last octet is full has written exactly its octets. -/
theorem stream_of_aligned (aligned : sink.count = 0) : sink.stream = sink.octets.toList.flatMap octetBits := by
  simp [stream, aligned, fieldBits]

end BitSink
end ChainArchive.Codec
