import ChainArchive.Codec.Stream
import ChainArchive.Proofs.Bytes
import ChainArchive.Proofs.Codec.Reading

/-!
# The frame of a stream

What stands around the compressed text: the header in front, the padding and the
checksum behind the last block.
-/

namespace ChainArchive.Codec
set_option autoImplicit false

/-- Octets are one field, the first of them the least significant. -/
theorem flatMap_octetBits (octets : Bytes) :
    octets.flatMap octetBits = fieldBits (8 * octets.length) (Bytes.toNat octets.reverse) := by
  induction octets with
  | nil => rfl
  | cons byte octets ih =>
    have low : byte.toNat < 2 ^ 8 := byte.toNat_lt
    rw [List.flatMap_cons, ih, octetBits, fieldBits_append _ _ low, List.reverse_cons, Bytes.toNat_concat]
    congr 1
    · rw [List.length_cons]
      omega
    · omega

theorem checksum_lt (data : Bytes) : checksum data < 2 ^ 32 := by
  have sums : ∀ (data : Bytes) (sum : Adler), sum.low < Adler.modulus → sum.high < Adler.modulus →
      (data.foldl Adler.add sum).low < Adler.modulus ∧ (data.foldl Adler.add sum).high < Adler.modulus := by
    intro data
    induction data with
    | nil => exact fun _ low high => ⟨low, high⟩
    | cons byte data ih => exact fun sum _ _ => ih _ (Nat.mod_lt _ (by decide)) (Nat.mod_lt _ (by decide))
  obtain ⟨low, high⟩ := sums data {} (by decide) (by decide)
  simp only [Adler.modulus] at low high
  simp only [checksum, Adler.value]
  omega

namespace Decoder

/-- The decoder in front of a block, with the text so far. -/
def atBlock (out : Array UInt8) (offset : Nat) : Decoder :=
  .reading { out, offset, isLast := false, goal := .blockHeader, progress := .number 3 1 0 }

end Decoder

namespace Reading

/-- The header leads to the first block. -/
theorem read_header : Decoder.start.read (header.flatMap octetBits) = .atBlock #[] 0 := by
  have bits : header.flatMap octetBits = fieldBits 16 0xDA78 := by decide
  have sound : isStreamHeader 0xDA78 = true := by decide
  let r : Reading := { out := #[], offset := 0, isLast := false, goal := .streamHeader, progress := .number 16 1 0 }
  have start : Decoder.start = r.number .streamHeader 16 := rfl
  rw [bits, start, read_number r _ (by decide) (by decide)]
  simp [collected, sound, number, Decoder.atBlock, r]

/-- Behind the last block, the padding leads to the checksum. -/
theorem read_padding (r : Reading) (last : r.isLast = true) (inside : r.offset < 8) :
    ∃ s : Reading, s.out = r.out ∧
      r.nextBlock.read (List.replicate ((8 - r.offset) % 8) false) = s.number .checksum 32 := by
  unfold nextBlock
  rw [last]
  simp only [Bool.not_true, Bool.false_eq_true, if_false]
  by_cases aligned : r.offset = 0
  · have none : (8 - r.offset) % 8 = 0 := by rw [aligned]
    rw [if_pos aligned, none, List.replicate_zero]
    exact ⟨r, rfl, rfl⟩
  · have rest : (8 - r.offset) % 8 = 8 - r.offset := Nat.mod_eq_of_lt (by omega)
    have padded := read_number r .checksumPadding (by omega : 0 < 8 - r.offset) (Nat.two_pow_pos _)
    rw [if_neg aligned, rest, ← fieldBits_zero, padded]
    exact ⟨{ r with goal := .checksumPadding, offset := (r.offset + (8 - r.offset)) % 8 }, rfl, rfl⟩

/-- The checksum of the text completes the stream. -/
theorem read_trailer (r : Reading) :
    (r.number .checksum 32).read ((trailer r.out.toList).flatMap octetBits) = .complete r.out 0 := by
  have width : (trailer r.out.toList).length = 4 := Bytes.length_ofNat 4 _
  have bits := flatMap_octetBits (trailer r.out.toList)
  have fits : Bytes.toNat (trailer r.out.toList).reverse < 2 ^ 32 := by
    have := Bytes.toNat_lt (trailer r.out.toList).reverse
    rwa [List.length_reverse, width] at this
  have value : Bytes.toNat ((Bytes.ofNat 4 (Bytes.toNat (trailer r.out.toList).reverse)).reverse) =
      checksum r.out.toList := by
    have octets := Bytes.ofNat_toNat (trailer r.out.toList).reverse
    rw [List.length_reverse, width] at octets
    rw [octets, List.reverse_reverse, trailer, Bytes.toNat_ofNat]
    exact Nat.mod_eq_of_lt (checksum_lt _)
  rw [width] at bits
  rw [bits, read_number r .checksum (by decide) fits]
  simp only [collected, value, if_true]

end Reading
end ChainArchive.Codec
