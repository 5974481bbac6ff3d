import ChainArchive.Proofs.Codec.Blocks
import ChainArchive.Proofs.Codec.Chunks

/-!
# The round trip

The bits of a compressed text lead the decoder through the header, all blocks and
the checksum, and then its output is the text. The buffers on both sides change
nothing about it.
-/

namespace ChainArchive.Codec
set_option autoImplicit false

/-- The octets of a compressed text are the bits that its blocks were written with, filled up. -/
theorem exists_leads_deflate (text : Bytes) : ∃ sink : BitSink,
    Leads {} sink (.atBlock #[] 0) (.behindBlock text.toArray sink.count true) ∧
      deflate text = sink.align.octets.toList := by
  obtain ⟨cover, some⟩ := cover_blocksOf text
  have leads := leads_blocks cover some (Nat.zero_add _) BitSink.sound_empty
  have none : text.toArray.extract 0 0 = #[] := Array.extract_empty_of_stop_le_start (Nat.le_refl 0)
  have all : text.toArray.extract 0 text.length = text.toArray := by
    rw [← List.size_toArray, Array.extract_size]
  rw [none, all] at leads
  refine ⟨_, leads, ?_⟩
  rw [deflate, ← Array.foldl_toList, Array.length_toList]

/-- All of a compressed text but its checksum leads the decoder to the checksum, and then it has the text. -/
theorem exists_read_deflate (text : Bytes) : ∃ r : Reading, r.out = text.toArray ∧
    Decoder.start.read ((header ++ deflate text).flatMap octetBits) = r.number .checksum 32 := by
  obtain ⟨sink, ⟨sound, bits, written, read⟩, octets⟩ := exists_leads_deflate text
  rw [BitSink.stream_empty, List.nil_append] at written
  obtain ⟨-, aligned, filled⟩ := sound.align
  rw [BitSink.stream_of_aligned aligned, ← octets, written] at filled
  rw [List.flatMap_append, Decoder.read_append, Reading.read_header, filled, Decoder.read_append, read]
  exact Reading.read_padding ⟨text.toArray, sink.count, true, .blockHeader, .number 3 1 0⟩ rfl sound.count_lt

/-- The decoder completes a compressed text, and gives the text. -/
theorem run_compress (text : Bytes) : ∃ after, Decoder.run (compress text) = .complete text.toArray after := by
  obtain ⟨r, all, read⟩ := exists_read_deflate text
  have complete : Decoder.start.read ((compress text).flatMap octetBits) = .complete text.toArray 0 := by
    have ends := r.read_trailer
    rw [all] at ends
    rw [compress, List.flatMap_append, Decoder.read_append, read]
    exact ends
  exact Decoder.complete_of_read complete

theorem decompress_compress (text : Bytes) : decompress (compress text) = .ok text := by
  obtain ⟨after, complete⟩ := run_compress text
  rw [decompress_eq, complete]

/-- Compressing succeeds for every text, and decompressing the stream succeeds with the text. -/
theorem restores_compressed (text : Bytes) :
    compressInChunks text = .ok (compress text) ∧ decompress (compress text) = .ok text :=
  ⟨compressInChunks_eq text, decompress_compress text⟩

end ChainArchive.Codec
