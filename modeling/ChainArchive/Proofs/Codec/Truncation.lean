import ChainArchive.Proofs.Codec.RoundTrip

/-!
# Streams that are cut

A fault and a complete stream are final: no octets behind them change what was
said. A compressed text completes the decoder with its last octet only, so a
decoder that gets less of it is still inside the stream, and says so.
-/

namespace ChainArchive.Codec
set_option autoImplicit false

/-- The outcome stands, whatever follows the stream, unless the stream has ended early. -/
theorem decompress_append {stream : Bytes} (final : ∀ octets, decompress stream ≠ .error (.truncated octets))
    (more : Bytes) : decompress (stream ++ more) = decompress stream := by
  rw [decompress_eq] at final
  rw [decompress_eq, decompress_eq, Decoder.run_append]
  cases ran : Decoder.run stream with
  | reading r =>
    rw [ran] at final
    exact absurd rfl (final _)
  | complete out after => rw [Decoder.foldl_take_complete]
  | faulty => rw [Decoder.foldl_take_faulty]

/-- A stream that ends early was read to its end. -/
theorem length_of_truncated {stream : Bytes} {octets : Nat} (cut : decompress stream = .error (.truncated octets)) :
    octets = stream.length := by
  rw [decompress_eq] at cut
  cases ran : Decoder.run stream with
  | reading r =>
    rw [ran] at cut
    cases cut
    rfl
  | complete out after =>
    rw [ran] at cut
    cases cut
  | faulty =>
    rw [ran] at cut
    cases cut

/-- Without its last octet, a compressed text leaves the decoder inside the stream. -/
theorem run_dropLast_compress (text : Bytes) : ∃ r, Decoder.run (compress text).dropLast = .reading r := by
  obtain ⟨r, -, read⟩ := exists_read_deflate text
  have width : (trailer text).length = 4 := Bytes.length_ofNat 4 _
  have some : trailer text ≠ [] := List.ne_nil_of_length_eq_add_one width
  have three : ((trailer text).dropLast.flatMap octetBits).length < 32 := by
    rw [flatMap_octetBits, length_fieldBits, List.length_dropLast, width]
    decide
  obtain ⟨r', inside⟩ := r.read_number_short .checksum three
  refine ⟨r', Decoder.reading_of_read ?_⟩
  rw [compress, List.dropLast_append_of_ne_nil some, List.flatMap_append, Decoder.read_append, read]
  exact inside

/-- A part of a compressed text is a stream that ends early. -/
theorem decompress_part {text part : Bytes} (isPart : part <+: compress text) (less : part ≠ compress text) :
    decompress part = .error (.truncated part.length) := by
  obtain ⟨rest, whole⟩ := isPart
  obtain ⟨r, inside⟩ := run_dropLast_compress text
  have some : rest ≠ [] := by
    rintro rfl
    exact less (by rwa [List.append_nil] at whole)
  rw [← whole, List.dropLast_append_of_ne_nil some, Decoder.run_append] at inside
  rw [decompress_eq]
  cases ran : Decoder.run part with
  | reading r' => rfl
  | complete out after =>
    rw [ran, Decoder.foldl_take_complete] at inside
    cases inside
  | faulty =>
    rw [ran, Decoder.foldl_take_faulty] at inside
    cases inside

/-- What a stream decompresses to is not changed by octets behind it: neither a text nor a fault. A stream that
ends early is said to have been read to its end, and so ends every part of what a text is compressed to. -/
theorem outcome_is_settled_in_order (stream more : Bytes) :
    (∀ text, decompress stream = .ok text → decompress (stream ++ more) = .ok text) ∧
      (decompress stream = .error .invalid → decompress (stream ++ more) = .error .invalid) ∧
      (∀ octets, decompress stream = .error (.truncated octets) → octets = stream.length) ∧
      ∀ text whole, compressInChunks text = .ok whole → stream <+: whole → stream ≠ whole →
        decompress stream = .error (.truncated stream.length) := by
  refine ⟨fun text restored => ?_, fun fault => ?_, fun octets => length_of_truncated, ?_⟩
  · rw [decompress_append (by simp [restored]), restored]
  · rw [decompress_append (by simp [fault]), fault]
  · intro text whole written isPart less
    rw [compressInChunks_eq] at written
    cases written
    exact decompress_part isPart less

/-- A compressed octet with others behind it, two octets that are no header, and a header alone. -/
theorem outcome_is_settled_in_order_example :
    decompress (compress [7] ++ [1, 2]) = .ok [7] ∧ decompress ([0, 1] ++ [2]) = .error .invalid ∧
      decompress header = .error (.truncated 2) ∧ 2 = header.length := by
  have restored := (outcome_is_settled_in_order (compress [7]) [1, 2]).1 [7] (decompress_compress [7])
  have noHeader : decompress [0, 1] = .error .invalid := by
    rw [decompress_eq]
    rfl
  have fault := (outcome_is_settled_in_order [0, 1] [2]).2.1 noHeader
  obtain ⟨-, -, length, cut⟩ := outcome_is_settled_in_order header []
  have isPart : header <+: compress [7] := by
    rw [compress, List.append_assoc]
    exact List.prefix_append _ _
  have less : header ≠ compress [7] := by
    intro same
    have width : (trailer [7]).length = 4 := Bytes.length_ofNat 4 _
    have lengths := congrArg List.length same
    simp only [compress, List.length_append, width] at lengths
    omega
  have short := cut [7] _ (compressInChunks_eq [7]) isPart less
  exact ⟨restored, fault, short, length 2 short⟩

end ChainArchive.Codec
