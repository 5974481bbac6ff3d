import ChainArchive.Codec.Chunks
import ChainArchive.Codec.Deflate
import ChainArchive.Codec.Inflate

/-!
# Compressed streams

A stream is a header, the compressed text and a checksum of the text. The encoder
knows the whole stream once it has the text, and hands it out as the buffer has
room. The decoder takes octets until it can fill the buffer.
-/

namespace ChainArchive.Codec
set_option autoImplicit false

/-- The two octets in front: deflate with a window of 32 KiB, written at the best level. -/
def header : Bytes := [0x78, 0xDA]

/-- The compressed form of a text. -/
def compress (text : Bytes) : Bytes := header ++ deflate text ++ trailer text

/-! ## The encoder -/

/-- An encoder: before its first call, or with the part of the stream that it has not handed out. -/
inductive Encoder
  | fresh
  | writing (stream : Bytes)

namespace Encoder

/-- What is still to be handed out. -/
def stream (input : Bytes) : Encoder → Bytes
  | .fresh => compress input
  | .writing stream => stream

/-- Takes the whole text and fills the buffer. -/
def call (encoder : Encoder) (input : Bytes) : Turn Encoder :=
  let stream := encoder.stream input
  ⟨.writing (stream.drop chunkSize), input.length, stream.take chunkSize, stream.length ≤ chunkSize⟩

/-- What is left to be taken and to be handed out. -/
def left (encoder : Encoder) (input : Bytes) : Nat := input.length + (encoder.stream input).length

theorem call_advances (encoder : Encoder) (input : Bytes) (busy : (encoder.call input).isIdle = false) :
    left (encoder.call input).state (input.drop (encoder.call input).taken) < left encoder input := by
  have rest : left (encoder.call input).state (input.drop (encoder.call input).taken) =
      (encoder.stream input).length - chunkSize := by
    show (input.drop input.length).length + ((encoder.stream input).drop chunkSize).length = _
    rw [List.drop_length, List.length_drop, List.length_nil, Nat.zero_add]
  have some : 0 < input.length ∨ 0 < (encoder.stream input).length := by
    simp only [Turn.isIdle, call, Bool.and_eq_false_iff, beq_eq_false_iff_ne] at busy
    obtain taken | chunk := busy
    · exact .inl (Nat.pos_of_ne_zero taken)
    · refine .inr (List.length_pos_iff.2 fun none => ?_)
      rw [none] at chunk
      cases chunk
  rw [rest, left]
  simp only [chunkSize]
  omega

end Encoder

/-- The engine that compresses. -/
def encoder : Engine String where
  State := Encoder
  start := .fresh
  call state input := .ok (state.call input)
  left := Encoder.left
  advances state input turn called busy := by
    cases called
    exact state.call_advances input busy

/-- Compresses a text, or says why it could not. -/
def compressInChunks (text : Bytes) : Except String Bytes := encoder.run (fun _ => "compressor made no progress") text

/-! ## The decoder -/

/-- Why a stream could not be read. -/
inductive StreamError
  /-- The stream breaks the format. -/
  | invalid
  /-- The stream ends early; so many of its octets were read. -/
  | truncated (octets : Nat)
deriving Repr, DecidableEq

/-- The text so far. -/
def Decoder.text : Decoder → Array UInt8
  | .reading r => r.out
  | .complete out _ => out
  | .faulty => #[]

/-- Takes in octets while the text is shorter than that, and counts them. -/
def Decoder.feed (enough : Nat) : Decoder → Bytes → Nat → Decoder × Nat
  | .reading r, byte :: input, taken =>
    if enough ≤ r.out.size then (.reading r, taken) else feed enough (Decoder.take (.reading r) byte) input (taken + 1)
  | d, _, taken => (d, taken)

/-- The octets in front are taken, and if others are left, the text is long enough. -/
theorem Decoder.feed_spec (enough : Nat) (d : Decoder) (input : Bytes) (taken : Nat) :
    ∃ more ≤ input.length, d.feed enough input taken = ((input.take more).foldl Decoder.take d, taken + more) ∧
      ∀ r, (input.take more).foldl Decoder.take d = .reading r → more = input.length ∨ enough ≤ r.out.size := by
  fun_induction Decoder.feed with
  | case1 r byte input taken long =>
    refine ⟨0, Nat.zero_le _, rfl, fun r' same => .inr ?_⟩
    cases same
    exact long
  | case2 r byte input taken short ih =>
    obtain ⟨more, inside, fed, stopped⟩ := ih
    refine ⟨more + 1, Nat.succ_le_succ inside, ?_, fun r' same => ?_⟩
    · rw [fed, List.take_succ_cons, List.foldl_cons, Nat.add_assoc, Nat.add_comm 1]
    · rw [List.length_cons, Nat.succ_inj]
      exact stopped r' same
  | case3 input d taken other =>
    refine ⟨0, Nat.zero_le _, rfl, fun r same => .inl ?_⟩
    cases input with
    | nil => rfl
    | cons byte input => exact (other r byte input same rfl).elim

/-- The greatest length that the text has while a decoder takes in these octets. -/
def Decoder.reach (d : Decoder) : Bytes → Nat
  | [] => d.text.size
  | byte :: input => max d.text.size ((d.take byte).reach input)

theorem Decoder.size_le_reach (d : Decoder) (input : Bytes) : d.text.size ≤ d.reach input := by
  cases input with
  | nil => exact Nat.le_refl _
  | cons byte input => exact Nat.le_max_left ..

theorem Decoder.reach_drop_le (d : Decoder) (input : Bytes) (more : Nat) :
    ((input.take more).foldl Decoder.take d).reach (input.drop more) ≤ d.reach input := by
  induction input generalizing d more with
  | nil => simp
  | cons byte input ih =>
    cases more with
    | zero => exact Nat.le_refl _
    | succ more => exact Nat.le_trans (ih (d.take byte) more) (Nat.le_max_right ..)

/-- A decoder of whose text so many octets have been handed out. -/
structure Decoding where
  decoder : Decoder
  given : Nat

namespace Decoding

/-- Takes octets until the buffer can be filled, and fills it. -/
def call (s : Decoding) (input : Bytes) : Except StreamError (Turn Decoding) :=
  let enough := s.given + chunkSize
  let (decoder, taken) := s.decoder.feed enough input 0
  let chunk := (decoder.text.extract s.given enough).toList
  let turn (ended : Bool) : Turn Decoding := ⟨⟨decoder, s.given + chunk.length⟩, taken, chunk, ended⟩
  match decoder with
  | .reading _ => .ok (turn false)
  | .complete out _ => .ok (turn (out.size ≤ enough))
  | .faulty => .error .invalid

/-- What is left to be taken and to be handed out. -/
def left (s : Decoding) (input : Bytes) : Nat := input.length + (s.decoder.reach input - s.given)

theorem call_ok {s : Decoding} {input : Bytes} {turn : Turn Decoding} (called : s.call input = .ok turn) :
    let fed := s.decoder.feed (s.given + chunkSize) input 0
    turn.state.decoder = fed.1 ∧ turn.taken = fed.2 ∧
      turn.chunk = (fed.1.text.extract s.given (s.given + chunkSize)).toList ∧
      turn.state.given = s.given + turn.chunk.length := by
  unfold call at called
  dsimp only at called
  split at called
  · cases called
    exact ⟨rfl, rfl, rfl, rfl⟩
  · cases called
    exact ⟨rfl, rfl, rfl, rfl⟩
  · cases called

theorem call_advances {s : Decoding} {input : Bytes} {turn : Turn Decoding} (called : s.call input = .ok turn)
    (busy : turn.isIdle = false) : left turn.state (input.drop turn.taken) < left s input := by
  obtain ⟨decoder, taken, chunk, given⟩ := call_ok called
  obtain ⟨more, inside, fed, -⟩ := s.decoder.feed_spec (s.given + chunkSize) input 0
  rw [fed] at decoder chunk taken
  simp only [Nat.zero_add] at decoder chunk taken
  have less := s.decoder.reach_drop_le input more
  have room := ((input.take more).foldl Decoder.take s.decoder).size_le_reach (input.drop more)
  have length : turn.chunk.length =
      min (s.given + chunkSize) ((input.take more).foldl Decoder.take s.decoder).text.size - s.given := by
    rw [chunk, Array.length_toList, Array.size_extract]
  have some : 0 < more ∨ 0 < turn.chunk.length := by
    simp only [Turn.isIdle, taken, Bool.and_eq_false_iff, beq_eq_false_iff_ne] at busy
    obtain taken | chunk := busy
    · exact .inl (Nat.pos_of_ne_zero taken)
    · refine .inr (List.length_pos_iff.2 fun none => ?_)
      rw [none] at chunk
      cases chunk
  rw [left, left, decoder, taken, given, List.length_drop]
  omega

end Decoding

/-- The engine that decompresses. -/
def decoder : Engine StreamError where
  State := Decoding
  start := ⟨.start, 0⟩
  call := Decoding.call
  left := Decoding.left
  advances _ _ _ := Decoding.call_advances

/-- The text of a stream. Octets after the end of the stream do not matter. -/
def decompress (stream : Bytes) : Except StreamError Bytes := decoder.run .truncated stream

end ChainArchive.Codec
