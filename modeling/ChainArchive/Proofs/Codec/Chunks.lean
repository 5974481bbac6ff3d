import ChainArchive.Codec.Stream
import ChainArchive.Proofs.Codec.Reading

/-!
# Nothing is lost in the buffers

What an engine will still do can be told for every state and every rest of the
input. If each call does the first part of that, all calls together do all of it,
however the octets fall into chunks.
-/

namespace ChainArchive.Codec
set_option autoImplicit false

/-! ## Calls in a row -/

namespace Engine

variable {ε : Type}

/-- What follows from one call, if what comes after it is known. -/
def after (stuck : Nat → ε) (rest : Except ε Bytes) (consumed : Nat) {State : Type} (turn : Turn State) :
    Except ε Bytes :=
  if turn.ended then .ok turn.chunk
  else if turn.isIdle then .error (stuck consumed)
  else rest.map (turn.chunk ++ ·)

/-- The outcome that is told for a state is what a call does, followed by the outcome for the state after it. -/
structure Tells (engine : Engine ε) (stuck : Nat → ε) (outcome : engine.State → Nat → Bytes → Except ε Bytes) :
    Prop where
  failed : ∀ state consumed input e, engine.call state input = .error e → outcome state consumed input = .error e
  done : ∀ state consumed input turn, engine.call state input = .ok turn → outcome state consumed input =
    after stuck (outcome turn.state (consumed + turn.taken) (input.drop turn.taken)) consumed turn

/-- All calls together come to the outcome that is told. -/
theorem gather_eq {engine : Engine ε} {stuck : Nat → ε} {outcome : engine.State → Nat → Bytes → Except ε Bytes}
    (tells : Tells engine stuck outcome) (state : engine.State) (consumed : Nat) (input : Bytes)
    (output : Array UInt8) :
    (engine.gather stuck state consumed input output).map Array.toList =
      (outcome state consumed input).map (output.toList ++ ·) := by
  fun_induction gather engine stuck state consumed input output with
  | case1 state consumed input output e called =>
    rw [tells.failed state consumed input e called]
    rfl
  | case2 state consumed input output turn called gathered ended =>
    rw [tells.done state consumed input turn called, after, if_pos ended]
    simp [Except.map, gathered]
  | case3 state consumed input output turn called more idle =>
    rw [tells.done state consumed input turn called, after, if_neg more, if_pos idle]
    rfl
  | case4 state consumed input output turn called gathered more busy ih =>
    rw [ih, tells.done state consumed input turn called, after, if_neg more, if_neg busy]
    cases outcome turn.state (consumed + turn.taken) (input.drop turn.taken) with
    | error e => rfl
    | ok rest => simp [Except.map, gathered]

theorem run_eq {engine : Engine ε} {stuck : Nat → ε} {outcome : engine.State → Nat → Bytes → Except ε Bytes}
    (tells : Tells engine stuck outcome) (input : Bytes) : engine.run stuck input = outcome engine.start 0 input := by
  rw [run, gather_eq tells]
  cases outcome engine.start 0 input with
  | error e => rfl
  | ok rest => rfl

end Engine

/-! ## The encoder -/

/-- The first chunk of a stream, followed by the others, is the stream. -/
theorem after_chunk {ε State : Type} (stuck : Nat → ε) (consumed taken : Nat) (state : State) (stream : Bytes) :
    .ok stream = Engine.after stuck (.ok (stream.drop chunkSize)) consumed
      ⟨state, taken, stream.take chunkSize, stream.length ≤ chunkSize⟩ := by
  unfold Engine.after Turn.isIdle
  dsimp only
  by_cases short : stream.length ≤ chunkSize
  · rw [if_pos (decide_eq_true short), List.take_of_length_le short]
  · have some : (stream.take chunkSize).isEmpty = false := by
      cases stream with
      | nil => exact absurd (Nat.zero_le _) short
      | cons byte stream => rfl
    rw [some, Bool.and_false, if_neg (by simpa using short), if_neg (by decide)]
    exact congrArg Except.ok (List.take_append_drop chunkSize stream).symm

/-- The encoder hands out the whole stream. -/
theorem compressInChunks_eq (text : Bytes) : compressInChunks text = .ok (compress text) := by
  let stuck (_ : Nat) : String := "compressor made no progress"
  have tells : encoder.Tells stuck fun state _ input => .ok (Encoder.stream input state) := by
    refine ⟨nofun, fun state consumed input turn called => ?_⟩
    cases called
    exact after_chunk stuck consumed input.length _ (Encoder.stream input state)
  exact Engine.run_eq tells text

/-! ## The decoder's text grows at its end -/

/-- The decoder has this text, with more behind it, unless it has found a fault. -/
def Decoder.Extends (out : Array UInt8) (d : Decoder) : Prop := d = .faulty ∨ out.toList <+: d.text.toList

namespace Reading

variable (r : Reading)

theorem extends_number (goal : Goal) (width : Nat) : (r.number goal width).Extends r.out := .inr (List.prefix_refl _)

theorem extends_code (goal : Goal) (code : PrefixCode) : (r.code goal code).Extends r.out := .inr (List.prefix_refl _)

theorem extends_nextBlock : r.nextBlock.Extends r.out := by
  unfold nextBlock
  split
  · exact r.extends_number _ _
  · split
    · exact r.extends_number _ _
    · exact r.extends_number _ _

theorem extends_storedNext (left : Nat) : (r.storedNext left).Extends r.out := by
  unfold storedNext
  split
  · exact r.extends_nextBlock
  · exact r.extends_number _ _

theorem extends_beginCodes (symbols distances : List Nat) : (r.beginCodes symbols distances).Extends r.out := by
  unfold beginCodes
  split
  · exact r.extends_code _ _
  · exact .inl rfl

theorem extends_nextLength (plan : LengthPlan) (code : PrefixCode) : (r.nextLength plan code).Extends r.out := by
  unfold nextLength
  dsimp only
  split
  · exact r.extends_code _ _
  · split
    · exact r.extends_beginCodes _ _
    · exact .inl rfl

theorem extends_beginLengths (plan : LengthPlan) (read : List Nat) : (r.beginLengths plan read).Extends r.out := by
  unfold beginLengths
  dsimp only
  split
  · exact r.extends_nextLength _ _
  · exact .inl rfl

theorem prefix_copyBack (distance length : Nat) (out : Array UInt8) :
    out.toList <+: (copyBack distance length out).toList := by
  induction length generalizing out with
  | zero => exact List.prefix_refl _
  | succ length ih =>
    rw [copyBack]
    refine List.IsPrefix.trans ?_ (ih _)
    rw [Array.toList_push]
    exact List.prefix_append _ _

theorem extends_copied (codes : BlockCodes) (length distance : Nat) :
    (r.copied codes length distance).Extends r.out := .inr (prefix_copyBack distance length r.out)

/-- Whatever is collected, the text only grows. -/
theorem extends_collected (value : Nat) : (r.collected value).Extends r.out := by
  unfold collected
  cases r.goal with
  | streamHeader =>
    dsimp only
    split
    · exact r.extends_number _ _
    · exact .inl rfl
  | blockHeader =>
    dsimp only
    split
    · split
      · exact extends_number _ _ _
      · exact extends_number _ _ _
    · exact extends_beginCodes { r with isLast := value % 2 == 1 } fixedLengths fixedDistances
    · exact extends_number _ _ _
    · exact .inl rfl
  | storedPadding => exact r.extends_number _ _
  | storedSize =>
    dsimp only
    split
    · exact r.extends_storedNext _
    · exact .inl rfl
  | storedOctet left =>
    rcases extends_storedNext { r with out := r.out.push (UInt8.ofNat value) } (left - 1) with fault | grown
    · exact .inl fault
    · refine .inr (List.IsPrefix.trans ?_ grown)
      rw [Array.toList_push]
      exact List.prefix_append _ _
  | planSizes =>
    dsimp only
    split
    · exact r.extends_number _ _
    · exact .inl rfl
  | planLength plan left read =>
    dsimp only
    split
    · exact r.extends_beginLengths _ _
    · exact r.extends_number _ _
  | length plan code =>
    dsimp only
    split
    · split
      · exact .inl rfl
      · exact r.extends_number _ _
    · exact r.extends_number _ _
    · exact r.extends_number _ _
    · exact r.extends_nextLength _ _
  | repeatCount plan code length least => exact r.extends_nextLength _ _
  | symbol codes =>
    dsimp only
    split
    · refine .inr ?_
      show _ <+: (r.out.push _).toList
      rw [Array.toList_push]
      exact List.prefix_append _ _
    · split
      · exact r.extends_nextBlock
      · split
        · exact .inl rfl
        · exact r.extends_code _ _
        · exact r.extends_number _ _
  | lengthExtra codes base => exact r.extends_code _ _
  | distance codes length =>
    dsimp only
    split
    · exact .inl rfl
    · exact r.extends_copied _ _ _
    · exact r.extends_number _ _
  | distanceExtra codes length base => exact r.extends_copied _ _ _
  | checksumPadding => exact r.extends_number _ _
  | checksum =>
    dsimp only
    split
    · exact .inr (List.prefix_refl _)
    · exact .inl rfl

theorem extends_step (bit : Bool) : (r.step bit).Extends r.out := by
  unfold step
  dsimp only
  split
  · split
    · exact extends_collected _ _
    · exact .inr (List.prefix_refl _)
  · split
    · exact extends_collected _ _
    · split
      · exact .inl rfl
      · exact .inr (List.prefix_refl _)

end Reading

namespace Decoder

theorem extends_read {out : Array UInt8} {d : Decoder} (bits : List Bool) (h : d.Extends out) :
    (d.read bits).Extends out := by
  induction bits generalizing d with
  | nil => exact h
  | cons bit bits ih =>
    rw [read_cons]
    apply ih
    cases d with
    | reading r =>
      rcases h with fault | grown
      · cases fault
      · rcases r.extends_step bit with fault | grown'
        · exact .inl fault
        · exact .inr (grown.trans grown')
    | complete out' after => exact h
    | faulty => exact h

/-- Whatever octets come, the text only grows. -/
theorem extends_foldl {out : Array UInt8} {d : Decoder} (octets : Bytes) (h : d.Extends out) :
    (octets.foldl take d).Extends out := by
  induction octets generalizing d with
  | nil => exact h
  | cons byte octets ih =>
    rw [List.foldl_cons]
    apply ih
    cases d with
    | reading r => exact extends_read (octetBits byte) h
    | complete out' after =>
      rcases h with fault | grown
      · cases fault
      · exact .inr grown
    | faulty => exact .inl rfl

end Decoder

/-! ## The decoder -/

/-- What a decoder makes of the rest of a stream, without what has been handed out. -/
def Decoding.outcome (s : Decoding) (consumed : Nat) (input : Bytes) : Except StreamError Bytes :=
  match input.foldl Decoder.take s.decoder with
  | .complete out _ => .ok (out.toList.drop s.given)
  | .faulty => .error .invalid
  | .reading _ => .error (.truncated (consumed + input.length))

/-- A chunk of the text so far and what follows behind it in the whole text. -/
theorem chunk_append_drop {xs ys : Bytes} (h : xs <+: ys) (given size : Nat) :
    (xs.drop given).take size ++ ys.drop (given + ((xs.drop given).take size).length) = ys.drop given := by
  obtain ⟨more, rfl⟩ := h
  rw [← List.drop_drop]
  by_cases inside : given ≤ xs.length
  · rw [List.drop_append_of_le_length inside]
    generalize xs.drop given = rest
    have first : rest.take size = (rest ++ more).take (rest.take size).length := by
      rw [List.length_take, List.take_append_of_le_length (Nat.min_le_right ..), List.take_eq_take_min]
    calc
      _ = (rest ++ more).take (rest.take size).length ++ (rest ++ more).drop (rest.take size).length := by rw [← first]
      _ = rest ++ more := List.take_append_drop _ _
  · rw [List.drop_eq_nil_of_le (by omega), List.take_nil]
    rfl

namespace Decoding

variable {s : Decoding} {consumed : Nat} {input : Bytes}

theorem chunk_eq (text : Array UInt8) (given : Nat) :
    (text.extract given (given + chunkSize)).toList = (text.toList.drop given).take chunkSize := by
  rw [Array.toList_extract, List.extract_eq_take_drop, Nat.add_sub_cancel_left]

theorem foldl_split (d : Decoder) (input : Bytes) (more : Nat) : input.foldl Decoder.take d =
    (input.drop more).foldl Decoder.take ((input.take more).foldl Decoder.take d) := by
  rw [← List.foldl_append, List.take_append_drop]

/-- When the text is long enough, the chunk is not empty. -/
theorem isEmpty_chunk {text : Bytes} {given : Nat} (long : given + chunkSize ≤ text.length) :
    ((text.drop given).take chunkSize).isEmpty = false := by
  have length : ((text.drop given).take chunkSize).length = chunkSize := by
    rw [List.length_take, List.length_drop]
    omega
  cases chunk : (text.drop given).take chunkSize with
  | cons byte rest => rfl
  | nil =>
    rw [chunk] at length
    cases length

/-- A fault is final. -/
theorem outcome_of_error {e : StreamError} (called : s.call input = .error e) :
    s.outcome consumed input = .error e := by
  obtain ⟨more, -, fed, -⟩ := s.decoder.feed_spec (s.given + chunkSize) input 0
  unfold call at called
  dsimp only at called
  rw [fed] at called
  unfold outcome
  rw [foldl_split s.decoder input more]
  cases after : (input.take more).foldl Decoder.take s.decoder with
  | reading r =>
    rw [after] at called
    cases called
  | complete out n =>
    rw [after] at called
    cases called
  | faulty =>
    rw [after] at called
    cases called
    rw [Decoder.foldl_take_faulty]

theorem drop_length_take (xs : Bytes) (n : Nat) : xs.drop (xs.take n).length = xs.drop n := by
  rw [List.length_take]
  by_cases short : n ≤ xs.length
  · rw [Nat.min_eq_left short]
  · rw [List.drop_eq_nil_of_le (by omega), List.drop_eq_nil_of_le (by omega)]

/-- A decoder that is still reading hands out what it can, and the rest comes later. -/
theorem outcome_of_reading {r : Reading} {more : Nat} (inside : more ≤ input.length)
    (all : input.foldl Decoder.take s.decoder = (input.drop more).foldl Decoder.take (.reading r))
    (stopped : more = input.length ∨ s.given + chunkSize ≤ r.out.size) :
    let chunk := (r.out.toList.drop s.given).take chunkSize
    let next : Decoding := ⟨.reading r, s.given + chunk.length⟩
    s.outcome consumed input = Engine.after .truncated (next.outcome (consumed + more) (input.drop more)) consumed
      ⟨next, more, chunk, false⟩ := by
  intro chunk next
  unfold Engine.after Turn.isIdle
  rw [if_neg Bool.false_ne_true]
  by_cases idle : (more == 0 && chunk.isEmpty) = true
  · -- nothing was taken, although the buffer had room
    rw [if_pos idle]
    simp only [Bool.and_eq_true, beq_iff_eq] at idle
    obtain ⟨rfl, empty⟩ := idle
    rcases stopped with none | long
    · obtain rfl : input = [] := List.eq_nil_of_length_eq_zero none.symm
      rw [outcome, all]
      rfl
    · rw [isEmpty_chunk (by rwa [Array.length_toList])] at empty
      cases empty
  · rw [if_neg idle]
    have start : (Decoder.reading r).Extends r.out := .inr (List.prefix_refl r.out.toList)
    have grown := Decoder.extends_foldl (input.drop more) start
    rw [outcome, outcome, all]
    cases later : (input.drop more).foldl Decoder.take (.reading r) with
    | complete out n =>
      rw [later] at grown
      rcases grown with fault | grown
      · cases fault
      · exact congrArg Except.ok (chunk_append_drop grown s.given chunkSize).symm
    | faulty => rfl
    | reading r' =>
      have total : consumed + more + (input.drop more).length = consumed + input.length := by
        rw [List.length_drop]
        omega
      simp only [total]
      rfl

/-- With one call the decoder hands out the first part of what is left of the text. -/
theorem outcome_of_ok {turn : Turn Decoding} (called : s.call input = .ok turn) : s.outcome consumed input =
    Engine.after .truncated (turn.state.outcome (consumed + turn.taken) (input.drop turn.taken)) consumed turn := by
  obtain ⟨more, inside, fed, stopped⟩ := s.decoder.feed_spec (s.given + chunkSize) input 0
  have all := foldl_split s.decoder input more
  unfold call at called
  dsimp only at called
  rw [fed, Nat.zero_add] at called
  cases after : (input.take more).foldl Decoder.take s.decoder with
  | faulty =>
    rw [after] at called
    cases called
  | complete out n =>
    rw [after] at called all
    rw [Decoder.foldl_take_complete] at all
    cases called
    have ends : (out.size ≤ s.given + chunkSize) = ((out.toList.drop s.given).length ≤ chunkSize) := by
      rw [List.length_drop, Array.length_toList, Nat.sub_le_iff_le_add']
    simp only [outcome, Decoder.text, all, Decoder.foldl_take_complete, chunk_eq, ends, ← List.drop_drop,
      drop_length_take]
    exact after_chunk _ _ _ _ _
  | reading r =>
    rw [after] at called all
    cases called
    simp only [Decoder.text, chunk_eq]
    exact outcome_of_reading inside all (stopped r after)

end Decoding

theorem tells_outcome : decoder.Tells .truncated Decoding.outcome :=
  ⟨fun _ _ _ _ => Decoding.outcome_of_error, fun _ _ _ _ => Decoding.outcome_of_ok⟩

/-- Handing the text out in chunks gives what the decoder has made of the whole stream. -/
theorem decompress_eq (stream : Bytes) : decompress stream =
    match Decoder.run stream with
    | .complete out _ => .ok out.toList
    | .faulty => .error .invalid
    | .reading _ => .error (.truncated stream.length) := by
  refine (Engine.run_eq tells_outcome stream).trans ?_
  show Decoding.outcome ⟨.start, 0⟩ 0 stream = _
  unfold Decoding.outcome Decoder.run
  cases stream.foldl Decoder.take .start with
  | reading r => rw [Nat.zero_add]
  | complete out after => rfl
  | faulty => rfl

end ChainArchive.Codec
