import ChainArchive.Proofs.Codec.Assigned
import ChainArchive.Proofs.Codec.Pieces
import ChainArchive.Proofs.Codec.Symbols

/-!
# What is written is read

Between two states of a writer lie the bits that it has written, and these lead a
decoder from one state to another. The decoder's position in its octet is that of
the writer all the time. A piece that is written behind others is written out by
the decoder behind what it has.
-/

namespace ChainArchive.Codec
set_option autoImplicit false

/-- What a writer writes on leads a decoder on. -/
structure Leads (sink sink' : BitSink) (d d' : Decoder) : Prop where
  sound : sink'.Sound
  read : ∃ bits, sink'.stream = sink.stream ++ bits ∧ d.read bits = d'

namespace Leads

variable {sink sink' sink'' : BitSink} {d d' d'' : Decoder}

theorem refl (sound : sink.Sound) (d : Decoder) : Leads sink sink d d := ⟨sound, [], by simp, rfl⟩

theorem trans (h : Leads sink sink' d d') (h' : Leads sink' sink'' d' d'') : Leads sink sink'' d d'' := by
  obtain ⟨-, bits, written, read⟩ := h
  obtain ⟨sound, bits', written', read'⟩ := h'
  refine ⟨sound, bits ++ bits', ?_, ?_⟩
  · rw [written', written, List.append_assoc]
  · rw [Decoder.read_append, read, read']

/-- A field is collected as its number. -/
theorem field (sound : sink.Sound) {r : Reading} (here : r.offset = sink.count) (goal : Goal) {width value : Nat}
    (some : 0 < width) (fits : value < 2 ^ width) : Leads sink (sink.field width value) (r.number goal width)
      (({ r with goal, offset := (sink.field width value).count } : Reading).collected value) := by
  obtain ⟨sound', written⟩ := sound.field width value
  refine ⟨sound', _, written, ?_⟩
  have offset : (sink.field width value).count = (r.offset + width) % 8 := by
    rw [sound'.count_eq, written, List.length_append, length_fieldBits, here, sound.count_eq]
    omega
  rw [offset]
  exact Reading.read_number r goal some fits

/-- A symbol's path is collected as the symbol. -/
theorem symbol (sound : sink.Sound) {r : Reading} (here : r.offset = sink.count) (goal : Goal) {table : CodeTable}
    {code : PrefixCode} {symbol : Nat} (spells : Spells table code symbol) :
    Leads sink (sink.bits (table.getD symbol [])) (r.code goal code)
      (({ r with goal, offset := (sink.bits (table.getD symbol [])).count } : Reading).collected symbol) := by
  obtain ⟨sound', written⟩ := sound.bits (table.getD symbol [])
  refine ⟨sound', _, written, ?_⟩
  have offset : (sink.bits (table.getD symbol [])).count = (r.offset + (table.getD symbol []).length) % 8 := by
    rw [sound'.count_eq, written, List.length_append, here, sound.count_eq]
    omega
  rw [offset]
  exact Reading.read_code r goal spells.some spells.short spells.found

end Leads

/-! ## Pieces -/

/-- The decoder in front of a piece, with the text so far. -/
def Decoder.atPiece (out : Array UInt8) (offset : Nat) (isLast : Bool) (codes : BlockCodes) : Decoder :=
  .reading { out, offset, isLast, goal := .symbol codes, progress := .code codes.symbols maxCodeLength }

/-- A decoder inside a block, with the text so far, at no particular goal. -/
def Reading.inBlock (out : Array UInt8) (isLast : Bool) (offset : Nat) : Reading :=
  { out, offset, isLast, goal := .blockHeader, progress := .number 3 1 0 }

/-- The decoder behind a block, with the text so far. -/
def Decoder.behindBlock (out : Array UInt8) (offset : Nat) (isLast : Bool) : Decoder :=
  (Reading.inBlock out isLast offset).nextBlock

/-- The piece is one that the format has symbols for. -/
def Token.InRange : Token → Prop
  | .literal _ => True
  | .copy length distance => (minCopy ≤ length ∧ length ≤ maxCopy) ∧ 0 < distance ∧ distance ≤ windowSize

theorem Retells.inRange {text : Array UInt8} {i j : Nat} {pieces : List Token} (h : Retells text i pieces j) :
    ∀ piece ∈ pieces, piece.InRange := by
  induction h with
  | nil => simp
  | literal _ _ ih => exact List.forall_mem_cons.2 ⟨trivial, ih⟩
  | copy repeats _ ih =>
    exact List.forall_mem_cons.2 ⟨⟨⟨repeats.least, repeats.most⟩, repeats.near, repeats.far⟩, ih⟩

/-- The tables have paths for the symbols of a piece. -/
structure Token.Spelt (symbols distances : CodeTable) (codes : BlockCodes) (piece : Token) : Prop where
  symbol : Spells symbols codes.symbols piece.symbols.1
  distance : ∀ d, piece.symbols.2 = some d → Spells distances codes.distances d

variable {sink : BitSink} {symbols distances : CodeTable} {codes : BlockCodes} (out : Array UInt8) (isLast : Bool)

theorem leads_literal (sound : sink.Sound) {byte : UInt8} (spells : Spells symbols codes.symbols byte.toNat) :
    Leads sink (writeToken symbols distances sink (.literal byte)) (.atPiece out sink.count isLast codes)
      (.atPiece (out.push byte) (writeToken symbols distances sink (.literal byte)).count isLast codes) := by
  let r : Reading := ⟨out, sink.count, isLast, .symbol codes, .code codes.symbols maxCodeLength⟩
  have small : byte.toNat < endOfBlock := byte.toNat_lt
  have leads := Leads.symbol (r := r) sound rfl (.symbol codes) spells
  simp only [Reading.collected, small, if_true, UInt8.ofNat_toNat] at leads
  exact leads

/-- The extra bits of a copy length lead to its distance. -/
theorem leads_length (sound : sink.Sound) {length symbol width rest : Nat}
    (encodes : Encodes lengthTable length symbol width rest)
    (spells : Spells symbols codes.symbols (firstLengthSymbol + symbol)) :
    Leads sink ((sink.bits (symbols.getD (firstLengthSymbol + symbol) [])).field width rest)
      (.atPiece out sink.count isLast codes)
      (.reading ⟨out, ((sink.bits (symbols.getD (firstLengthSymbol + symbol) [])).field width rest).count, isLast,
        .distance codes length, .code codes.distances maxCodeLength⟩) := by
  let r : Reading := ⟨out, sink.count, isLast, .symbol codes, .code codes.symbols maxCodeLength⟩
  have leads := Leads.symbol (r := r) sound rfl (.symbol codes) spells
  have large : ¬ firstLengthSymbol + symbol < endOfBlock := by simp only [firstLengthSymbol, endOfBlock]; omega
  have other : ¬ firstLengthSymbol + symbol = endOfBlock := by simp only [firstLengthSymbol, endOfBlock]; omega
  have fits := encodes.fits
  have least := encodes.rest_le
  simp only [Reading.collected, large, other, if_false, Nat.add_sub_cancel_left, encodes.entry] at leads
  cases width with
  | zero =>
    obtain rfl : rest = 0 := by omega
    exact leads
  | succ width =>
    have extra := Leads.field leads.sound (r := { r with offset := _ }) rfl (.lengthExtra codes (length - rest))
      (Nat.succ_pos width) fits
    simp only [Reading.collected, Nat.sub_add_cancel least] at extra
    exact leads.trans extra

/-- A distance and its extra bits complete the copy. -/
theorem leads_distance (sound : sink.Sound) {length distance symbol width rest : Nat}
    (encodes : Encodes distanceTable distance symbol width rest) (spells : Spells distances codes.distances symbol) :
    Leads sink ((sink.bits (distances.getD symbol [])).field width rest)
      (.reading ⟨out, sink.count, isLast, .distance codes length, .code codes.distances maxCodeLength⟩)
      (.atPiece (Reading.copyBack distance length out)
        ((sink.bits (distances.getD symbol [])).field width rest).count isLast codes) := by
  let r : Reading := ⟨out, sink.count, isLast, .distance codes length, .code codes.distances maxCodeLength⟩
  have leads := Leads.symbol (r := r) sound rfl (.distance codes length) spells
  have fits := encodes.fits
  have least := encodes.rest_le
  simp only [Reading.collected, encodes.entry] at leads
  cases width with
  | zero =>
    obtain rfl : rest = 0 := by omega
    exact leads
  | succ width =>
    have extra := Leads.field leads.sound (r := { r with offset := _ }) rfl
      (.distanceExtra codes length (distance - rest)) (Nat.succ_pos width) fits
    simp only [Reading.collected, Nat.sub_add_cancel least] at extra
    exact leads.trans extra

/-- A piece that is written is written out by the decoder. -/
theorem leads_writeToken (sound : sink.Sound) {piece : Token} (inRange : piece.InRange)
    (spelt : piece.Spelt symbols distances codes) :
    Leads sink (writeToken symbols distances sink piece) (.atPiece out sink.count isLast codes)
      (.atPiece (piece.write out) (writeToken symbols distances sink piece).count isLast codes) := by
  cases piece with
  | literal byte => exact leads_literal out isLast sound spelt.symbol
  | copy length distance =>
    obtain ⟨⟨least, most⟩, near, far⟩ := inRange
    have encodes := encodes_length least most
    have encodes' := encodes_distance near far
    have spells := spelt.symbol
    have spells' := spelt.distance _ rfl
    simp only [Token.symbols] at spells spells'
    have leads := leads_length out isLast sound encodes spells
    exact leads.trans (leads_distance out isLast leads.sound encodes' spells')

/-- The pieces of a block and its end are written out. -/
theorem leads_writeTokens (sound : sink.Sound) {pieces : Array Token} (inRange : ∀ piece ∈ pieces, piece.InRange)
    (spelt : ∀ piece ∈ pieces, piece.Spelt symbols distances codes) (end_ : Spells symbols codes.symbols endOfBlock) :
    Leads sink (writeTokens symbols distances pieces sink) (.atPiece out sink.count isLast codes)
      (.behindBlock (pieces.foldl Token.write out) (writeTokens symbols distances pieces sink).count isLast) := by
  obtain ⟨pieces⟩ := pieces
  simp only [List.mem_toArray] at inRange spelt
  simp only [writeTokens, List.foldl_toArray]
  induction pieces generalizing sink out with
  | nil =>
    let r : Reading := ⟨out, sink.count, isLast, .symbol codes, .code codes.symbols maxCodeLength⟩
    have leads := Leads.symbol (r := r) sound rfl (.symbol codes) end_
    simp only [Reading.collected, Nat.lt_irrefl, if_true, if_false] at leads
    exact leads
  | cons piece pieces ih =>
    obtain ⟨first, inRange⟩ := List.forall_mem_cons.1 inRange
    obtain ⟨spells, spelt⟩ := List.forall_mem_cons.1 spelt
    have leads := leads_writeToken out isLast sound first spells
    exact leads.trans (ih _ leads.sound inRange spelt)

end ChainArchive.Codec
