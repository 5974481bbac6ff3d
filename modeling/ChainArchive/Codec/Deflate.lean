import ChainArchive.Codec.CodeLengths
import ChainArchive.Codec.Match
import ChainArchive.Codec.Symbols

/-!
# Writing a compressed stream

The pieces of a text are written in blocks. A short block uses the fixed codes,
a longer one codes of its own; a block that would not become smaller is stored.
-/

namespace ChainArchive.Codec
set_option autoImplicit false

/-! ## Bits -/

/-- Written octets and the bits of the octet that is not yet full. -/
structure BitSink where
  octets : Array UInt8 := #[]
  pending : Nat := 0
  count : Nat := 0

namespace BitSink

/-- Writes one bit. -/
def bit (sink : BitSink) (b : Bool) : BitSink :=
  let pending := if b then sink.pending + Nat.pow 2 sink.count else sink.pending
  if sink.count = 7 then ⟨sink.octets.push (UInt8.ofNat pending), 0, 0⟩
  else { sink with pending, count := sink.count + 1 }

/-- Writes bits in order. -/
def bits (sink : BitSink) (bs : List Bool) : BitSink := bs.foldl bit sink

/-- Writes a number of that many bits. -/
def field (sink : BitSink) (width value : Nat) : BitSink := sink.bits (fieldBits width value)

/-- Fills the last octet up. -/
def align (sink : BitSink) : BitSink :=
  if sink.count = 0 then sink else sink.field (8 - sink.count) 0

end BitSink

/-! ## Pieces -/

/-- Writable codes: the bits of every symbol. -/
abbrev CodeTable := Array (List Bool)

/-- The bits of every symbol of a code with these lengths. -/
def codeTable (lengths : List Nat) : CodeTable :=
  (assignCodes lengths).foldl (fun table (value, path) => table.set! value path) (Array.replicate lengths.length [])

/-- The symbols a piece is written with: its own, and the distance symbol of a copy. -/
def Token.symbols : Token → Nat × Option Nat
  | .literal byte => (byte.toNat, none)
  | .copy length distance =>
    (firstLengthSymbol + (encodeValue lengthTable length).1, some (encodeValue distanceTable distance).1)

/-- Writes one piece. -/
def writeToken (symbols distances : CodeTable) (sink : BitSink) : Token → BitSink
  | .literal byte => sink.bits (symbols.getD byte.toNat [])
  | .copy length distance =>
    let (lengthSymbol, lengthWidth, lengthRest) := encodeValue lengthTable length
    let (distanceSymbol, distanceWidth, distanceRest) := encodeValue distanceTable distance
    let sink := (sink.bits (symbols.getD (firstLengthSymbol + lengthSymbol) [])).field lengthWidth lengthRest
    (sink.bits (distances.getD distanceSymbol [])).field distanceWidth distanceRest

/-- Writes the pieces of a block and its end. -/
def writeTokens (symbols distances : CodeTable) (tokens : Array Token) (sink : BitSink) : BitSink :=
  (tokens.foldl (writeToken symbols distances) sink).bits (symbols.getD endOfBlock [])

/-! ## Codes of a block's own -/

/-- How often each symbol and each distance symbol occurs in a block. -/
def countSymbols (tokens : Array Token) : Array Nat × Array Nat :=
  let count (state : Array Nat × Array Nat) (token : Token) : Array Nat × Array Nat :=
    let (symbols, distances) := state
    let (symbol, distance) := token.symbols
    (symbols.modify symbol (· + 1), match distance with
      | some d => distances.modify d (· + 1)
      | none => distances)
  tokens.foldl count ((Array.replicate 288 0).set! endOfBlock 1, Array.replicate 32 0)

/-- An order of the length code: a symbol with a number of extra bits and their value. -/
structure LengthOrder where
  symbol : Nat
  width : Nat := 0
  rest : Nat := 0

/-- The orders for a run of equal code lengths. -/
def packRun (length count : Nat) : List LengthOrder :=
  if length = 0 then
    let left := count % 138
    List.replicate (count / 138) ⟨18, 7, 127⟩ ++
      (if left < 3 then List.replicate left ⟨0, 0, 0⟩
       else if left ≤ 10 then [⟨17, 3, left - 3⟩]
       else [⟨18, 7, left - 11⟩])
  else
    let left := (count - 1) % 6
    ⟨length, 0, 0⟩ :: (List.replicate ((count - 1) / 6) ⟨16, 2, 3⟩ ++
      (if left < 3 then List.replicate left ⟨length, 0, 0⟩ else [⟨16, 2, left - 3⟩]))

/-- The runs of equal members: each with its count. -/
def runs (xs : List Nat) : List (Nat × Nat) :=
  (xs.foldl (fun acc x =>
    match acc with
    | (y, n) :: rest => if x = y then (y, n + 1) :: rest else (x, 1) :: acc
    | [] => [(x, 1)]) []).reverse

/-- Leaves zeros at the end out, but keeps that many members. -/
def trimZeros (least : Nat) (xs : List Nat) : List Nat :=
  let used := xs.length - (xs.reverse.takeWhile (· == 0)).length
  xs.take (max least used)

/-- Writes one order of the length code. -/
def writeOrder (table : CodeTable) (sink : BitSink) (order : LengthOrder) : BitSink :=
  (sink.bits (table.getD order.symbol [])).field order.width order.rest

/-- The orders for a list of code lengths. -/
def packLengths (lengths : List Nat) : List LengthOrder :=
  (runs lengths).flatMap fun (length, count) => packRun length count

/-- The lengths of the length code, the code of the orders. -/
def orderLengths (orders : List LengthOrder) : List Nat :=
  chooseLengths 7 (orders.foldl (fun counts order => counts.modify order.symbol (· + 1)) (Array.replicate 19 0))

/-- The lengths of the length code in the order in which they are written. -/
def plannedLengths (lengths : List Nat) : List Nat :=
  trimZeros 4 (lengthCodeOrder.map fun symbol => lengths.getD symbol 0)

/-- Writes the code lengths of both codes, as orders in a code whose lengths go in front. -/
def writeLengths (symbols distances : List Nat) (sink : BitSink) : BitSink :=
  let orders := packLengths (symbols ++ distances)
  let planned := plannedLengths (orderLengths orders)
  let sink := ((sink.field 5 (symbols.length - 257)).field 5 (distances.length - 1)).field 4 (planned.length - 4)
  let sink := planned.foldl (fun sink length => sink.field 3 length) sink
  orders.foldl (writeOrder (codeTable (orderLengths orders))) sink

/-- Writes a block's codes and gives them as tables. -/
def writeCodes (tokens : Array Token) (sink : BitSink) : BitSink × CodeTable × CodeTable :=
  let (symbolCounts, distanceCounts) := countSymbols tokens
  let symbolLengths := chooseLengths maxCodeLength symbolCounts
  let distanceLengths := chooseLengths maxCodeLength distanceCounts
  let symbols := trimZeros 257 (symbolLengths.take 286)
  let distances := trimZeros 1 (distanceLengths.take 30)
  (writeLengths symbols distances sink, codeTable symbolLengths, codeTable distanceLengths)

/-! ## Blocks -/

/-- The pieces of one block and the octets that they stand for. -/
structure Block where
  tokens : Array Token := #[]
  octets : Bytes := []

/-- A block of fewer octets uses the fixed codes. -/
def ownCodesFrom : Nat := 48

/-- Writes the body of a block that is not stored. -/
def writeBody (block : Block) (size : Nat) (sink : BitSink) : BitSink :=
  if size < ownCodesFrom then
    writeTokens (codeTable fixedLengths) (codeTable fixedDistances) block.tokens (sink.field 2 1)
  else
    let (sink, symbols, distances) := writeCodes block.tokens (sink.field 2 2)
    writeTokens symbols distances block.tokens sink

/-- Writes the body of a stored block. -/
def writeStored (octets : Bytes) (size : Nat) (sink : BitSink) : BitSink :=
  let sink := (((sink.field 2 0).align).field 16 size).field 16 (65535 - size)
  octets.foldl (fun sink byte => sink.field 8 byte.toNat) sink

/-- Writes a block; one that would not become smaller is stored, if the window still holds it. -/
def writeBlock (isLast : Bool) (sink : BitSink) (block : Block) : BitSink :=
  let size := block.octets.length
  let begun := sink.bit isLast
  let written := writeBody block size begun
  if 32 < size ∧ size ≤ windowSize ∧ size ≤ written.octets.size - begun.octets.size + 1 then
    writeStored block.octets size begun
  else written

/-- How much room a block's pieces take before they are written. -/
def roughSize (count copies : Nat) : Nat := 1 + count + 2 * copies + count / 8

/-- A block is full when its pieces take much room, or when it is long and they save hardly any. -/
def isFull (count copies size : Nat) : Bool :=
  let rough := roughSize count copies
  65528 < rough || (31 * 1024 < size && size ≤ rough * 115 / 128)

/-- The state of cutting pieces into blocks. -/
structure Splitting where
  blocks : Array Block := #[]
  tokens : Array Token := #[]
  copies : Nat := 0
  size : Nat := 0
  rest : Bytes

namespace Splitting

/-- Ends the current block. -/
def close (s : Splitting) : Splitting :=
  { blocks := s.blocks.push ⟨s.tokens, s.rest.take s.size⟩, rest := s.rest.drop s.size }

/-- Takes in one piece. -/
def add (s : Splitting) (token : Token) : Splitting :=
  let copies := match token with
    | .literal _ => s.copies
    | .copy .. => s.copies + 1
  let s := { s with tokens := s.tokens.push token, copies, size := s.size + token.span }
  if isFull s.tokens.size s.copies s.size then s.close else s

end Splitting

/-- The blocks of a text; the last one may be empty. -/
def blocksOf (text : Bytes) : Array Block :=
  ((cut text.toArray).foldl Splitting.add { rest := text }).close.blocks

/-- The compressed form of a text, without header and checksum. -/
def deflate (text : Bytes) : Bytes :=
  let blocks := blocksOf text
  let sink := (blocks.foldl (fun (sink, i) block => (writeBlock (i + 1 == blocks.size) sink block, i + 1))
    (({} : BitSink), 0)).1
  sink.align.octets.toList

end ChainArchive.Codec
