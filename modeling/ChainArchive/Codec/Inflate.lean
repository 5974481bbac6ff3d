import ChainArchive.Codec.Adler
import ChainArchive.Codec.Symbols

/-!
# Reading a compressed stream

The decoder is a machine that takes one bit at a time. At every moment it is
collecting something: a number of a fixed width or a symbol of a prefix code.
When that is complete, it knows what to collect next, or it has found a fault,
or the stream is complete. A fault and a complete stream are final, so what the
machine says about a stream it also says about every longer one.
-/

namespace ChainArchive.Codec
set_option autoImplicit false

/-- The two codes of a block. -/
structure BlockCodes where
  symbols : PrefixCode
  distances : PrefixCode

/-- How many code lengths of each kind a block announces, and those read so far, the last one first. -/
structure LengthPlan where
  symbols : Nat
  distances : Nat
  read : List Nat := []

/-- What the machine is collecting. -/
inductive Goal
  /-- The two octets in front. -/
  | streamHeader
  | blockHeader
  /-- Unused bits up to the next octet, before a stored block. -/
  | storedPadding
  /-- The size of a stored block and its complement. -/
  | storedSize
  /-- One of that many octets of a stored block. -/
  | storedOctet (left : Nat)
  /-- How many code lengths follow. -/
  | planSizes
  /-- That many lengths of the length code are still to come; those read so far, the last one first. -/
  | planLength (plan : LengthPlan) (left : Nat) (read : List Nat)
  /-- A code length, or an order to repeat one. -/
  | length (plan : LengthPlan) (code : PrefixCode)
  /-- How often to repeat a code length, beyond a least count. -/
  | repeatCount (plan : LengthPlan) (code : PrefixCode) (value least : Nat)
  | symbol (codes : BlockCodes)
  /-- The extra bits of a copy length. -/
  | lengthExtra (codes : BlockCodes) (base : Nat)
  | distance (codes : BlockCodes) (length : Nat)
  /-- The extra bits of a distance. -/
  | distanceExtra (codes : BlockCodes) (length base : Nat)
  /-- Unused bits up to the next octet, before the checksum. -/
  | checksumPadding
  | checksum

/-- How far the collecting has come. -/
inductive Progress
  /-- That many bits of a number are still to come, the next one worth `place`. -/
  | number (left place value : Nat)
  /-- The rest of a code, and how many bits it may still take. -/
  | code (rest : PrefixCode) (left : Nat)

/-- A decoder inside a stream. -/
structure Reading where
  out : Array UInt8
  /-- The position of the next bit in its octet. -/
  offset : Nat
  /-- No block follows this one. -/
  isLast : Bool
  goal : Goal
  progress : Progress

/-- The decoder. -/
inductive Decoder
  | reading (state : Reading)
  /-- The stream is complete; that many octets followed it. -/
  | complete (out : Array UInt8) (after : Nat)
  | faulty

namespace Reading

/-- Goes on to a number of at least one bit. -/
def number (r : Reading) (goal : Goal) (width : Nat) : Decoder :=
  .reading { r with goal, progress := .number width 1 0 }

/-- Goes on to a symbol. -/
def code (r : Reading) (goal : Goal) (code : PrefixCode) : Decoder :=
  .reading { r with goal, progress := .code code maxCodeLength }

/-- A block has ended. -/
def nextBlock (r : Reading) : Decoder :=
  if !r.isLast then r.number .blockHeader 3
  else if r.offset = 0 then r.number .checksum 32
  else r.number .checksumPadding (8 - r.offset)

/-- The next octet of a stored block, if one is left. -/
def storedNext (r : Reading) (left : Nat) : Decoder :=
  if left = 0 then r.nextBlock else r.number (.storedOctet left) 8

/-- The codes of a block are known, if their lengths are usable. -/
def beginCodes (r : Reading) (symbols distances : List Nat) : Decoder :=
  if isUsable symbols && isUsable distances then
    let codes : BlockCodes := ⟨.ofLengths symbols, .ofLengths distances⟩
    r.code (.symbol codes) codes.symbols
  else .faulty

/-- The next code length of a plan, if one is left. Repetitions may not go beyond the plan. -/
def nextLength (r : Reading) (plan : LengthPlan) (code : PrefixCode) : Decoder :=
  let total := plan.symbols + plan.distances
  if plan.read.length < total then r.code (.length plan code) code
  else if plan.read.length = total then
    let lengths := plan.read.reverse
    r.beginCodes (lengths.take plan.symbols) (lengths.drop plan.symbols)
  else .faulty

/-- All lengths of the length code are known; those not written are zero. This code has to be complete. -/
def beginLengths (r : Reading) (plan : LengthPlan) (read : List Nat) : Decoder :=
  let written := lengthCodeOrder.zip read.reverse
  let lengths := (List.range 19).map fun symbol => (written.lookup symbol).getD 0
  if isComplete lengths then r.nextLength plan (.ofLengths lengths) else .faulty

/-- Copies octets from that far back; before the start of the output there are zeros. -/
def copyBack (distance : Nat) : Nat → Array UInt8 → Array UInt8
  | 0, out => out
  | length + 1, out =>
    let byte := if distance ≤ out.size then out.getD (out.size - distance) 0 else 0
    copyBack distance length (out.push byte)

/-- A copy is complete. -/
def copied (r : Reading) (codes : BlockCodes) (length distance : Nat) : Decoder :=
  { r with out := copyBack distance length r.out }.code (.symbol codes) codes.symbols

/-- A copy length is complete. -/
def lengthRead (r : Reading) (codes : BlockCodes) (length : Nat) : Decoder :=
  r.code (.distance codes length) codes.distances

/-- The two header octets are sound: method, window, check bits, no dictionary. -/
def isStreamHeader (value : Nat) : Bool :=
  let method := value % 256
  let flags := value / 256
  method % 16 == 8 && method / 16 ≤ 7 && (method * 256 + flags) % 31 == 0 && flags / 32 % 2 == 0

/-- What was collected is complete with this value. -/
def collected (r : Reading) (value : Nat) : Decoder :=
  match r.goal with
  | .streamHeader => if isStreamHeader value then r.number .blockHeader 3 else .faulty
  | .blockHeader =>
    let r := { r with isLast := value % 2 == 1 }
    match value / 2 with
    | 0 => if r.offset = 0 then r.number .storedSize 32 else r.number .storedPadding (8 - r.offset)
    | 1 => r.beginCodes fixedLengths fixedDistances
    | 2 => r.number .planSizes 14
    | _ => .faulty
  | .storedPadding => r.number .storedSize 32
  | .storedSize =>
    if value % 65536 + value / 65536 = 65535 then r.storedNext (value % 65536) else .faulty
  | .storedOctet left => { r with out := r.out.push (UInt8.ofNat value) }.storedNext (left - 1)
  | .planSizes =>
    let plan : LengthPlan := { symbols := value % 32 + 257, distances := value / 32 % 32 + 1 }
    if plan.symbols ≤ 286 && plan.distances ≤ 30 then r.number (.planLength plan (value / 1024 + 4) []) 3
    else .faulty
  | .planLength plan left read =>
    if left ≤ 1 then r.beginLengths plan (value :: read) else r.number (.planLength plan (left - 1) (value :: read)) 3
  | .length plan code =>
    match value with
    | 16 =>
      match plan.read with
      | [] => .faulty
      | last :: _ => r.number (.repeatCount plan code last 3) 2
    | 17 => r.number (.repeatCount plan code 0 3) 3
    | 18 => r.number (.repeatCount plan code 0 11) 7
    | value => r.nextLength { plan with read := value :: plan.read } code
  | .repeatCount plan code length least =>
    r.nextLength { plan with read := List.replicate (value + least) length ++ plan.read } code
  | .symbol codes =>
    if value < endOfBlock then { r with out := r.out.push (UInt8.ofNat value) }.code (.symbol codes) codes.symbols
    else if value = endOfBlock then r.nextBlock
    else
      match lengthTable[value - firstLengthSymbol]? with
      | none => .faulty
      | some (base, 0) => r.lengthRead codes base
      | some (base, extra) => r.number (.lengthExtra codes base) extra
  | .lengthExtra codes base => r.lengthRead codes (base + value)
  | .distance codes length =>
    match distanceTable[value]? with
    | none => .faulty
    | some (base, 0) => r.copied codes length base
    | some (base, extra) => r.number (.distanceExtra codes length base) extra
  | .distanceExtra codes length base => r.copied codes length (base + value)
  | .checksumPadding => r.number .checksum 32
  | .checksum =>
    let expected := Bytes.toNat ((Bytes.ofNat 4 value).reverse)
    if expected = Codec.checksum r.out.toList then .complete r.out 0 else .faulty

/-- Takes in one bit. A code may be as long as the longest one before it is found to have no symbol. -/
def step (r : Reading) (bit : Bool) : Decoder :=
  let progress := r.progress
  let r := { r with offset := (r.offset + 1) % 8 }
  match progress with
  | .number left place value =>
    let value := if bit then value + place else value
    if left ≤ 1 then r.collected value else .reading { r with progress := .number (left - 1) (place * 2) value }
  | .code rest left =>
    match rest.follow bit with
    | .symbol value => r.collected value
    | rest => if left ≤ 1 then .faulty else .reading { r with progress := .code rest (left - 1) }

end Reading

namespace Decoder

/-- The decoder in front of a stream. -/
def start : Decoder :=
  .reading { out := #[], offset := 0, isLast := false, goal := .streamHeader, progress := .number 16 1 0 }

/-- Takes in one bit. -/
def step (d : Decoder) (bit : Bool) : Decoder :=
  match d with
  | .reading r => r.step bit
  | d => d

/-- Takes in one octet. -/
def take (d : Decoder) (byte : UInt8) : Decoder :=
  match d with
  | .reading r => (octetBits byte).foldl step (.reading r)
  | .complete out after => .complete out (after + 1)
  | .faulty => .faulty

/-- The decoder after a byte string. -/
def run (stream : Bytes) : Decoder := stream.foldl take start

theorem run_append (stream rest : Bytes) : run (stream ++ rest) = rest.foldl take (run stream) := by
  simp [run, List.foldl_append]

theorem foldl_take_faulty (rest : Bytes) : rest.foldl take .faulty = .faulty := by
  induction rest with
  | nil => rfl
  | cons byte rest ih => simpa [take] using ih

theorem foldl_take_complete (rest : Bytes) (out : Array UInt8) (after : Nat) :
    rest.foldl take (.complete out after) = .complete out (after + rest.length) := by
  induction rest generalizing after with
  | nil => rfl
  | cons byte rest ih => simp [take, ih, Nat.add_comm, Nat.add_left_comm]

end Decoder
end ChainArchive.Codec
