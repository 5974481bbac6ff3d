import ChainArchive.Bytes

/-!
# DER

Elements are a tag octet, a length and that many octets of content. Only the
one distinguished form is accepted: definite lengths in as few octets as
possible, integers without idle leading octets, no octets left over.
-/

namespace ChainArchive.Der
set_option autoImplicit false

/-- A reader takes what it understands off the front and leaves the rest. -/
abbrev Reader (α : Type) := Bytes → Option (α × Bytes)

/-- An element: its tag octet and its content. -/
structure Element where
  tag : UInt8
  content : Bytes
deriving Repr, DecidableEq

/-! ## Tags -/

namespace Tag

def integer : UInt8 := 0x02
def bitString : UInt8 := 0x03
def octetString : UInt8 := 0x04
def sequence : UInt8 := 0x30

/-- The tags of the universal class that are known. -/
def universal : List UInt8 :=
  [0x01, 0x02, 0x03, 0x04, 0x05, 0x06, 0x09, 0x0a, 0x0c, 0x12, 0x13, 0x14, 0x15, 0x16, 0x17, 0x18, 0x1e, 0x30, 0x31]

/-- The number of a tag outside the universal class. -/
def number (tag : UInt8) : Nat := tag.toNat % 32

/-- The tag belongs to the class that depends on context. -/
def isContextSpecific (tag : UInt8) : Bool := tag.toNat / 64 == 2

/-- The element is made of elements. -/
def isConstructed (tag : UInt8) : Bool := tag.toNat / 32 % 2 == 1

/-- The tag is one of the known ones. Outside the universal class the number is below 31. -/
def isKnown (tag : UInt8) : Bool := universal.contains tag || (64 ≤ tag.toNat && number tag < 31)

end Tag

/-! ## Elements -/

/-- The greatest length that is accepted. -/
def lengthLimit : Nat := Nat.pow 2 28

/-- A length: itself if below 128, else the count of its octets and the octets. -/
def length : Reader Nat
  | [] => none
  | first :: rest =>
    if first.toNat < 128 then some (first.toNat, rest)
    else
      let count := first.toNat - 128
      let octets := rest.take count
      let n := Bytes.toNat octets
      if count = 0 ∨ 4 < count ∨ octets.length < count then none
      else if 128 ≤ n ∧ Bytes.width n = count ∧ n < lengthLimit then some (n, rest.drop count)
      else none

/-- One element of any known tag. -/
def element : Reader Element
  | [] => none
  | tag :: rest => do
    if !Tag.isKnown tag then none
    else
      let (n, rest) ← length rest
      if rest.length < n then none else some (⟨tag, rest.take n⟩, rest.drop n)

/-- The content of an element with the given tag. -/
def tagged (tag : UInt8) : Reader Bytes := fun input => do
  let (e, rest) ← element input
  if e.tag = tag then some (e.content, rest) else none

/-- What a reader makes of an input, if it leaves nothing over. -/
def whole {α : Type} (reader : Reader α) (input : Bytes) : Option α :=
  match reader input with
  | some (a, []) => some a
  | _ => none

/-- A sequence whose whole content the reader understands. -/
def sequenceOf {α : Type} (reader : Reader α) : Reader α := fun input => do
  let (content, rest) ← tagged Tag.sequence input
  return (← whole reader content, rest)

/-- The natural number that the content of an integer denotes. -/
def natural? : Bytes → Option Nat
  | [] => none
  | [octet] => if octet.toNat < 128 then some octet.toNat else none
  | first :: second :: rest =>
    if first.toNat = 0 then if second.toNat < 128 then none else some (Bytes.toNat (second :: rest))
    else if first.toNat < 128 then some (Bytes.toNat (first :: second :: rest))
    else none

/-- An integer that is not negative. -/
def natural : Reader Nat := fun input => do
  let (content, rest) ← tagged Tag.integer input
  return (← natural? content, rest)

/-- The content of a bit string without unused bits. -/
def octetsOfBits? : Bytes → Option Bytes
  | 0 :: octets => some octets
  | _ => none

/-- A bit string that is a whole number of octets. -/
def bitOctets : Reader Bytes := fun input => do
  let (content, rest) ← tagged Tag.bitString input
  return (← octetsOfBits? content, rest)

end ChainArchive.Der
