import ChainArchive.Codec.PrefixCode

/-!
# The symbols of a compressed block

Symbols below 256 are octets, 256 ends the block, and those above are copy
lengths. A copy length or a distance is a base value, given by its symbol, plus
a number of extra bits.
-/

namespace ChainArchive.Codec
set_option autoImplicit false

/-- Base value and number of extra bits of each copy length, from symbol 257 on. -/
def lengthTable : Array (Nat × Nat) :=
  #[(3, 0), (4, 0), (5, 0), (6, 0), (7, 0), (8, 0), (9, 0), (10, 0), (11, 1), (13, 1), (15, 1), (17, 1), (19, 2),
    (23, 2), (27, 2), (31, 2), (35, 3), (43, 3), (51, 3), (59, 3), (67, 4), (83, 4), (99, 4), (115, 4), (131, 5),
    (163, 5), (195, 5), (227, 5), (258, 0)]

/-- Base value and number of extra bits of each distance. -/
def distanceTable : Array (Nat × Nat) :=
  #[(1, 0), (2, 0), (3, 0), (4, 0), (5, 1), (7, 1), (9, 2), (13, 2), (17, 3), (25, 3), (33, 4), (49, 4), (65, 5),
    (97, 5), (129, 6), (193, 6), (257, 7), (385, 7), (513, 8), (769, 8), (1025, 9), (1537, 9), (2049, 10),
    (3073, 10), (4097, 11), (6145, 11), (8193, 12), (12289, 12), (16385, 13), (24577, 13)]

/-- The symbol that ends a block. -/
def endOfBlock : Nat := 256

/-- The symbol of the first copy length. -/
def firstLengthSymbol : Nat := 257

/-- The order in which the lengths of the length code are written. -/
def lengthCodeOrder : List Nat := [16, 17, 18, 0, 8, 7, 9, 6, 10, 5, 11, 4, 12, 3, 13, 2, 14, 1, 15]

/-- The lengths of the fixed code for octets, end and copy lengths. -/
def fixedLengths : List Nat :=
  List.replicate 144 8 ++ List.replicate 112 9 ++ List.replicate 24 7 ++ List.replicate 8 8

/-- The lengths of the fixed code for distances. -/
def fixedDistances : List Nat := List.replicate 32 5

/-- The last entry of a table whose base is at most the value: symbol offset, extra bits and their value. -/
def encodeValue (table : Array (Nat × Nat)) (value : Nat) : Nat × Nat × Nat :=
  let entries := table.toList.zipIdx.takeWhile fun ((base, _), _) => base ≤ value
  match entries.getLast? with
  | some ((base, extra), offset) => (offset, extra, value - base)
  | none => (0, 0, 0)

/-- The lowest `width` bits of a number, the least significant first. -/
def fieldBits : Nat → Nat → List Bool
  | 0, _ => []
  | width + 1, n => (n % 2 == 1) :: fieldBits width (n / 2)

/-- The bits of an octet in the order of the stream. -/
def octetBits (byte : UInt8) : List Bool := fieldBits 8 byte.toNat

end ChainArchive.Codec
