import ChainArchive.Bytes

/-!
# The checksum of a stream

Two sums modulo the greatest prime below `2 ^ 16`: one of the octets, one of
the first sum after each octet.
-/

namespace ChainArchive.Codec
set_option autoImplicit false

/-- The two running sums. -/
structure Adler where
  low : Nat := 1
  high : Nat := 0
deriving Repr, DecidableEq

namespace Adler

/-- The greatest prime below `2 ^ 16`. -/
def modulus : Nat := 65521

/-- Takes in one octet. -/
def add (sum : Adler) (byte : UInt8) : Adler :=
  let low := (sum.low + byte.toNat) % modulus
  ⟨low, (sum.high + low) % modulus⟩

/-- The checksum as one number of 32 bits. -/
def value (sum : Adler) : Nat := sum.high * 65536 + sum.low

end Adler

/-- The checksum of a byte string. -/
def checksum (data : Bytes) : Nat := (data.foldl Adler.add {}).value

/-- The checksum as it ends a stream: four octets, the most significant first. -/
def trailer (data : Bytes) : Bytes := Bytes.ofNat 4 (checksum data)

end ChainArchive.Codec
