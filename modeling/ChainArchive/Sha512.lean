import ChainArchive.Bytes

/-!
# SHA-512

A message is padded to blocks of sixteen words of 64 bits. Each block goes
through eighty rounds over eight working words, and the result is added to the
chaining words. The constants are the leading fractional bits of square and
cube roots of the first primes, so they are computed and not listed.
-/

namespace ChainArchive.Sha512
set_option autoImplicit false

/-! ## Constants -/

/-- The greatest number below `start + 2 ^ bits`, from `start` on, whose `k`-th power is at most `n`. -/
def rootFrom (k n : Nat) : Nat → Nat → Nat
  | 0, start => start
  | bits + 1, start =>
    let middle := start + Nat.pow 2 bits
    rootFrom k n bits (if Nat.pow middle k ≤ n then middle else start)

/-- The first 64 fractional bits of the `k`-th root of a number below `256`. -/
def rootFraction (k p : Nat) : UInt64 := UInt64.ofNat (rootFrom k (p * Nat.pow 2 (64 * k)) 68 0)

/-- The number has no divisor but one and itself. -/
def isPrime (n : Nat) : Bool := 2 ≤ n && (List.range n).all fun d => d < 2 || n % d != 0

/-- The first eighty primes. -/
def primes : List Nat := (List.range 410).filter isPrime

/-- The word that each round adds. -/
def roundConstants : List UInt64 := primes.map (rootFraction 3)

/-- The eight words of a hash, also used as the working words of the rounds. -/
structure State where
  a : UInt64
  b : UInt64
  c : UInt64
  d : UInt64
  e : UInt64
  f : UInt64
  g : UInt64
  h : UInt64

namespace State

/-- The words before the first block. -/
def initial : State :=
  ⟨rootFraction 2 2, rootFraction 2 3, rootFraction 2 5, rootFraction 2 7, rootFraction 2 11, rootFraction 2 13,
    rootFraction 2 17, rootFraction 2 19⟩

/-- The sum word by word. -/
def add (s t : State) : State :=
  ⟨s.a + t.a, s.b + t.b, s.c + t.c, s.d + t.d, s.e + t.e, s.f + t.f, s.g + t.g, s.h + t.h⟩

/-- The words in order. -/
def words (s : State) : List UInt64 := [s.a, s.b, s.c, s.d, s.e, s.f, s.g, s.h]

end State

/-! ## Rounds -/

/-- Rotation to the right. -/
def rotate (x : UInt64) (by_ : UInt64) : UInt64 := (x >>> by_) ||| (x <<< (64 - by_))

/-- One round with a schedule word and a constant. -/
def round (s : State) (word constant : UInt64) : State :=
  let upper := rotate s.e 14 ^^^ rotate s.e 18 ^^^ rotate s.e 41
  let choice := (s.e &&& s.f) ^^^ (~~~s.e &&& s.g)
  let first := s.h + upper + choice + constant + word
  let lower := rotate s.a 28 ^^^ rotate s.a 34 ^^^ rotate s.a 39
  let majority := (s.a &&& s.b) ^^^ (s.a &&& s.c) ^^^ (s.b &&& s.c)
  ⟨first + lower + majority, s.a, s.b, s.c, s.d + first, s.e, s.f, s.g⟩

/-- The word that follows sixteen words of the schedule. -/
def nextWord (window : List UInt64) : UInt64 :=
  let word (i : Nat) : UInt64 := window.getD i 0
  let early := rotate (word 1) 1 ^^^ rotate (word 1) 8 ^^^ (word 1 >>> 7)
  let late := rotate (word 14) 19 ^^^ rotate (word 14) 61 ^^^ (word 14 >>> 6)
  word 0 + early + word 9 + late

/-- The rounds with the given constants, over a window of sixteen schedule words. -/
def rounds : List UInt64 → List UInt64 → State → State
  | [], _, s => s
  | constant :: constants, window, s =>
    rounds constants (window.tail ++ [nextWord window]) (round s (window.headD 0) constant)

/-- The hash after one block of sixteen words. -/
def absorb (s : State) (block : List UInt64) : State := s.add (rounds roundConstants block s)

/-! ## Messages -/

/-- How many octets a block has. -/
def blockSize : Nat := 128

/-- A message, a one bit, zeros and the message's length in bits, in whole blocks. -/
def pad (message : Bytes) : Bytes :=
  let zeros := (blockSize - (message.length + 17) % blockSize) % blockSize
  message ++ 0x80 :: (List.replicate zeros 0 ++ Bytes.ofNat 16 (8 * message.length))

/-- Big-endian words of eight octets. -/
def toWords : Bytes → List UInt64
  | a :: b :: c :: d :: e :: f :: g :: h :: rest =>
    [b, c, d, e, f, g, h].foldl (fun word octet => word <<< 8 ||| octet.toUInt64) a.toUInt64 :: toWords rest
  | _ => []

/-- The hash after all whole blocks of a sequence of words. -/
def absorbAll (s : State) (words : List UInt64) : State :=
  if words.length < 16 then s else absorbAll (absorb s (words.take 16)) (words.drop 16)
termination_by words.length
decreasing_by simp; omega

/-- The octets of a word, the most significant first. -/
def wordBytes (word : UInt64) : Bytes := Bytes.ofNat 8 word.toNat

/-- The digest of a message: 64 octets. -/
def digest (message : Bytes) : Bytes := (absorbAll .initial (toWords (pad message))).words.flatMap wordBytes

@[simp] theorem length_digest (message : Bytes) : (digest message).length = 64 := by
  simp [digest, State.words, wordBytes]

end ChainArchive.Sha512
