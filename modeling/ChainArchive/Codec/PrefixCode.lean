/-!
# Prefix codes

A prefix code is a binary tree with symbols at its leaves. It is given by the
code length of each symbol: shorter codes come first, and among codes of one
length those of smaller symbols.
-/

namespace ChainArchive.Codec
set_option autoImplicit false

/-- A prefix code. `absent` stands where no code goes on. -/
inductive PrefixCode
  | absent
  | symbol (value : Nat)
  | fork (zero one : PrefixCode)
deriving Repr, DecidableEq

namespace PrefixCode

/-- What is left of a code after one bit. -/
def follow : PrefixCode → Bool → PrefixCode
  | .fork zero one, bit => if bit then one else zero
  | _, _ => .absent

/-- Adds a symbol under a path, given from the root. -/
def insert (value : Nat) : List Bool → PrefixCode → PrefixCode
  | [], _ => .symbol value
  | bit :: path, code =>
    let (zero, one) := match code with
      | .fork zero one => (zero, one)
      | _ => (.absent, .absent)
    if bit then .fork zero (insert value path one) else .fork (insert value path zero) one

end PrefixCode

/-- No code is longer than this. -/
def maxCodeLength : Nat := 15

/-- The symbols that have a code of this length. -/
def symbolsOfLength (lengths : List Nat) (length : Nat) : List Nat :=
  (lengths.zipIdx.filter (·.1 == length)).map (·.2)

/-- The lowest `width` bits of a number, the most significant first. -/
def codeBits : Nat → Nat → List Bool
  | 0, _ => []
  | width + 1, n => codeBits width (n / 2) ++ [n % 2 == 1]

/-- The codes of each length in turn; `next` is the first code that is still free at that length. -/
def assignFrom (lengths : List Nat) (next : Nat) : List Nat → List (Nat × List Bool)
  | [] => []
  | length :: longer =>
    let symbols := symbolsOfLength lengths length
    let codes := symbols.zipIdx.map fun (symbol, i) => (symbol, codeBits length (next + i))
    codes ++ assignFrom lengths ((next + symbols.length) * 2) longer

/-- Every symbol that has a code, with its bits. -/
def assignCodes (lengths : List Nat) : List (Nat × List Bool) :=
  assignFrom lengths 0 ((List.range maxCodeLength).map (· + 1))

/-- How many of the `2 ^ 15` longest codes are taken up. -/
def codeSpace (lengths : List Nat) : Nat :=
  (lengths.filter (0 < ·)).foldl (fun sum length => sum + Nat.pow 2 (maxCodeLength - length)) 0

/-- The lengths take up all codes. -/
def isComplete (lengths : List Nat) : Bool := codeSpace lengths == Nat.pow 2 maxCodeLength

/-- The lengths take up all codes, or there is at most one symbol. -/
def isUsable (lengths : List Nat) : Bool := isComplete lengths || (lengths.filter (0 < ·)).length ≤ 1

/-- The code that these lengths give. -/
def PrefixCode.ofLengths (lengths : List Nat) : PrefixCode :=
  (assignCodes lengths).foldl (fun code (value, path) => code.insert value path) .absent

end ChainArchive.Codec
