import ChainArchive.Bytes

/-!
# Hexadecimal digits

Digits are written in lower case and read in either case.
-/

namespace ChainArchive.Hex
set_option autoImplicit false

/-- The lower-case digit of a value below sixteen. -/
def digit (value : Nat) : Char :=
  if value < 10 then Char.ofNat (48 + value) else Char.ofNat (87 + value)

/-- The value of a digit of either case. -/
def value? (c : Char) : Option Nat :=
  if '0' ≤ c ∧ c ≤ '9' then some (c.toNat - 48)
  else if 'a' ≤ c ∧ c ≤ 'f' then some (c.toNat - 87)
  else if 'A' ≤ c ∧ c ≤ 'F' then some (c.toNat - 55)
  else none

theorem value?_digit : ∀ value < 16, value? (digit value) = some value := by decide

/-- The two digits of an octet. -/
def ofByte (byte : UInt8) : List Char := [digit (byte.toNat / 16), digit (byte.toNat % 16)]

/-- The digits of a byte string, two for each octet. -/
def encode (bytes : Bytes) : List Char := bytes.flatMap ofByte

/-- The byte string that pairs of digits spell, if every character is a digit and none is left over. -/
def decode? : List Char → Option Bytes
  | [] => some []
  | [_] => none
  | high :: low :: rest => do
    let h ← value? high
    let l ← value? low
    return UInt8.ofNat (16 * h + l) :: (← decode? rest)

/-- The `width` lowest digits of a number, the most significant first. -/
def ofNat (width n : Nat) : List Char :=
  match width with
  | 0 => []
  | width + 1 => ofNat width (n / 16) ++ [digit (n % 16)]

end ChainArchive.Hex
