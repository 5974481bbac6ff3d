import ChainArchive.Bytes
import ChainArchive.Text.Quoted
import ChainArchive.Text.Hex

/-!
# Reading JSON octet by octet

A reader takes the rest of a text and answers a value with what follows it.
The text is read from left to right and the first fault is reported: the text
is malformed, it ends early, or a well-formed value has the wrong shape.
-/

namespace ChainArchive.Json
set_option autoImplicit false

/-- What is wrong with a JSON text. -/
inductive Fault
  /-- The text is not JSON. -/
  | malformed
  /-- The text ends before the value does. -/
  | truncated
  /-- The value is well formed, but not of the expected shape. -/
  | unfit (message : String)
deriving Repr, DecidableEq

/-- The text shown for a JSON text that is refused. -/
def Fault.message : Fault → String
  | .malformed => "malformed JSON text"
  | .truncated => "unexpected end of JSON text"
  | .unfit message => message

/-- A value and the text after it. -/
abbrev Scan (α : Type) := Except Fault (α × Bytes)

/-- Space, tab, line feed and carriage return may stand between tokens. -/
def isSpace (byte : UInt8) : Bool := byte == 32 || byte == 9 || byte == 10 || byte == 13

/-- Drops the whitespace in front. -/
def skipSpace (text : Bytes) : Bytes := text.dropWhile isSpace

/-- An ASCII digit. -/
def isDigit (byte : UInt8) : Bool := 48 ≤ byte && byte ≤ 57

/-- Reads the rest of a literal name. -/
def readWord : Bytes → Bytes → Scan Unit
  | [], text => .ok ((), text)
  | _ :: _, [] => .error .truncated
  | letter :: letters, byte :: text => if byte = letter then readWord letters text else .error .malformed

/-! ## Numbers -/

/-- A number of a text: an integer of 64 bits, signed or not, or any other number. -/
inductive Number
  | integer (value : Int)
  | floating
deriving Repr, DecidableEq

/-- The value of a run of decimal digits. -/
def digitsValue (digits : Bytes) : Nat := digits.foldl (fun n byte => n * 10 + (byte.toNat - 48)) 0

/-- Half a unit above the greatest finite double: from here on a number is out of range. -/
def doubleLimit : Nat := Nat.pow 2 1024 - Nat.pow 2 970

/-- The number `digits · 10 ^ exponent` is out of a double's range. -/
def outOfRange (digits : Bytes) (exponent : Int) : Bool :=
  let significant := digits.dropWhile (· == 48)
  let leading : Int := significant.length + exponent
  if significant.isEmpty || leading < 300 then false
  else if 320 < leading then true
  else if 0 ≤ exponent then doubleLimit ≤ digitsValue significant * Nat.pow 10 exponent.toNat
  else doubleLimit * Nat.pow 10 (-exponent).toNat ≤ digitsValue significant

/-- A number without fraction and exponent. -/
def wholeNumber (negative : Bool) (digits : Bytes) : Except Fault Number :=
  let value := digitsValue digits
  if negative then
    if 0 < value && value ≤ Nat.pow 2 63 then .ok (.integer (-value))
    else if outOfRange digits 0 then .error .malformed else .ok .floating
  else
    if value < Nat.pow 2 64 then .ok (.integer value)
    else if outOfRange digits 0 then .error .malformed else .ok .floating

/-- At least one digit has to follow. -/
def readDigits (text : Bytes) : Scan Bytes :=
  match text with
  | [] => .error .truncated
  | byte :: _ =>
    if isDigit byte then .ok (text.takeWhile isDigit, text.dropWhile isDigit) else .error .malformed

/-- The digits before the point; a zero stands alone. -/
def readWhole (text : Bytes) : Scan Bytes :=
  match text with
  | 48 :: next :: _ => if isDigit next then .error .malformed else .ok ([48], text.tail)
  | _ => readDigits text

/-- The digits after a point, none if there is no point. -/
def readFraction (text : Bytes) : Scan (Option Bytes) :=
  match text with
  | 46 :: rest => (readDigits rest).map fun (digits, after) => (some digits, after)
  | _ => .ok (none, text)

/-- A power of ten after `e`, if there is one. -/
def readExponent (text : Bytes) : Scan (Option Int) :=
  match text with
  | 69 :: 45 :: rest | 101 :: 45 :: rest =>
    (readDigits rest).map fun (digits, after) => (some (-(digitsValue digits : Int)), after)
  | 69 :: 43 :: rest | 101 :: 43 :: rest | 69 :: rest | 101 :: rest =>
    (readDigits rest).map fun (digits, after) => (some (digitsValue digits : Int), after)
  | _ => .ok (none, text)

/-- Reads a number that starts at the front. -/
def readNumber (text : Bytes) : Except Fault (Number × Bytes) := do
  let negative := text.head? == some 45
  let (whole, text) ← readWhole (if negative then text.tail else text)
  let (fraction, text) ← readFraction text
  let (exponent, text) ← readExponent text
  if fraction.isNone && exponent.isNone then
    return (← wholeNumber negative whole, text)
  let places := fraction.getD []
  if outOfRange (whole ++ places) (exponent.getD 0 - places.length) then throw .malformed
  return (.floating, text)

/-! ## Strings -/

/-- The octets of a code point, by the rule of UTF-8 also for surrogates. -/
def codeOctets (code : Nat) : Bytes :=
  let trail (shift : Nat) : UInt8 := UInt8.ofNat (0x80 + code / Nat.pow 2 shift % 0x40)
  if code < 0x80 then [UInt8.ofNat code]
  else if code < 0x800 then [UInt8.ofNat (0xC0 + code / 0x40), trail 0]
  else if code < 0x10000 then [UInt8.ofNat (0xE0 + code / 0x1000), trail 6, trail 0]
  else [UInt8.ofNat (0xF0 + code / 0x40000), trail 12, trail 6, trail 0]

/-- A code unit that opens a surrogate pair. -/
def isLead (code : Nat) : Bool := 0xD800 ≤ code && code ≤ 0xDBFF

/-- A code unit that closes a surrogate pair. -/
def isTrail (code : Nat) : Bool := 0xDC00 ≤ code && code ≤ 0xDFFF

/-- The code point of a surrogate pair. -/
def pairCode (lead trail : Nat) : Nat := 0x10000 + (lead - 0xD800) * 0x400 + (trail - 0xDC00)

/-- The value of four hexadecimal digits. -/
def hexUnit? (a b c d : UInt8) : Option Nat := do
  let digit (byte : UInt8) := Hex.value? (Char.ofNat byte.toNat)
  return (← digit a) * 4096 + (← digit b) * 256 + (← digit c) * 16 + (← digit d)

/-- What a one-letter escape stands for. -/
def letterEscape? (byte : UInt8) : Option UInt8 :=
  match byte with
  | 34 | 47 | 92 => some byte
  | 98 => some 8
  | 102 => some 12
  | 110 => some 10
  | 114 => some 13
  | 116 => some 9
  | _ => none

/-- How a string is read: as text, or as any octets. -/
inductive StringKind
  | text
  | octets
deriving Repr, DecidableEq

/-- A lead surrogate that no trail follows: three octets in a byte string, malformed in a text.
`read` holds the octets so far in reverse. -/
def loneLead (kind : StringKind) (lead : Option Nat) (read : Bytes) : Except Fault Bytes :=
  match lead, kind with
  | none, _ => .ok read
  | some code, .octets => .ok ((codeOctets code).reverse ++ read)
  | some _, .text => .error .malformed

/-- Takes in one `\u` escape: the octets so far in reverse and the lead surrogate that now waits. -/
def takeUnit (kind : StringKind) (lead : Option Nat) (read : Bytes) (code : Nat) :
    Except Fault (Option Nat × Bytes) :=
  match lead with
  | some first =>
    if isTrail code then .ok (none, (codeOctets (pairCode first code)).reverse ++ read)
    else do
      let read ← loneLead kind lead read
      if isLead code then return (some code, read)
      return (none, (codeOctets code).reverse ++ read)
  | none =>
    if isLead code then .ok (some code, read)
    else if isTrail code && kind == .text then .error .malformed
    else .ok (none, (codeOctets code).reverse ++ read)

/-- Reads a string after its opening quote. `lead` is a surrogate that waits for its pair, `read`
the octets so far in reverse. -/
def readOctets (kind : StringKind) : Option Nat → Bytes → Bytes → Scan Bytes
  | _, _, [] => .error .truncated
  | lead, read, 34 :: rest => (loneLead kind lead read).map fun read => (read.reverse, rest)
  | _, _, [92] => .error .truncated
  | lead, read, 92 :: 117 :: a :: b :: c :: d :: rest =>
    match hexUnit? a b c d with
    | none => .error .malformed
    | some code =>
      match takeUnit kind lead read code with
      | .error fault => .error fault
      | .ok (lead, read) => readOctets kind lead read rest
  | _, _, 92 :: 117 :: _ => .error .truncated
  | lead, read, 92 :: letter :: rest =>
    match loneLead kind lead read, letterEscape? letter with
    | .error fault, _ => .error fault
    | .ok _, none => .error .malformed
    | .ok read, some byte => readOctets kind none (byte :: read) rest
  | lead, read, byte :: rest =>
    match loneLead kind lead read with
    | .error fault => .error fault
    | .ok read =>
      if byte < 32 && kind == .text then .error .malformed else readOctets kind none (byte :: read) rest

/-- Reads the octets of a string after its opening quote. -/
def readByteString (text : Bytes) : Scan Bytes := readOctets .octets none [] text

/-- Reads the text of a string after its opening quote. -/
def readTextString (text : Bytes) : Except Fault (String × Bytes) := do
  let (octets, rest) ← readOctets .text none [] text
  match Bytes.text? octets with
  | some value => return (value, rest)
  | none => throw .malformed

/-! ## Values of the wrong shape -/

/-- The fault of a value that is not what was expected. The value is read as far as its description needs. -/
def unexpected (expected : String) (text : Bytes) : Fault :=
  let describe {α : Type} (scan : Scan α) (name : α → String) : Fault :=
    match scan with
    | .error fault => fault
    | .ok (value, _) => .unfit s!"invalid type: {name value}, expected {expected}"
  match text with
  | [] => .truncated
  | 110 :: rest => describe (readWord (Bytes.ofText "ull") rest) fun _ => "null"
  | 116 :: rest => describe (readWord (Bytes.ofText "rue") rest) fun _ => "boolean `true`"
  | 102 :: rest => describe (readWord (Bytes.ofText "alse") rest) fun _ => "boolean `false`"
  | 34 :: rest => describe (readTextString rest) fun value => s!"string {Quoted.display value}"
  | 91 :: _ => .unfit s!"invalid type: sequence, expected {expected}"
  | 123 :: _ => .unfit s!"invalid type: map, expected {expected}"
  | byte :: _ =>
    if byte == 45 || isDigit byte then
      describe (readNumber text) fun
        | .integer value => s!"integer `{value}`"
        | .floating => "floating point"
    else .malformed

/-! ## Scalars and arrays -/

/-- Reads a string as text. -/
def readText (expected : String) (text : Bytes) : Scan String :=
  match skipSpace text with
  | 34 :: rest => readTextString rest
  | text => .error (unexpected expected text)

/-- Reads a natural number below `bound`. -/
def readNatBelow (bound : Nat) (expected : String) (text : Bytes) : Except Fault (Nat × Bytes) := do
  let text := skipSpace text
  match text with
  | byte :: _ =>
    if byte == 45 || isDigit byte then
      match ← readNumber text with
      | (.integer value, rest) =>
        if 0 ≤ value && value < bound then return (value.toNat, rest)
        throw (.unfit s!"invalid value: integer `{value}`, expected {expected}")
      | (.floating, _) => throw (.unfit s!"invalid type: floating point, expected {expected}")
    else throw (unexpected expected text)
  | [] => throw .truncated

/-- What stands before the next element of an array. -/
inductive Turn
  /-- An element begins here. -/
  | element (text : Bytes)
  /-- The array ended. -/
  | closed (rest : Bytes)

/-- Goes to the next element; between elements there is a comma. -/
def nextElement (first : Bool) (text : Bytes) : Except Fault Turn :=
  match skipSpace text with
  | [] => .error .truncated
  | 93 :: rest => .ok (.closed rest)
  | byte :: rest =>
    if first then .ok (.element (byte :: rest))
    else if byte != 44 then .error .malformed
    else
      match skipSpace rest with
      | [] => .error .truncated
      | 93 :: _ => .error .malformed
      | text => .ok (.element text)

/-- Reads the elements of an array after its opening bracket. Every element takes at least one octet,
so the length of the text bounds their number. -/
def readElements {α : Type} (item : Bytes → Scan α) : Nat → Bool → List α → Bytes → Scan (List α)
  | 0, _, _, _ => .error .truncated
  | fuel + 1, first, read, text =>
    match nextElement first text with
    | .error fault => .error fault
    | .ok (.closed rest) => .ok (read.reverse, rest)
    | .ok (.element text) =>
      match item text with
      | .error fault => .error fault
      | .ok (value, rest) => readElements item fuel false (value :: read) rest

/-- Reads an array of such elements. -/
def readArray {α : Type} (item : Bytes → Scan α) (expected : String) (text : Bytes) : Scan (List α) :=
  match skipSpace text with
  | 91 :: rest => readElements item (rest.length + 1) true [] rest
  | text => .error (unexpected expected text)

/-- Reads one octet, written as a number. -/
def readOctet (text : Bytes) : Scan UInt8 :=
  (readNatBelow 256 "u8" text).map fun (value, rest) => (UInt8.ofNat value, rest)

/-- Reads a byte string, written as an array of numbers or as a JSON string. -/
def readBytes (text : Bytes) : Scan Bytes :=
  match skipSpace text with
  | 34 :: rest => readByteString rest
  | text => readArray readOctet "a byte array" text

end ChainArchive.Json
