import ChainArchive.Json.Scan

/-!
# Skipping a value

A field that nobody asks for is passed over by a stack machine that takes one
octet at a time, so nesting of any depth is no recursion. Its strings may hold
any octets but control characters and its numbers may be of any size.
-/

namespace ChainArchive.Json
set_option autoImplicit false

/-- A container that is open. -/
inductive Container
  | array
  | object
deriving Repr, DecidableEq

/-- What the skipped text may go on with. -/
inductive SkipMode
  /-- A value has to begin. -/
  | value
  /-- A value or the end of the array just opened. -/
  | firstElement
  /-- A key or the end of the object just opened. -/
  | firstKey
  /-- A key has to begin. -/
  | key
  /-- The colon after a key. -/
  | colon
  /-- A comma or the end of the innermost container. -/
  | after
  /-- The rest of a literal name. -/
  | word (letters : Bytes)
  /-- Inside a string, which may be a key. -/
  | inString (isKey : Bool)
  /-- After a backslash. -/
  | escape (isKey : Bool)
  /-- That many digits of a `\u` escape are still to come, and those so far were digits if `sound`. -/
  | hexEscape (isKey : Bool) (left : Nat) (sound : Bool)
  /-- After the sign of a number. -/
  | minus
  /-- After a leading zero. -/
  | zero
  /-- Inside the digits before the point. -/
  | whole
  /-- After the point. -/
  | point
  /-- Inside the digits after the point. -/
  | fraction
  /-- After `e`. -/
  | exponent
  /-- After the sign of the exponent. -/
  | exponentSign
  /-- Inside the digits of the exponent. -/
  | power
deriving Repr, DecidableEq

/-- What one octet does to the machine. -/
inductive SkipMove
  | go (mode : SkipMode) (stack : List Container)
  /-- The value ended before this octet. -/
  | endBefore
  /-- The value ended with this octet. -/
  | endAfter
  | fail (fault : Fault)

/-- A value has just ended with this octet. -/
def valueEnded : List Container → SkipMove
  | [] => .endAfter
  | stack => .go .after stack

/-- The octet that follows a value inside a container. -/
def afterValue (stack : List Container) (byte : UInt8) : SkipMove :=
  if isSpace byte then .go .after stack
  else
    match stack, byte with
    | [], _ => .endBefore
    | .array :: _, 44 => .go .value stack
    | .object :: _, 44 => .go .key stack
    | .array :: outer, 93 => valueEnded outer
    | .object :: outer, 125 => valueEnded outer
    | _, _ => .fail .malformed

/-- The octet that follows a number. -/
def afterNumber (stack : List Container) (byte : UInt8) : SkipMove :=
  if stack.isEmpty then .endBefore else afterValue stack byte

/-- The first octet of a value. -/
def beginValue (stack : List Container) (byte : UInt8) : SkipMove :=
  match byte with
  | 110 => .go (.word (Bytes.ofText "ull")) stack
  | 116 => .go (.word (Bytes.ofText "rue")) stack
  | 102 => .go (.word (Bytes.ofText "alse")) stack
  | 34 => .go (.inString false) stack
  | 45 => .go .minus stack
  | 48 => .go .zero stack
  | 91 => .go .firstElement (.array :: stack)
  | 123 => .go .firstKey (.object :: stack)
  | byte => if isDigit byte then .go .whole stack else .fail .malformed

/-- A string has just ended. -/
def stringEnded (isKey : Bool) (stack : List Container) : SkipMove :=
  if isKey then .go .colon stack else valueEnded stack

/-- After the digits before the point, or a zero. -/
def afterWhole (stack : List Container) (byte : UInt8) : SkipMove :=
  if byte == 46 then .go .point stack
  else if byte == 101 || byte == 69 then .go .exponent stack
  else afterNumber stack byte

/-- Takes in one octet. -/
def skipMove (mode : SkipMode) (stack : List Container) (byte : UInt8) : SkipMove :=
  match mode with
  | .value => if isSpace byte then .go .value stack else beginValue stack byte
  | .firstElement =>
    if isSpace byte then .go .firstElement stack
    else if byte == 93 then valueEnded stack.tail
    else beginValue stack byte
  | .firstKey =>
    if isSpace byte then .go .firstKey stack
    else if byte == 125 then valueEnded stack.tail
    else if byte == 34 then .go (.inString true) stack
    else .fail .malformed
  | .key =>
    if isSpace byte then .go .key stack
    else if byte == 34 then .go (.inString true) stack
    else .fail .malformed
  | .colon =>
    if isSpace byte then .go .colon stack else if byte == 58 then .go .value stack else .fail .malformed
  | .after => afterValue stack byte
  | .word [] => .fail .malformed
  | .word (letter :: letters) =>
    if byte != letter then .fail .malformed
    else if letters.isEmpty then valueEnded stack
    else .go (.word letters) stack
  | .inString isKey =>
    if byte == 34 then stringEnded isKey stack
    else if byte == 92 then .go (.escape isKey) stack
    else if byte < 32 then .fail .malformed
    else .go (.inString isKey) stack
  | .escape isKey =>
    if byte == 117 then .go (.hexEscape isKey 4 true) stack
    else if (letterEscape? byte).isSome then .go (.inString isKey) stack
    else .fail .malformed
  | .hexEscape isKey left sound =>
    let sound := sound && (Hex.value? (Char.ofNat byte.toNat)).isSome
    if 1 < left then .go (.hexEscape isKey (left - 1) sound) stack
    else if sound then .go (.inString isKey) stack
    else .fail .malformed
  | .minus =>
    if byte == 48 then .go .zero stack else if isDigit byte then .go .whole stack else .fail .malformed
  | .zero => if isDigit byte then .fail .malformed else afterWhole stack byte
  | .whole => if isDigit byte then .go .whole stack else afterWhole stack byte
  | .point => if isDigit byte then .go .fraction stack else .fail .malformed
  | .fraction =>
    if isDigit byte then .go .fraction stack
    else if byte == 101 || byte == 69 then .go .exponent stack
    else afterNumber stack byte
  | .exponent =>
    if byte == 43 || byte == 45 then .go .exponentSign stack
    else if isDigit byte then .go .power stack
    else .fail .malformed
  | .exponentSign => if isDigit byte then .go .power stack else .fail .malformed
  | .power => if isDigit byte then .go .power stack else afterNumber stack byte

/-- The text ends here. A number that lacks a digit is malformed; any other open value is cut short. -/
def skipEnd (mode : SkipMode) (stack : List Container) : Except Fault Bytes :=
  match mode with
  | .minus | .point | .exponent | .exponentSign => .error .malformed
  | .zero | .whole | .fraction | .power => if stack.isEmpty then .ok [] else .error .truncated
  | _ => .error .truncated

/-- Runs the machine up to the end of the value that began in an empty container stack. -/
def skipFrom : SkipMode → List Container → Bytes → Except Fault Bytes
  | mode, stack, [] => skipEnd mode stack
  | mode, stack, byte :: rest =>
    match skipMove mode stack byte with
    | .go mode stack => skipFrom mode stack rest
    | .endBefore => .ok (byte :: rest)
    | .endAfter => .ok rest
    | .fail fault => .error fault

/-- The text after one value of any shape. -/
def skipValue (text : Bytes) : Except Fault Bytes := skipFrom .value [] text

end ChainArchive.Json
