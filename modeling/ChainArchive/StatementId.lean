import ChainArchive.Text.Hex
import ChainArchive.TransactionId

/-!
# Statement ids

An id is sixteen octets. Its text is thirty-two lower-case digits in groups of
8, 4, 4, 4 and 12, joined by hyphens. It is read from that text in either case,
also inside braces or after `urn:uuid:`, and from the bare digits.
-/

namespace ChainArchive
set_option autoImplicit false

/-- The identifier of one statement: sixteen octets. -/
structure StatementId where
  bytes : Bytes
  length_eq : bytes.length = 16
deriving DecidableEq

namespace StatementId

/-- How many digits each hyphenated group holds. -/
def groups : List Nat := [8, 4, 4, 4, 12]

/-- Puts a hyphen between groups of the given sizes. -/
def hyphenate : List Nat → List Char → List Char
  | [], digits => digits
  | [_], digits => digits
  | size :: sizes, digits => digits.take size ++ '-' :: hyphenate sizes (digits.drop size)

/-- Takes the hyphens out again, if they stand exactly between groups of the given sizes. -/
def ungroup? : List Nat → List Char → Option (List Char)
  | [], _ => none
  | [size], text => if text.length = size then some text else none
  | size :: sizes, text =>
    match text.drop size with
    | '-' :: rest => (ungroup? sizes rest).map (text.take size ++ ·)
    | _ => none

/-- The canonical text. -/
def text (id : StatementId) : String := String.ofList (hyphenate groups (Hex.encode id.bytes))

instance : ToString StatementId := ⟨text⟩
instance : Repr StatementId := ⟨fun id p => reprPrec id.text p⟩

/-- Ids are ordered by their octets. -/
instance : Ord StatementId := ⟨fun a b => compare a.bytes b.bytes⟩

/-! ## Fresh ids -/

/-- Marks an octet of a random id: the version 4 in the upper half of octet 6, the variant in the top bits of
octet 8. -/
def mark (position : Nat) (octet : UInt8) : UInt8 :=
  if position = 6 then octet &&& 0x0f ||| 0x40 else if position = 8 then octet &&& 0x3f ||| 0x80 else octet

/-- The id made from random octets. -/
def ofRandom (octets : Bytes) : StatementId :=
  ⟨(List.range 16).map fun position => mark position (octets.getD position 0), by simp⟩

/-! ## Reading -/

/-- What may stand around a hyphenated id. -/
inductive Wrapping
  | plain
  | braced
  | urn
deriving Repr, DecidableEq

namespace Wrapping

/-- How many octets stand before the id. -/
def width : Wrapping → Nat
  | .plain => 0
  | .braced => 1
  | .urn => 9

end Wrapping

/-- The lead-in of a URN, which is read in any case. -/
def urnLead : List Char := "urn:uuid:".toList

/-- Takes braces or the URN lead-in off. -/
def unwrap (text : List Char) : Wrapping × List Char :=
  if 2 ≤ text.length ∧ text.head? = some '{' ∧ text.getLast? = some '}' then (.braced, text.tail.dropLast)
  else if (text.take 9).map Char.toLower = urnLead then (.urn, text.drop 9)
  else (.plain, text)

/-- The digits of a well-formed id, in the order in which they stand. -/
def digits? (text : List Char) : Option (List Char) :=
  if text.length = 32 then some text else ungroup? groups (unwrap text).2

/-- The number of octets in the UTF-8 form. -/
def octets (text : List Char) : Nat := text.foldl (fun count c => count + c.utf8Size) 0

/-- The first character that is neither a digit nor a hyphen, with its octet position. -/
def firstStray : Nat → List Char → Option (Nat × Char)
  | _, [] => none
  | position, c :: rest =>
    if c = '-' ∨ (Hex.value? c).isSome then firstStray (position + c.utf8Size) rest else some (position, c)

/-- The positions of the hyphens. -/
def hyphens (text : List Char) : List Nat := (text.zipIdx.filter (·.1 == '-')).map (·.2)

/-- Where each hyphenated group but the last begins and how long it has to be. -/
def layout : List (Nat × Nat) := [(0, 8), (9, 4), (14, 4), (19, 4)]

/-- What is wrong with the groups of a text that has four hyphens. -/
def explainGroups (length : Nat) (ends : List Nat) : String :=
  let wrong := (layout.zip ends).zipIdx.find? fun (((start, size), stop), _) => stop != start + size
  match wrong with
  | some (((start, size), stop), group) =>
    s!"invalid group length in group {group}: expected {size}, found {stop - start}"
  | none => s!"invalid group length in group 4: expected 12, found {length - 24}"

/-- What is wrong with a text of this wrapping and body that is no id. -/
def explainBody (length : Nat) (wrapping : Wrapping) (body : List Char) : String :=
  match firstStray wrapping.width body with
  | some (position, c) => s!"invalid character: found `{c}` at {position}"
  | none =>
    let ends := hyphens body
    if wrapping = .plain ∧ ends = [] ∧ length ≠ 36 then s!"invalid length: found {length}"
    else if ends.length ≠ 4 then s!"invalid group count: expected 5, found {ends.length + 1}"
    else explainGroups length ends

/-- What is wrong with a text that is no id. Thirty-six octets in a wrapping are judged on their own. -/
def explain (text : List Char) : String :=
  let length := octets text
  let (wrapping, body) := unwrap text
  if length = 0 ∨ 45 < length then s!"invalid length: found {length}"
  else if (wrapping = .braced ∧ length = 38) ∨ (wrapping = .urn ∧ length = 45) then explainBody 36 .plain body
  else explainBody length wrapping body

/-- Reads an id from any of its spellings; otherwise says why it is none. -/
def read (text : List Char) : Except String StatementId :=
  match (digits? text).bind Hex.decode? with
  | some bytes => if length_eq : bytes.length = 16 then .ok ⟨bytes, length_eq⟩ else .error (explain text)
  | none => .error (explain text)

/-- Reads an id given by a caller. -/
def parse (raw : String) : Except IdentifierError StatementId :=
  (read raw.toList).mapError .invalidStatementId

end StatementId
end ChainArchive
