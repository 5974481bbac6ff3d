import ChainArchive.Record

/-!
# Written JSON

Records are written without spaces, fields in a fixed order, byte strings as
arrays of numbers. A string escapes the quote, the backslash and the control
characters below U+0020; everything else stands as its UTF-8 octets.
-/

namespace ChainArchive.Json
set_option autoImplicit false

/-- One character inside a JSON string. -/
def escape (c : Char) : Bytes :=
  match c with
  | '"' => Bytes.ofText "\\\""
  | '\\' => Bytes.ofText "\\\\"
  | '\x08' => Bytes.ofText "\\b"
  | '\t' => Bytes.ofText "\\t"
  | '\n' => Bytes.ofText "\\n"
  | '\x0c' => Bytes.ofText "\\f"
  | '\r' => Bytes.ofText "\\r"
  | c =>
    if c.toNat < 0x20 then Bytes.ofText (String.ofList ('\\' :: 'u' :: Hex.ofNat 4 c.toNat))
    else String.utf8EncodeChar c

/-- A JSON string. -/
def quoted (text : String) : Bytes := 34 :: (text.toList.flatMap escape ++ [34])

/-- The decimal digits of a number. -/
def decimal (n : Nat) : Bytes := (Nat.toDigits 10 n).map fun c => UInt8.ofNat c.toNat

/-- A JSON array of already written elements. -/
def array (elements : List Bytes) : Bytes := 91 :: ((elements.intersperse [44]).flatten ++ [93])

/-- A byte string, written as an array of numbers. -/
def octets (bytes : Bytes) : Bytes := array (bytes.map fun byte => decimal byte.toNat)

/-- A JSON object of named, already written values. -/
def object (fields : List (String × Bytes)) : Bytes :=
  123 :: (((fields.map fun (name, value) => quoted name ++ 58 :: value).intersperse [44]).flatten ++ [125])

/-- A value that may be absent. -/
def orNull : Option Bytes → Bytes
  | some value => value
  | none => Bytes.ofText "null"

end ChainArchive.Json

namespace ChainArchive
set_option autoImplicit false
open Json

/-- The JSON string of an id. -/
def TransactionId.toJson (id : TransactionId) : Bytes := quoted id.text

/-- The JSON string of a statement id: its canonical text. -/
def StatementId.toJson (id : StatementId) : Bytes := quoted id.text

/-- The JSON text of a live record. -/
def Transaction.toJson (t : Transaction) : Bytes :=
  object
    [("id", t.id.toJson), ("previous_id", orNull (t.previous.map TransactionId.toJson)),
     ("payload", octets t.payload)]

/-- The JSON text of an archived record. -/
def ArchivedTransaction.toJson (r : ArchivedTransaction) : Bytes :=
  object
    [("statement_id", r.statement.toJson), ("transaction_id", r.id.toJson),
     ("transaction_number", decimal r.number), ("compressed_payload", octets r.compressed),
     ("signature", octets r.signature)]

/-- The JSON text of a list of live records: what a seed file holds. -/
def Transaction.listToJson (ts : List Transaction) : Bytes := array (ts.map Transaction.toJson)

end ChainArchive
