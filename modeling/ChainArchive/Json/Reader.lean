import ChainArchive.Json.Skip
import ChainArchive.Record

/-!
# Reading records

A record is an object whose known fields stand in any order and once each, or
an array of exactly its fields in order. Fields that are not known are skipped.
Identifiers are checked after decoding, so no blank id gets in by any spelling.
-/

namespace ChainArchive.Json
set_option autoImplicit false

/-! ## Fields -/

/-- Reads a transaction id. -/
def readId (text : Bytes) : Except Fault (TransactionId × Bytes) := do
  let (raw, rest) ← readText "a string" text
  match TransactionId.parse raw with
  | .ok id => return (id, rest)
  | .error e => throw (.unfit e.message)

/-- Reads a transaction id or `null`. -/
def readOptionalId (text : Bytes) : Scan (Option TransactionId) :=
  match skipSpace text with
  | 110 :: rest => (readWord (Bytes.ofText "ull") rest).map fun (_, rest) => (none, rest)
  | text => (readId text).map fun (id, rest) => (some id, rest)

/-- Reads a statement id in any of its spellings. -/
def readStatementId (text : Bytes) : Except Fault (StatementId × Bytes) := do
  let (raw, rest) ← readText "a formatted UUID string" text
  match StatementId.read raw.toList with
  | .ok id => return (id, rest)
  | .error reason => throw (.unfit s!"UUID parsing failed: {reason}")

/-- Reads a position on a statement. -/
def readPosition (text : Bytes) : Scan Nat := readNatBelow (Nat.pow 2 32) "u32" text

/-! ## Records -/

/-- One field of a record that is being read into a draft. -/
structure Field (δ : Type) where
  name : String
  /-- The draft has this field already. -/
  isSet : δ → Bool
  /-- Reads the value and puts it into the draft. -/
  read : δ → Bytes → Scan δ

/-- A field whose value goes to one place of the draft. -/
def Field.of {δ α : Type} (name : String) (get : δ → Option α) (set : δ → α → δ)
    (read : Bytes → Scan α) : Field δ where
  name
  isSet draft := (get draft).isSome
  read draft text := (read text).map fun (value, rest) => (set draft value, rest)

/-- A kind of record: its fields in order, and how a draft becomes a record or lacks a field. -/
structure Shape (δ ρ : Type) where
  title : String
  fields : List (Field δ)
  empty : δ
  finish : δ → Except String ρ

/-- What follows a key and its value. -/
inductive Entry
  /-- A key begins after this quote. -/
  | key (text : Bytes)
  /-- The object ended. -/
  | closed (rest : Bytes)

/-- Goes to the next key; between entries there is a comma. -/
def nextEntry (first : Bool) (text : Bytes) : Except Fault Entry :=
  match skipSpace text with
  | [] => .error .truncated
  | 125 :: rest => .ok (.closed rest)
  | byte :: rest =>
    if first then (if byte == 34 then .ok (.key rest) else .error .malformed)
    else if byte != 44 then .error .malformed
    else
      match skipSpace rest with
      | [] => .error .truncated
      | 34 :: text => .ok (.key text)
      | _ => .error .malformed

/-- The value after a key's colon. -/
def afterColon (text : Bytes) : Except Fault Bytes :=
  match skipSpace text with
  | [] => .error .truncated
  | 58 :: rest => .ok rest
  | _ => .error .malformed

/-- Reads one entry after the opening quote of its key. -/
def readEntry {δ : Type} (fields : List (Field δ)) (draft : δ) (text : Bytes) : Except Fault (δ × Bytes) := do
  let (name, text) ← readTextString text
  match fields.find? (·.name == name) with
  | some field =>
    if field.isSet draft then throw (.unfit s!"duplicate field `{name}`")
    field.read draft (← afterColon text)
  | none => return (draft, ← skipValue (← afterColon text))

/-- Reads the entries of an object. Every entry takes at least one octet, so the length of the text
bounds their number. -/
def readEntries {δ : Type} (fields : List (Field δ)) : Nat → Bool → δ → Bytes → Scan δ
  | 0, _, _, _ => .error .truncated
  | fuel + 1, first, draft, text =>
    match nextEntry first text with
    | .error fault => .error fault
    | .ok (.closed rest) => .ok (draft, rest)
    | .ok (.key text) =>
      match readEntry fields draft text with
      | .error fault => .error fault
      | .ok (draft, rest) => readEntries fields fuel false draft rest

/-- Reads the fields of a record from the elements of an array; `present` counts those read. -/
def readPositional {δ : Type} (title : String) (total : Nat) :
    List (Field δ) → Nat → δ → Bytes → Scan δ
  | [], _, draft, text => .ok (draft, text)
  | field :: fields, present, draft, text =>
    match nextElement (present == 0) text with
    | .error fault => .error fault
    | .ok (.closed _) =>
      .error (.unfit s!"invalid length {present}, expected {title} with {total} elements")
    | .ok (.element text) =>
      match field.read draft text with
      | .error fault => .error fault
      | .ok (draft, rest) => readPositional title total fields (present + 1) draft rest

/-- The closing bracket after the last field. -/
def closePositional (text : Bytes) : Except Fault Bytes :=
  match skipSpace text with
  | [] => .error .truncated
  | 93 :: rest => .ok rest
  | _ => .error .malformed

/-- A finished draft, or the field that is missing. -/
def Shape.conclude {δ ρ : Type} (shape : Shape δ ρ) (draft : δ) : Except Fault ρ :=
  (shape.finish draft).mapError fun name => .unfit s!"missing field `{name}`"

/-- Reads a record. -/
def Shape.readRecord {δ ρ : Type} (shape : Shape δ ρ) (text : Bytes) : Except Fault (ρ × Bytes) := do
  match skipSpace text with
  | 123 :: rest =>
    let (draft, rest) ← readEntries shape.fields (rest.length + 1) true shape.empty rest
    return (← shape.conclude draft, rest)
  | 91 :: rest =>
    let (draft, rest) ← readPositional shape.title shape.fields.length shape.fields 0 shape.empty rest
    let record ← shape.conclude draft
    return (record, ← closePositional rest)
  | text => throw (unexpected shape.title text)

/-- Reads a whole text: one value, then only whitespace. -/
def readDocument {α : Type} (item : Bytes → Scan α) (text : Bytes) : Except Fault α := do
  let (value, rest) ← item text
  if (skipSpace rest).isEmpty then return value
  throw .malformed

/-! ## The two records -/

/-- A live record that is being read. -/
structure TransactionDraft where
  id : Option TransactionId
  previous : Option (Option TransactionId)
  payload : Option Bytes

/-- How a live record is read; the predecessor may be left out. -/
def transactionShape : Shape TransactionDraft Transaction where
  title := "struct Transaction"
  fields :=
    [.of "id" (·.id) (fun d id => { d with id := some id }) readId,
     .of "previous_id" (·.previous) (fun d previous => { d with previous := some previous }) readOptionalId,
     .of "payload" (·.payload) (fun d payload => { d with payload := some payload }) readBytes]
  empty := ⟨none, none, none⟩
  finish
    | ⟨some id, previous, some payload⟩ => .ok ⟨id, previous.getD none, payload⟩
    | ⟨none, _, _⟩ => .error "id"
    | ⟨some _, _, none⟩ => .error "payload"

/-- An archived record that is being read. -/
structure ArchivedDraft where
  statement : Option StatementId
  id : Option TransactionId
  number : Option Nat
  compressed : Option Bytes
  signature : Option Bytes

/-- How an archived record is read. -/
def archivedShape : Shape ArchivedDraft ArchivedTransaction where
  title := "struct ArchivedTransaction"
  fields :=
    [.of "statement_id" (·.statement) (fun d v => { d with statement := some v }) readStatementId,
     .of "transaction_id" (·.id) (fun d v => { d with id := some v }) readId,
     .of "transaction_number" (·.number) (fun d v => { d with number := some v }) readPosition,
     .of "compressed_payload" (·.compressed) (fun d v => { d with compressed := some v }) readBytes,
     .of "signature" (·.signature) (fun d v => { d with signature := some v }) readBytes]
  empty := ⟨none, none, none, none, none⟩
  finish
    | ⟨some statement, some id, some number, some compressed, some signature⟩ =>
      .ok ⟨statement, id, number, compressed, signature⟩
    | ⟨none, _, _, _, _⟩ => .error "statement_id"
    | ⟨some _, none, _, _, _⟩ => .error "transaction_id"
    | ⟨some _, some _, none, _, _⟩ => .error "transaction_number"
    | ⟨some _, some _, some _, none, _⟩ => .error "compressed_payload"
    | ⟨some _, some _, some _, some _, none⟩ => .error "signature"

end ChainArchive.Json

namespace ChainArchive
set_option autoImplicit false
open Json

/-- Reads the JSON text of a live record. -/
def Transaction.ofJson (text : Bytes) : Except Fault Transaction := readDocument transactionShape.readRecord text

/-- Reads the JSON text of an archived record. -/
def ArchivedTransaction.ofJson (text : Bytes) : Except Fault ArchivedTransaction :=
  readDocument archivedShape.readRecord text

/-- Reads the JSON text of a list of live records. -/
def Transaction.listOfJson (text : Bytes) : Except Fault (List Transaction) :=
  readDocument (readArray transactionShape.readRecord "a sequence") text

end ChainArchive
