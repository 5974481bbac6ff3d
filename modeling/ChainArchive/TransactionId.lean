import ChainArchive.Bytes
import ChainArchive.Text.Blank

/-!
# Transaction ids

An id is any text with a visible character in it, kept as it was given. The
type carries that fact, so a blank id cannot be built anywhere.
-/

namespace ChainArchive
set_option autoImplicit false

/-- Why a text is not an identifier. -/
inductive IdentifierError
  /-- The text is blank. -/
  | emptyTransactionId
  /-- The text is no statement id; `reason` says what is wrong with it. -/
  | invalidStatementId (reason : String)
deriving Repr, DecidableEq

/-- The text shown for an identifier that is refused. -/
def IdentifierError.message : IdentifierError → String
  | .emptyTransactionId => "Transaction id must not be empty"
  | .invalidStatementId reason => "Invalid statement id: " ++ reason

/-- A text that is not blank. -/
structure TransactionId where
  text : String
  visible : Blank.isBlankText text = false
deriving DecidableEq

namespace TransactionId

instance : Repr TransactionId := ⟨fun id p => reprPrec id.text p⟩

/-- Accepts every text with a visible character, untrimmed. -/
def parse (raw : String) : Except IdentifierError TransactionId :=
  if visible : Blank.isBlankText raw = false then .ok ⟨raw, visible⟩ else .error .emptyTransactionId

theorem parse_eq_ok_iff {raw : String} {id : TransactionId} : parse raw = .ok id ↔ id.text = raw := by
  cases id with
  | mk text visible =>
    unfold parse
    split <;> rename_i h
    · simp [eq_comm]
    · simp only [reduceCtorEq, false_iff]
      rintro rfl
      exact h visible

/-- The octets by which ids are stored and ordered. -/
def bytes (id : TransactionId) : Bytes := Bytes.ofText id.text

/-- Ids are ordered by their octets. -/
instance : Ord TransactionId := ⟨fun a b => compare a.bytes b.bytes⟩

instance : ToString TransactionId := ⟨text⟩

end TransactionId
end ChainArchive
