import ChainArchive.StatementId

/-!
# Records

A live transaction names its predecessor, so records form chains that end at a
head. An archived transaction is what a statement keeps of it: the compressed
payload and the signature of the original payload, with the position at which
the chain was walked.
-/

namespace ChainArchive
set_option autoImplicit false

/-- A live transaction. -/
structure Transaction where
  id : TransactionId
  /-- The predecessor on the chain; a chain head has none. -/
  previous : Option TransactionId
  payload : Bytes
deriving Repr, DecidableEq

/-- The record has no predecessor. -/
def Transaction.isHead (t : Transaction) : Bool := t.previous.isNone

/-- A transaction after compression, signing and relocation. -/
structure ArchivedTransaction where
  statement : StatementId
  id : TransactionId
  /-- The position on the statement, counted from one. -/
  number : Nat
  compressed : Bytes
  /-- The signature of the uncompressed payload. -/
  signature : Bytes
deriving Repr, DecidableEq

/-- One unit of archiving work: a resolved transaction and its position on a statement. -/
structure ArchivalRequest where
  statement : StatementId
  number : Nat
  transaction : Transaction
deriving Repr, DecidableEq

/-- The position of the first transaction on a statement. -/
def firstNumber : Nat := 1

/-- What a successful run answers. -/
structure Receipt where
  statement : StatementId
  /-- How many transactions were relocated. -/
  archived : Nat
deriving Repr, DecidableEq

end ChainArchive
