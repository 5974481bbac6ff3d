import ChainArchive.Event

/-!
# The store

Live records under their ids, and the archive as a list that only grows at its
end. A relocation takes one live record out and puts one archived record in;
both happen or neither does.
-/

namespace ChainArchive
set_option autoImplicit false

/-- The two tables, the ids whose relocation is made to fail, and how many connections the store serves at once. -/
structure Store where
  live : List (TransactionId × Transaction) := []
  archive : List ArchivedTransaction := []
  failing : List TransactionId := []
  capacity : Nat := 10
deriving Repr, DecidableEq, Inhabited

namespace Store

/-- The live record of an id. -/
def find? (s : Store) (id : TransactionId) : Option Transaction := s.live.lookup id

/-- The id has a live record. -/
def isLive (s : Store) (id : TransactionId) : Bool := (s.find? id).isSome

/-- Inserts a live record, or replaces the one with its id. -/
def insert (s : Store) (t : Transaction) : Store :=
  { s with live := s.live.filter (·.1 != t.id) ++ [(t.id, t)] }

/-- A store that serves so many connections, with live records; of those with the same id the last one counts. -/
def ofList (capacity : Nat) (transactions : List Transaction) : Store := transactions.foldl insert { capacity }

/-- Makes every later relocation of an id fail. -/
def failRelocationOf (s : Store) (id : TransactionId) : Store := { s with failing := id :: s.failing }

/-- Looks a live record up. -/
def lookup (s : Store) (id : TransactionId) : Except StoreError Transaction :=
  match s.find? id with
  | some t => .ok t
  | none => .error (.notFound id)

/-- The statement holds a record of this id. -/
def isArchived (s : Store) (statement : StatementId) (id : TransactionId) : Bool :=
  s.archive.any fun r => r.statement == statement && r.id == id

/-- Why a relocation would be rolled back, if it would. -/
def obstacle? (s : Store) (record : ArchivedTransaction) (original : TransactionId) : Option String :=
  if s.failing.contains original then some "injected relocation failure"
  else if !s.isLive original then some "live record missing"
  else if s.isArchived record.statement record.id then some "archive key already present"
  else none

/-- Moves a record from the live table to the archive in one step. -/
def relocate (s : Store) (record : ArchivedTransaction) (original : TransactionId) : Except StoreError Store :=
  match s.obstacle? record original with
  | some reason => .error (.relocationFailed original reason)
  | none => .ok { s with live := s.live.filter (·.1 != original), archive := s.archive ++ [record] }

/-- The records of one statement, in the order in which they were archived. -/
def archivedFor (s : Store) (statement : StatementId) : List ArchivedTransaction :=
  s.archive.filter (·.statement == statement)

/-- The ids with a live record. -/
def liveIds (s : Store) : List TransactionId := s.live.map (·.1)

end Store
end ChainArchive
