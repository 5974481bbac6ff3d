import ChainArchive.Attempt
import ChainArchive.Files
import ChainArchive.Json.Reader
import ChainArchive.Text.Quoted

/-!
# Seed files

A seed file holds the live records that a store begins with, as a JSON list of
transactions.
-/

namespace ChainArchive
set_option autoImplicit false

/-- Why there is no seed. -/
inductive SeedError
  /-- The file cannot be read. -/
  | unreadable (path reason : String)
  /-- The file is no list of transactions. -/
  | malformed (path : String) (fault : Json.Fault)
deriving DecidableEq

namespace SeedError

/-- What lies behind a missing seed. -/
def reason : SeedError → String
  | .unreadable _ reason => reason
  | .malformed _ fault => fault.message

/-- The text shown for a missing seed. -/
def message : SeedError → String
  | .unreadable path reason => s!"Failed to read seed file {Quoted.display path}: {reason}"
  | .malformed path fault => s!"Malformed seed file {Quoted.display path}: {fault.message}"

end SeedError

/-- Loads the transactions that a seed file lists. -/
def loadSeed (files : Files) (path : String) : Attempt SeedError (List Transaction) := do
  let content ← Attempt.of ((files path).mapError (.unreadable path))
  let transactions ← Attempt.of ((Transaction.listOfJson content).mapError (.malformed path))
  Attempt.say [.seedLoaded (Quoted.display path) transactions.length]
  return transactions

end ChainArchive
