import ChainArchive.Store

/-!
# Calls of a store

A store is called from many sides, but one call has it at a time. A call works on
the tables in place, one after the other, and nothing is put back when it fails.
-/

namespace ChainArchive.Store
set_option autoImplicit false

/-- Works on the tables in place, and ends with a result or a failure. -/
abbrev Access (α : Type) := ExceptT StoreError (StateM Store) α

/-- The result, and the tables as they are left behind. -/
def Access.on {α : Type} (access : Access α) (s : Store) : Except StoreError α × Store := access.run.run s

/-- Looks a live record up. -/
def findById (id : TransactionId) : Access Transaction := do
  match (← get).find? id with
  | some t => return t
  | none => throw (.notFound id)

/-- Takes the live record out and puts the archived one in, unless there is an obstacle. -/
def move (record : ArchivedTransaction) (original : TransactionId) : Access Unit := do
  match (← get).obstacle? record original with
  | some reason => throw (.relocationFailed original reason)
  | none =>
    modify fun s => { s with live := s.live.filter (·.1 != original) }
    modify fun s => { s with archive := s.archive ++ [record] }

/-- What a store can be asked for. -/
inductive Call
  | insert (t : Transaction)
  | find (id : TransactionId)
  | relocate (record : ArchivedTransaction) (original : TransactionId)
  /-- From now on every relocation of the id fails. -/
  | obstruct (id : TransactionId)

/-- What a call is answered with: a failure, or the record that a lookup has found. -/
abbrev Answer := Except StoreError (Option Transaction)

/-- What a call does. -/
def perform : Call → Access (Option Transaction)
  | .insert t => do
    modify (·.insert t)
    return none
  | .find id => do return some (← findById id)
  | .relocate record original => do
    move record original
    return none
  | .obstruct id => do
    modify (·.failRelocationOf id)
    return none

/-- The first store answers the call so, and the second is left behind. -/
def Answers (s : Store) (entry : Call × Answer) (t : Store) : Prop := (perform entry.1).on s = (entry.2, t)

end ChainArchive.Store
