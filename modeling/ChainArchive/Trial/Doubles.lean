import ChainArchive.Failure

/-!
# Scripted transforms and stores

In trials the compressor, the signer and the delays of the store follow rules.
The first rule that fits a payload or an id says how long it takes and what
comes of it.
-/

namespace ChainArchive.Trial
set_option autoImplicit false

/-- What comes of a scripted transform. -/
inductive TransformEnd
  /-- The input with a tag in front. -/
  | tagged
  | output (octets : Bytes)
  | fail (message : String)
  /-- A timeout of its own, by default of the length that it was given. -/
  | timeout (millis : Option Nat)
  | stall
  | panic
deriving DecidableEq

/-- What happens to a payload, or to all. -/
structure TransformRule where
  payload : Option Bytes := none
  delay : Option Nat := none
  ending : TransformEnd := .tagged

/-- A scripted transform. -/
structure ScriptedTransform where
  tag : Bytes
  defaultDelay : Nat
  rules : List TransformRule

namespace ScriptedTransform

/-- A scripted compressor. -/
def compressor (rules : List TransformRule) : ScriptedTransform := ⟨Bytes.ofText "deflate:", 3, rules⟩

/-- A scripted signer. -/
def signer (rules : List TransformRule) : ScriptedTransform := ⟨Bytes.ofText "sig:", 2, rules⟩

/-- How long the transform of a payload takes and what comes of it. -/
def react (s : ScriptedTransform) (payload : Bytes) : Nat × TransformEnd :=
  match s.rules.find? fun r => r.payload.all (· == payload) with
  | some r => (r.delay.getD s.defaultDelay, r.ending)
  | none => (s.defaultDelay, .tagged)

end ScriptedTransform

/-- What comes of a scripted access to the store. -/
inductive StoreEnd
  /-- The store is asked. -/
  | pass
  | fail (cause : StoreError)
  | stall
  | panic
deriving DecidableEq

/-- What happens to an id, or to all. -/
structure StoreRule where
  id : Option String := none
  delay : Option Nat := none
  ending : StoreEnd := .pass

/-- The scripted delays of a store. -/
structure ScriptedStore where
  find : List StoreRule := []
  relocate : List StoreRule := []

namespace ScriptedStore

/-- The first rule for an id, with a default for its delay. -/
def react (rules : List StoreRule) (defaultDelay : Nat) (id : TransactionId) : Nat × StoreEnd :=
  match rules.find? fun r => r.id.all (· == id.text) with
  | some r => (r.delay.getD defaultDelay, r.ending)
  | none => (defaultDelay, .pass)

/-- How long a lookup takes and what comes of it. -/
def reactFind (s : ScriptedStore) (id : TransactionId) : Nat × StoreEnd := react s.find 10 id

/-- How long a relocation takes and what comes of it. -/
def reactRelocate (s : ScriptedStore) (id : TransactionId) : Nat × StoreEnd := react s.relocate 1 id

end ScriptedStore
end ChainArchive.Trial
