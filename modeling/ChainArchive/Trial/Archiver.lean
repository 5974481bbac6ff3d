import ChainArchive.Trial.Agenda

/-!
# Archiver trials

The work on a single item under a virtual clock, with an abort flag that is
raised before the start, at some moment, or never.
-/

namespace ChainArchive.Trial
set_option autoImplicit false

open Archiver (Work Effect Next)

/-- An archiver trial under way. -/
structure ArchiverTrial where
  settings : GenerationSettings
  scripts : Scripts
  request : ArchivalRequest
  /-- The item's own timeout applies. -/
  bounded : Bool
  /-- When the flag is raised. -/
  raiseAt : Option Nat
  store : Store
  now : Nat := 0
  next : Next := .working .unstarted
  relocations : Nat := 0
  log : List Event := []

namespace ArchiverTrial

/-- The flag is raised by now. -/
def raised (t : ArchiverTrial) : Bool := t.raiseAt.any (· ≤ t.now)

/-- A step of the work takes effect. -/
def apply (t : ArchiverTrial) (effect : Effect) : ArchiverTrial :=
  { t with next := effect.next, log := t.log ++ effect.log }

/-- What comes next to work that waits. -/
def wake (t : ArchiverTrial) (work : Work) : Option ArchiverTrial := do
  let due ← Due.first (t.scripts.itemDues t.settings t.bounded t.request work)
  let effect ← Archiver.receive t.settings t.request work due.what
  return { t with now := max t.now due.time }.apply effect

/-- The next step of the work. -/
def advance (t : ArchiverTrial) : Option ArchiverTrial :=
  match t.next with
  | .ended _ => none
  | .working work =>
    match Archiver.advance t.store t.now t.raised true t.request work with
    | some (store, effect) =>
      some ({ t with store, relocations := if effect.submits then t.relocations + 1 else t.relocations }.apply effect)
    | none => t.wake work

/-- The work from its begin to its end: it begins, both transforms end, the record is handed to the store, the store
answers, and the record is relocated. -/
def run (t : ArchiverTrial) : ArchiverTrial := settle advance 6 t

/-- The work was begun, so that both transforms were asked for. -/
def begun (t : ArchiverTrial) : Bool :=
  match t.next with
  | .working .unstarted => false
  | _ => true

/-- The result of the work. -/
def result (t : ArchiverTrial) : Except GenerationError Unit :=
  match t.next with
  | .ended .done => .ok ()
  | .ended (.failed cause) => .error cause
  | _ => .error (.internal "task panicked")

/-- The flag belongs to a pipeline of its own, which was given the same item. -/
def events (t : ArchiverTrial) : List Event :=
  .itemAdmitted t.request.transaction.id t.request.number ::
    (if t.raised then [.pipelineFailed .aborted 0] else []) ++ t.log

end ArchiverTrial
end ChainArchive.Trial
