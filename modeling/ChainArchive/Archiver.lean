import ChainArchive.Pipeline
import ChainArchive.Store

/-!
# The archiver

The work on one item. The payload is compressed and signed, both at the same
time and each under its own timeout. When both are done the abort flag is
looked at, and unless it is raised the record is relocated. The item as a whole
is bounded by a timeout too.

The work waits at two places: for its transforms, and for a store that does not
answer at once. There it can be timed out or cancelled; between them it runs
through.
-/

namespace ChainArchive.Archiver
set_option autoImplicit false

open Pipeline (Ending)

/-- How far the work on an item is. -/
inductive Work
  /-- It has not begun. -/
  | unstarted
  /-- It began at `start` and waits for the transforms that have no result yet. -/
  | transforming (start : Nat) (compressed signature : Option Bytes)
  /-- The record was handed to the store, which has been told to answer or not. -/
  | storing (start asked : Nat) (record : ArchivedTransaction) (answering : Bool)
deriving Repr, DecidableEq

/-- What the work is to be, or how it has ended. -/
inductive Next
  | working (work : Work)
  | ended (ending : Ending)

/-- What a step of the work brings about. -/
structure Effect where
  next : Next
  log : List Event := []

/-- The step hands a record to the store. -/
def Effect.submits (e : Effect) : Bool :=
  match e.next with
  | .working (.storing ..) => true
  | _ => false

/-- The work fails. -/
def Effect.fail (cause : GenerationError) (log : List Event := []) : Effect := ⟨.ended (.failed cause), log⟩

/-- The record that an item becomes. -/
def recordOf (request : ArchivalRequest) (compressed signature : Bytes) : ArchivedTransaction :=
  { statement := request.statement, id := request.transaction.id, number := request.number, compressed, signature }

/-- What a transform is asked to work on. The signature is that of the payload as it was, not of the compressed one. -/
def input (request : ArchivalRequest) : TransformStage → Bytes
  | .compress => request.transaction.payload
  | .sign => request.transaction.payload

/-- The work begins: both transforms are asked for. -/
def begin (now : Nat) (request : ArchivalRequest) : Effect :=
  let t := request.transaction
  ⟨.working (.transforming now none none), [.archivingStarted request.statement t.id request.number t.payload.length]⟩

/-- Both transforms are done: the record goes to the store, unless the flag is raised. A gated store does not answer at
once. -/
def submit (now : Nat) (raised gated : Bool) (request : ArchivalRequest) (start : Nat) (compressed signature : Bytes) :
    Effect :=
  if raised then .fail .aborted [.relocationSkipped request.transaction.id]
  else ⟨.working (.storing start now (recordOf request compressed signature) !gated), []⟩

/-- What the store's refusal means. -/
def refused (request : ArchivalRequest) (cause : StoreError) : Effect :=
  let id := request.transaction.id
  .fail (.storageFailure id cause.message) [.relocationFailed request.statement id request.number cause]

/-- The store relocates the record, or refuses. -/
def relocate (store : Store) (request : ArchivalRequest) (record : ArchivedTransaction) : Store × Effect :=
  let id := request.transaction.id
  match store.relocate record id with
  | .ok store => (store, ⟨.ended .done, [.relocated request.statement id request.number]⟩)
  | .error cause => (store, refused request cause)

/-- The work goes on by itself, unless it waits. -/
def advance (store : Store) (now : Nat) (raised gated : Bool) (request : ArchivalRequest) :
    Work → Option (Store × Effect)
  | .unstarted => some (store, begin now request)
  | .transforming start (some compressed) (some signature) =>
    some (store, submit now raised gated request start compressed signature)
  | .storing _ _ record true => some (relocate store request record)
  | _ => none

/-! ## What comes from outside -/

/-- The timeout of a transform. -/
def stageTimeout (settings : GenerationSettings) : TransformStage → Span
  | .compress => settings.compressTimeout
  | .sign => settings.signTimeout

/-- What a transform that did not end in time answers. -/
def overdue (settings : GenerationSettings) (stage : TransformStage) : Except TransformError Bytes :=
  .error (.timeout (stageTimeout settings stage).millisWord)

/-- The work waits for something. -/
def Work.isWaiting : Work → Bool
  | .unstarted => false
  | .transforming _ compressed signature => compressed.isNone || signature.isNone
  | .storing _ _ _ answering => !answering

/-- The work can be stopped: before it begins, where it waits, and before it looks at results that have come. -/
def Work.isSuspended : Work → Bool
  | .unstarted | .transforming .. => true
  | .storing _ _ _ answering => !answering

/-- What comes to the work from outside. -/
inductive Signal
  /-- A transform has ended, by itself or by its timeout. -/
  | answer (stage : TransformStage) (result : Except TransformError Bytes)
  /-- The item's own timeout is over. -/
  | expire
  /-- A gated store answers, -/
  | proceed
  /-- or fails. -/
  | refuse (cause : StoreError)
  /-- What the work waits for panics. -/
  | crash
  /-- The task is stopped. -/
  | cancel

/-- A transform has ended. -/
def answer (request : ArchivalRequest) (stage : TransformStage) (result : Except TransformError Bytes) :
    Work → Option Effect
  | .transforming start compressed signature =>
    let id := request.transaction.id
    let pending := match stage with
      | .compress => compressed.isNone
      | .sign => signature.isNone
    match pending, result, stage with
    | false, _, _ => none
    | true, .error cause, stage => some (.fail (.ofTransform id stage cause) [.transformFailed id stage cause])
    | true, .ok octets, .compress => some ⟨.working (.transforming start (some octets) signature), []⟩
    | true, .ok octets, .sign => some ⟨.working (.transforming start compressed (some octets)), []⟩
  | _ => none

/-- The work receives a signal, if it can. -/
def receive (settings : GenerationSettings) (request : ArchivalRequest) (work : Work) : Signal → Option Effect
  | .answer stage result => answer request stage result work
  | .expire =>
    let id := request.transaction.id
    if work.isWaiting then
      some (.fail (.itemTimeout id settings.itemTimeout.millisWord) [.itemTimedOut id settings.itemTimeout])
    else none
  | .proceed =>
    match work with
    | .storing start asked record false => some ⟨.working (.storing start asked record true), []⟩
    | _ => none
  | .refuse cause =>
    match work with
    | .storing _ _ _ false => some (refused request cause)
    | _ => none
  | .crash => if work.isWaiting then some ⟨.ended .panicked, []⟩ else none
  | .cancel => if work.isSuspended then some ⟨.ended .cancelled, []⟩ else none

end ChainArchive.Archiver
