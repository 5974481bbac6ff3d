import ChainArchive.Trial.Clock
import ChainArchive.Trial.Doubles
import ChainArchive.World

/-!
# What is due

When the work on an item waits, rules and timeouts say what will come to it and
when. Of what comes at the same moment, an answer goes before the timeout of a
transform, and that before the timeout of the item.
-/

namespace ChainArchive.Trial
set_option autoImplicit false

open Archiver (Work)

/-- Something that comes at a moment, and its rank among what comes at that moment. -/
structure Due (α : Type) where
  time : Nat
  rank : Nat
  what : α

/-- The first of those that come earliest, the lower rank first. -/
def Due.first {α : Type} : List (Due α) → Option (Due α)
  | [] => none
  | a :: rest =>
    match first rest with
    | none => some a
    | some b => if a.time < b.time || (a.time == b.time && a.rank ≤ b.rank) then some a else some b

/-- The scripts that the items of a trial meet. -/
structure Scripts where
  compressor : ScriptedTransform
  signer : ScriptedTransform
  store : ScriptedStore

namespace Scripts

/-- The scripted transform of a stage. -/
def transform (s : Scripts) : TransformStage → ScriptedTransform
  | .compress => s.compressor
  | .sign => s.signer

/-- What a transform answers that ends so. -/
def signalOf (tag payload : Bytes) (stage : TransformStage) (timeout : Span) : TransformEnd → Option Archiver.Signal
  | .tagged => some (.answer stage (.ok (tag ++ payload)))
  | .output octets => some (.answer stage (.ok octets))
  | .fail message => some (.answer stage (.error (.failed message)))
  | .timeout millis => some (.answer stage (.error (.timeout (millis.getD timeout.millisWord))))
  | .panic => some .crash
  | .stall => none

/-- What comes of a transform that began at a moment: its answer, or its timeout if that is earlier. -/
def transformDue (s : Scripts) (settings : GenerationSettings) (payload : Bytes) (start : Nat)
    (stage : TransformStage) : Due Archiver.Signal :=
  let double := s.transform stage
  let timeout := Archiver.stageTimeout settings stage
  let (delay, ending) := double.react payload
  let overdue : Due Archiver.Signal := ⟨start + timeout.ticks, 1, .answer stage (Archiver.overdue settings stage)⟩
  match signalOf double.tag payload stage timeout ending with
  | some signal => if delay ≤ timeout.ticks then ⟨start + delay, 0, signal⟩ else overdue
  | none => overdue

/-- What will come to the work on an item, if it is bounded by the timeout of the item or not. -/
def itemDues (s : Scripts) (settings : GenerationSettings) (bounded : Bool) (request : ArchivalRequest) :
    Work → List (Due Archiver.Signal)
  | .unstarted => []
  | .transforming start compressed signature =>
    let due := s.transformDue settings request.transaction.payload start
    (if compressed.isNone then [due .compress] else []) ++ (if signature.isNone then [due .sign] else []) ++
      (if bounded then [⟨start + settings.itemTimeout.ticks, 2, .expire⟩] else [])
  | .storing _ _ _ true => []
  | .storing start asked _ false =>
    let (delay, ending) := s.store.reactRelocate request.transaction.id
    let signal : List Archiver.Signal := match ending with
      | .pass => [.proceed]
      | .fail cause => [.refuse cause]
      | .panic => [.crash]
      | .stall => []
    signal.map (fun signal => ⟨asked + delay, 0, signal⟩) ++
      (if bounded then [⟨start + settings.itemTimeout.ticks, 2, .expire⟩] else [])

/-- What will come to a walker that waits for the store. -/
def lookupDue (s : Scripts) : Walker → Option (Due (Option StoreError))
  | .finding current asked false =>
    let (delay, ending) := s.store.reactFind current
    match ending with
    | .pass => some ⟨asked + delay, 0, none⟩
    | .fail cause => some ⟨asked + delay, 0, some cause⟩
    | .stall | .panic => none
  | _ => none

end Scripts
end ChainArchive.Trial
