import ChainArchive.Proofs.Pipeline.Drain
import ChainArchive.Proofs.Run.Itinerary
import ChainArchive.Proofs.StatementId
import ChainArchive.Proofs.World.Transforms

/-!
# What a run logs

Of all that a run logs, two kinds of events are about the archive: one tells that
a record was relocated, one that the statement is complete. The first is logged in
the step in which the store takes the record and the item is done with it, the
second when the run answers its receipt. No other step logs either of them.
-/

namespace ChainArchive
set_option autoImplicit false

open Archiver (Work Effect Signal)

/-! ## Reading a log -/

/-- The text of a statement id tells which id it is. -/
theorem StatementId.text_injective : Function.Injective StatementId.text := by
  intro a b same
  have read := read_text a
  rw [same, read_text b] at read
  exact (Except.ok.inj read).symm

namespace Event

/-- The event names this statement. -/
def names (statement : StatementId) (e : Event) : Bool := e.fields.contains ("statement_id", statement.text)

/-- The event tells that a record of this statement was relocated. -/
def tellsRelocation (statement : StatementId) (e : Event) : Bool :=
  e.message == "Transaction relocated to archive" && e.names statement

/-- The event tells that this statement is complete. -/
def tellsSuccess (statement : StatementId) (e : Event) : Bool :=
  e.message == "Statement generated" && e.names statement

/-- The event tells neither of any statement. -/
def isPlain : Event → Bool
  | .relocated .. | .statementGenerated .. | .answered .. => false
  | _ => true

variable {statement other : StatementId} {id : TransactionId} {number archived enqueued peak : Nat} {e : Event}
  {said : List Event}

theorem names_relocated : (relocated other id number).names statement = decide (other = statement) := by
  simp [names, fields, StatementId.text_injective.eq_iff, eq_comm]

theorem names_statementGenerated :
    (statementGenerated other archived enqueued peak).names statement = decide (other = statement) := by
  simp [names, fields, StatementId.text_injective.eq_iff, eq_comm]

@[simp] theorem tellsRelocation_relocated :
    (relocated other id number).tellsRelocation statement = decide (other = statement) := by
  simp [tellsRelocation, message, names_relocated]

@[simp] theorem tellsSuccess_relocated : (relocated other id number).tellsSuccess statement = false := by
  simp [tellsSuccess, message]

@[simp] theorem tellsSuccess_statementGenerated :
    (statementGenerated other archived enqueued peak).tellsSuccess statement = decide (other = statement) := by
  simp [tellsSuccess, message, names_statementGenerated]

@[simp] theorem tellsRelocation_statementGenerated :
    (statementGenerated other archived enqueued peak).tellsRelocation statement = false := by
  simp [tellsRelocation, message]

theorem tells_of_isPlain (plain : e.isPlain = true) :
    e.tellsRelocation statement = false ∧ e.tellsSuccess statement = false := by
  cases e <;> simp_all [isPlain, tellsRelocation, tellsSuccess, message]

/-- Nothing that is plain is found in a log. -/
theorem filter_of_plain (plain : said.all isPlain = true) :
    said.filter (tellsRelocation statement) = [] ∧ said.filter (tellsSuccess statement) = [] := by
  have each := List.all_eq_true.1 plain
  constructor
  · exact List.filter_eq_nil_iff.2 fun e member => by simp [tells_of_isPlain (each e member)]
  · exact List.filter_eq_nil_iff.2 fun e member => by simp [tells_of_isPlain (each e member)]

end Event

/-! ## The log of a pipeline -/

namespace Pipeline

variable {σ : Type} {p q : Pipeline σ} {fresh : ArchivalRequest → σ} {action : Action σ}

theorem log_discardQueue (p : Pipeline σ) : p.discardQueue.log = p.log := by
  have all (queue : List Nat) (p : Pipeline σ) :
      (queue.foldl (fun p i => p.setPhase i (.ended .discarded)) p).log = p.log := by
    induction queue generalizing p with
    | nil => rfl
    | cons i queue ih => exact ih _
  exact all p.queue p

/-- A pipeline says nothing of the archive. -/
theorem log_of_moves (moves : Moves fresh p action q) :
    ∃ said, q.log = p.log ++ said ∧ said.all Event.isPlain = true := by
  have silent (same : q.log = p.log) : ∃ said, q.log = p.log ++ said ∧ said.all Event.isPlain = true :=
    ⟨[], by rw [same, List.append_nil], rfl⟩
  cases moves with
  | refuseGranted | withdrawGranted | withdrawHolding | freeTask | freeCall => exact silent (log_release _).1
  | dropHandle =>
    apply silent
    unfold dropHandle
    split <;> rfl
  | @join _ _ ending => cases ending <;> exact silent rfl
  | spawn =>
    simp only [spawn]
    split
    · exact ⟨_, rfl, rfl⟩
    · exact ⟨[], (List.append_nil _).symm, rfl⟩
  | fail => exact ⟨_, rfl, rfl⟩
  | abandon => exact silent (log_discardQueue p)
  | _ => exact silent rfl

end Pipeline

/-! ## The log of the work on an item -/

namespace Archiver

variable {store after : Store} {now : Nat} {raised gated : Bool} {request : ArchivalRequest} {work : Work}
  {effect : Effect}

/-- What comes from outside does not make the work done, and nothing of note is said. -/
theorem log_of_receive {settings : GenerationSettings} {s : Signal}
    (h : receive settings request work s = some effect) :
    effect.log.all Event.isPlain = true ∧ effect.next.ending? ≠ some .done := by
  cases s with
  | answer stage result =>
    simp only [receive, answer] at h
    split at h
    · split at h <;> cases h <;> exact ⟨rfl, fun done => by cases done⟩
    · cases h
  | proceed | refuse =>
    simp only [receive] at h
    split at h <;> cases h
    exact ⟨rfl, fun done => by cases done⟩
  | expire | crash | cancel =>
    simp only [receive, Option.ite_none_right_eq_some, Option.some.injEq] at h
    obtain ⟨-, rfl⟩ := h
    exact ⟨rfl, fun done => by cases done⟩

/-- The work goes on without the store and says nothing of note, or the store takes its record, which it says, and it
is done. -/
theorem log_of_advance (h : advance store now raised gated request work = some (after, effect)) :
    (after = store ∧ effect.log.all Event.isPlain = true ∧ effect.next.ending? ≠ some .done) ∨
      ∃ start asked record, work = .storing start asked record true ∧
        store.relocate record request.transaction.id = .ok after ∧
        effect = ⟨.ended .done, [.relocated request.statement request.transaction.id request.number]⟩ := by
  unfold advance at h
  split at h
  · cases h
    exact .inl ⟨rfl, rfl, fun done => by cases done⟩
  · cases h
    unfold submit
    split <;> exact .inl ⟨rfl, rfl, fun done => by cases done⟩
  · next start asked record =>
    simp only [relocate, Option.some.injEq] at h
    split at h <;> cases h
    · next taken => exact .inr ⟨start, asked, record, rfl, taken, rfl⟩
    · exact .inl ⟨rfl, rfl, fun done => by cases done⟩
  · cases h

end Archiver

/-! ## The log of a run -/

namespace Run

variable {outputs : Transforms} {store after : Store} {now : Nat} {gated : Bool} {r r' : Run} {i : Nat}
  {said noted : List Event}

/-- What a run that ended well has counted: the items that its pipeline completed, and the ids that its walker went
to. -/
def tally? (r : Run) : Option (Nat × Nat) :=
  match r.walker with
  | .finished (.ok receipt) => some (receipt.archived, r.visited.length)
  | _ => none

/-- A step that says this, all of it plain, and after which no other items are done than before. -/
structure Aside (r : Run) (said : List Event) (r' : Run) : Prop where
  statement : r'.statement = r.statement
  tally : r'.tally? = r.tally?
  done : ∀ i, r'.ending? i = some .done ↔ r.ending? i = some .done
  added : r'.events.Perm (r.events ++ said)
  plain : said.all Event.isPlain = true

/-- What a step of a run says, and what it makes of the store. -/
inductive Tells (store : Store) (r : Run) : List Event → Store → Run → Prop
  /-- It says plain things only. -/
  | aside {said : List Event} {r' : Run} : r.Aside said r' → Tells store r said store r'
  /-- It says that the store has taken the record of an item, which is done. -/
  | relocation {i n : Nat} {request : ArchivalRequest} {work : Work} {record : ArchivedTransaction} {after : Store} :
      r.work? i = some (request, work) → record.statement = request.statement →
      record.id = request.transaction.id → record.number = request.number →
      store.relocate record request.transaction.id = .ok after →
      Tells store r [.relocated request.statement request.transaction.id request.number] after
        ({ r with relocations := n }.apply i
          ⟨.ended .done, [.relocated request.statement request.transaction.id request.number]⟩)
  /-- It says that the statement is complete, and the run answers. -/
  | success {archived : Nat} : r.tally? = none →
      Tells store r [.statementGenerated r.statement archived r.visited.length r.pipeline.peak] store
        (r.finish (.ok archived))

/-- What the walker or an item says, and what the pipeline says, is added to the log. -/
theorem events_perm (logs : r'.log = r.log ++ said) (logs' : r'.pipeline.log = r.pipeline.log ++ noted) :
    r'.events.Perm (r.events ++ (said ++ noted)) := by
  refine List.perm_iff_count.2 fun e => ?_
  simp only [events, logs, logs', List.count_append]
  omega

/-- The same, where the pipeline says nothing. -/
theorem events_perm_of_log (logs : r'.log = r.log ++ said) (silent : r'.pipeline.log = r.pipeline.log) :
    r'.events.Perm (r.events ++ said) := by
  have nothing : r'.pipeline.log = r.pipeline.log ++ [] := by rw [silent, List.append_nil]
  have added := events_perm logs nothing
  rwa [List.append_nil] at added

theorem events_apply {n : Nat} {effect : Effect} :
    ({ r with relocations := n }.apply i effect).events.Perm (r.events ++ effect.log) := by
  refine events_perm_of_log rfl ?_
  simp only [apply, say]
  cases effect.next <;> rfl

/-- A step of the pipeline in which no work ends leaves those items done that are. -/
theorem done_of_moves {action : Pipeline.Action Work} (sound : r.Sound) (quiet : action.isOfWork = false)
    (moves : Pipeline.Moves (fun _ => .unstarted) r.pipeline action r'.pipeline) (i : Nat) :
    r'.ending? i = some .done ↔ r.ending? i = some .done := by
  rw [ending?_eq_some, ending?_eq_some]
  constructor
  · rintro ⟨item, inside, ended⟩
    obtain ⟨x, before, moved⟩ | ⟨-, -, begins⟩ := Pipeline.origin_of_moves sound.coherent moves inside
    · rcases Pipeline.Phase.finishWork_of_isDone moved (beq_iff_eq.2 ended) with already | ⟨-, finishes⟩
      · exact ⟨_, before, beq_iff_eq.1 already⟩
      · rw [finishes] at quiet
        cases quiet
    · obtain is | is | is := begins <;> simp [is, Pipeline.Phase.ending?] at ended
  · rintro ⟨item, inside, ended⟩
    obtain ⟨x, now, moved⟩ := Pipeline.moved_of_moves sound.coherent moves inside
    exact ⟨_, now, beq_iff_eq.1 (Pipeline.Phase.isDone_of_moved moved (beq_iff_eq.2 ended))⟩

/-- A step of the pipeline in which no work ends, of a run that says plain things itself. -/
theorem aside_of_moves {action : Pipeline.Action Work} (sound : r.Sound) (quiet : action.isOfWork = false)
    (moves : Pipeline.Moves (fun _ => .unstarted) r.pipeline action r'.pipeline)
    (statement : r'.statement = r.statement) (tally : r'.tally? = r.tally?) (logs : r'.log = r.log ++ said)
    (plain : said.all Event.isPlain = true) : ∃ said, r.Aside said r' := by
  obtain ⟨noted, logs', plain'⟩ := Pipeline.log_of_moves moves
  refine ⟨_, statement, tally, done_of_moves sound quiet moves, events_perm logs logs', ?_⟩
  rw [List.all_append, plain, plain']
  rfl

/-- A step that leaves the pipeline alone, of a run that says plain things. -/
theorem aside_of_pipeline (same : r'.pipeline = r.pipeline) (statement : r'.statement = r.statement)
    (tally : r'.tally? = r.tally?) (logs : r'.log = r.log ++ said) (plain : said.all Event.isPlain = true) :
    ∃ said, r.Aside said r' :=
  ⟨said, statement, tally, fun i => by rw [ending?, ending?, same], events_perm_of_log logs (by rw [same]), plain⟩

/-- An effect on the work that does not make it done and says plain things. -/
theorem aside_of_effect {n : Nat} {request : ArchivalRequest} {work : Work} {effect : Effect}
    (busy : r.work? i = some (request, work)) (plain : effect.log.all Event.isPlain = true)
    (undone : effect.next.ending? ≠ some .done) : r.Aside effect.log ({ r with relocations := n }.apply i effect) := by
  refine ⟨rfl, rfl, fun j => ?_, events_apply, plain⟩
  rw [ending?_apply busy]
  split
  · next same =>
    subst same
    have undone' : r.ending? i ≠ some .done := by simp [ending?, phase?_of_work? busy, Pipeline.Phase.ending?]
    exact iff_of_false undone undone'
  · rfl

/-- A run that is under way has not counted yet. -/
theorem tally?_of_running (running : r.isOver = false) : r.tally? = none := by
  unfold tally?
  split
  · simp_all [isOver]
  · rfl

/-- A walker that goes on has not counted yet. -/
theorem Walks.tally?_eq_none (step : Walks store now gated r r') : r.tally? = none := by
  cases step <;> simp only [tally?, *]

/-- A step of the walker says at most one plain thing, or the run answers its receipt. -/
theorem Walks.log (step : Walks store now gated r r') :
    (∃ said, r'.log = r.log ++ said ∧ said.all Event.isPlain = true ∧ r'.tally? = none) ∨
      ∃ archived, r' = r.finish (.ok archived) := by
  cases step with
  | finds => exact .inl ⟨_, rfl, rfl, rfl⟩
  | @ends outcome result =>
    cases outcome.result result with
    | error cause => exact .inl ⟨_, rfl, rfl, rfl⟩
    | ok archived => exact .inr ⟨archived, rfl⟩
  | _ => exact .inl ⟨[], (List.append_nil _).symm, rfl, rfl⟩

theorem Walks.tells (step : Walks store now gated r r') (sound : r.Sound) : ∃ said, r.Tells store said store r' := by
  have before := step.tally?_eq_none
  obtain ⟨said, logs, plain, after⟩ | ⟨archived, rfl⟩ := step.log
  · have tally := after.trans before.symm
    obtain ⟨statement, same | ⟨action, quiet, moves⟩⟩ := step.pipeline sound
    · exact (aside_of_pipeline same statement tally logs plain).imp fun _ => .aside
    · exact (aside_of_moves sound quiet moves statement tally logs plain).imp fun _ => .aside
  · exact ⟨_, .success before⟩

end Run

namespace World

variable {outputs : Transforms} {w : World} {action : Action} {k : Nat} {r r' : Run} {after : Store}

/-- Every step of a run says what it does to the archive. -/
theorem Does.tells (does : w.Does k r action after r') (sound : r.Sound) (faithful : r.Faithful outputs) :
    ∃ said, r.Tells w.store said after r' := by
  -- the run itself says nothing
  have inner {b : Pipeline.Action Work} {pipeline : Pipeline Work} (quiet : b.isOfWork = false)
      (moves : Pipeline.Moves (fun _ => Work.unstarted) r.pipeline b pipeline) :
      ∃ said, r.Tells w.store said w.store { r with pipeline } := by
    have aside : ∃ said, r.Aside said { r with pipeline } :=
      Run.aside_of_moves sound quiet moves rfl rfl (List.append_nil _).symm rfl
    exact aside.imp fun _ => .aside
  have walker (statement : r'.statement = r.statement) (same : r'.pipeline = r.pipeline) (tally : r'.tally? = r.tally?)
      (silent : r'.log = r.log) : ∃ said, r.Tells w.store said w.store r' :=
    (Run.aside_of_pipeline same statement tally (silent.trans (List.append_nil _).symm) rfl).imp fun _ => .aside
  cases does with
  | walks step => exact step.tells sound
  | drives _ own moves =>
    refine inner ?_ moves
    rcases own with rfl | rfl | rfl <;> rfl
  | works step =>
    cases step with
    | unwinds unwound => exact inner rfl (Pipeline.moves_of_unwind unwound)
    | goesOn busy advanced =>
      obtain ⟨rfl, plain, undone⟩ | ⟨start, asked, record, rfl, taken, rfl⟩ := Archiver.log_of_advance advanced
      · exact ⟨_, .aside (Run.aside_of_effect busy plain undone)⟩
      · have isRecord : RecordOf outputs _ record := faithful _ _ _ busy
        exact ⟨_, .relocation busy isRecord.statement isRecord.id isRecord.number taken⟩
  | hears busy received =>
    obtain ⟨plain, undone⟩ := Archiver.log_of_receive received
    exact ⟨_, .aside (Run.aside_of_effect (n := r.relocations) busy plain undone)⟩
  | proceeds place | refuses place => exact walker rfl rfl (by simp only [Run.tally?, place]; rfl) rfl
  | drops running => exact walker rfl rfl (Run.tally?_of_running running).symm rfl

end World
end ChainArchive
