import ChainArchive.Proofs.Pipeline.Announced
import ChainArchive.Proofs.Pipeline.Permits
import ChainArchive.Proofs.World.Turns

/-!
# Places that become free

A task that has failed gives its place back only after it has closed the budget
and raised the flag, and a task is stopped only after both or after the handle is
gone. So nobody gets the place of an item that came to nothing, and nobody who
looks at the flag then goes on. A task that panics is the exception: it gives its
place back while it is torn down, and only the driver, when it joins the task,
tells the others.
-/

namespace ChainArchive
set_option autoImplicit false

namespace Pipeline

variable {σ : Type} {p q : Pipeline σ} {fresh : ArchivalRequest → σ} {action : Action σ} {i : Nat}

/-! ## What is closed when a task is stopped -/

/-- Whoever tells the tasks to stop has raised the flag, and taken care that nothing further is taken. -/
theorem Signals.Next.stopping {s : Signals} (next : Signals.Next p action s) (orderly : Orderly p)
    (announced : Announced p) (cancelled : s.cancelling = true) : p.cancelling = true ∨ p.raised = true ∧ p.Closed := by
  cases next with
  | cancelTasks state =>
    have done : p.signals.driver.measures = 3 := by simp only [signals, state, Driver.measures]
    exact .inr ⟨orderly.signals.raised (by omega), .inr (orderly.signals.shut (by omega))⟩
  | abandon told => exact .inr ⟨announced.abandoned told, .inl (orderly.signals.left told)⟩
  | _ => exact .inl cancelled

/-- Tasks have been told to stop only if the flag is raised and nothing further is taken. -/
def StopsLast (p : Pipeline σ) : Prop := p.cancelling = true → p.raised = true ∧ p.Closed

theorem StopsLast.step (h : StopsLast p) (orderly : Orderly p) (announced : Announced p) (moves : Moves fresh p action q) :
    StopsLast q := by
  intro told
  have later := later_of_moves moves
  obtain ⟨raised, closed⟩ := ((signals_of_moves moves).stopping orderly announced told).elim h id
  exact ⟨later.raised raised, closed.moves moves⟩

/-- What the order of the announcements rests on, in every state that a pipeline can reach. -/
theorem announced_reachable {parallelism : Nat} {p₀ : Pipeline σ} (started : start parallelism = .ok p₀)
    (reach : Reachable (Steps (step fresh)) p₀ p) : Coherent p ∧ Orderly p ∧ Announced p ∧ StopsLast p := by
  have fresh : StopsLast p₀ := by
    unfold Pipeline.start at started
    split at started <;> cases started
    exact nofun
  refine reach.invariant (P := fun p => Coherent p ∧ Orderly p ∧ Announced p ∧ StopsLast p)
    ⟨.start started, .start started, .start started, fresh⟩ ?_
  rintro p action q ⟨coherent, orderly, announced, last⟩ step
  have moves := moves_of_step step
  exact ⟨coherent.step moves, orderly.step coherent moves, announced.step moves, last.step orderly announced moves⟩

/-! ## A run that has been stopped -/

/-- `q` is what has become of `p`, whose budget was closed and whose flag was raised. -/
structure Stopped (p q : Pipeline σ) : Prop where
  closed : q.budgetClosed = true
  raised : q.raised = true
  /-- Who had no permit gets none, -/
  denied : ∀ j, (∀ x, p.phase? j = some x → x = .waiting ∨ x = .granted) →
    ∀ x, q.phase? j = some x → x.isDenied = true

namespace Stopped

theorem refl (closed : p.budgetClosed = true) (raised : p.raised = true) : Stopped p p := by
  refine ⟨closed, raised, fun j waits x found => ?_⟩
  obtain rfl | rfl := waits x found <;> rfl

theorem step {r : Pipeline σ} (h : Stopped p q) (coherent : Coherent q) (moves : Moves fresh q action r) : Stopped p r := by
  have later := later_of_moves moves
  exact ⟨later.budget h.closed, later.raised h.raised,
    fun j waits _ found => isDenied_of_moves coherent h.closed moves (h.denied j waits) found⟩

end Stopped

/-- Where nothing further is taken, a call is refused at once. -/
theorem Closed.refuses (h : p.Closed) (request : ArchivalRequest) :
    (p.call request).accepted? p.items.length = some false := by
  have closed : (!p.inputOpen || p.budgetClosed) = true := by
    rcases h with input | budget
    · simp [input]
    · simp [budget]
  simp [call, closed, accepted?, phase?]

/-- An item that has failed and is not counted any more has announced its failure. -/
theorem Phase.hasFlagged_of_failed {x : Phase σ} {cause : GenerationError} (failed : x.ending? = some (.failed cause))
    (out : x.isCounted = false) : x.hasFlagged = true := by
  cases x <;> simp_all [Phase.ending?, isCounted, hasFlagged, announced]

/-- By the time an item that has failed is discounted, and so before its permit is back, the budget is closed and the
flag is raised, and so they stay. Whatever happens then, every further call is refused at once, a call that had no permit
gets none and is refused when it goes on, and no work that goes on hands its record to the store. Where a task was
stopped, the flag is raised and nothing further is taken either. A panic is only told by the driver: when it has joined
the task, it has left its loop, and then raises the flag and closes the budget. -/
theorem failure_precedes_release {parallelism : Nat} {p₀ : Pipeline σ} (started : start parallelism = .ok p₀)
    (before : Reachable (Steps (step fresh)) p₀ p) :
    (∀ i x cause, p.phase? i = some x → x.ending? = some (.failed cause) → x.isCounted = false →
      ∀ q, Reachable (Steps (step fresh)) p q → q.budgetClosed = true ∧ q.raised = true ∧
        (∀ request, (q.call request).accepted? q.items.length = some false) ∧
        (∀ j, (∀ y, p.phase? j = some y → y = .waiting ∨ y = .granted) → ∀ y, q.phase? j = some y → y.isDenied = true ∧
          (y = .waiting ∨ y = .granted → ∃ q', q.resume j = some q' ∧ q'.accepted? j = some false)) ∧
        ∀ store now gated request work after effect,
          Archiver.advance store now q.raised gated request work = some (after, effect) → effect.submits = false) ∧
    (∀ i x, p.phase? i = some x → x.ending? = some .cancelled → p.raised = true ∧ p.Closed) ∧
    ∀ i, p.phase? i = some (.over .panicked) → p.driver.isFailing = true ∧
      (1 ≤ p.driver.measures → p.raised = true) ∧ (2 ≤ p.driver.measures → p.budgetClosed = true) := by
  obtain ⟨coherent, orderly, announced, last⟩ := announced_reachable started before
  refine ⟨fun i x cause found failed out q after => ?_, fun i x found ended => last (orderly.cancelled i x found ended),
    fun i found => ⟨?_, orderly.signals.raised, orderly.signals.shut⟩⟩
  · have told : x.announced = 2 := by simpa [Phase.hasFlagged] using Phase.hasFlagged_of_failed failed out
    have stopped : Stopped p q := by
      refine (after.invariant (P := fun q => Coherent q ∧ Stopped p q)
        ⟨coherent, .refl (announced.shut i x found (by omega)) (announced.flagged i x found (by omega))⟩ ?_).2
      rintro q action r ⟨coherent, stopped⟩ step
      have moves := moves_of_step step
      exact ⟨coherent.step moves, stopped.step coherent moves⟩
    refine ⟨stopped.closed, stopped.raised, Closed.refuses (.inr stopped.closed), fun j waits y there =>
      ⟨stopped.denied j waits y there, refused_of_waiting stopped.closed there⟩, ?_⟩
    intro store now gated request work store' effect advanced
    cases next : effect.next with
    | ended => simp [Archiver.Effect.submits, next]
    | working new =>
      cases new with
      | storing =>
        obtain ⟨down, -⟩ := Archiver.storing_of_advance advanced next rfl
        simp [stopped.raised] at down
      | _ => simp [Archiver.Effect.submits, next]
  · by_contra going
    simpa [Phase.isLost] using coherent.nothing_lost (by simpa using going) i _ found

/-- With one permit, the first item fails while the second call waits, and gives its permit back. -/
def failingSteps : List (Action Unit) :=
  exampleSteps ++ [Action.finishWork 0 (.failed (.storageFailure ⟨"failing", by decide⟩ "disk gone"))] ++
    List.replicate 5 (Action.unwind 0)

theorem failure_precedes_release_example : ∃ p q : Pipeline Unit,
    follow (fun _ _ => true) (step fun _ => ()) { parallelism := 1, free := 1 } failingSteps = some p ∧
    p.phase? 0 = some (.freed (.failed (.storageFailure ⟨"failing", by decide⟩ "disk gone"))) ∧
    p.phase? 1 = some .waiting ∧ p.free = 1 ∧ p.budgetClosed = true ∧ p.raised = true ∧
    p.resume 1 = some q ∧ q.accepted? 1 = some false := by
  have possible : (follow (fun _ _ => true) (step fun _ => ()) { parallelism := 1, free := 1 } failingSteps).any fun p =>
      p.phase? 0 == some (.freed (.failed (.storageFailure ⟨"failing", by decide⟩ "disk gone"))) &&
        p.phase? 1 == some .waiting && p.free == 1 := by decide +kernel
  simp only [Option.any_eq_true, Bool.and_eq_true, beq_iff_eq] at possible
  obtain ⟨p, followed, ⟨failed, waits⟩, free⟩ := possible
  have before := (reachable_of_follow followed fun _ _ _ => trivial).of_restricted
  have started : start 1 = .ok ({ parallelism := 1, free := 1 } : Pipeline Unit) := rfl
  obtain ⟨stops, -⟩ := failure_precedes_release started before
  obtain ⟨closed, raised, -, denied, -⟩ := stops 0 _ _ failed rfl rfl p (.refl _ _)
  have here : ∀ y, p.phase? 1 = some y → y = .waiting ∨ y = .granted := by simp [waits]
  obtain ⟨q, resumed, refused⟩ := (denied 1 here _ waits).2 (.inl rfl)
  exact ⟨p, q, followed, failed, waits, free, closed, raised, resumed, refused⟩

/-! ## Calls after the flag has been raised -/

/-- Where nothing further is taken, every call is refused for ever. And where the flag is raised, nothing further is taken,
unless the driver has yet to learn of it: it is in its loop or has not come to close the budget. -/
theorem refused_once_driver_reacts {parallelism : Nat} {p₀ : Pipeline σ} (started : start parallelism = .ok p₀)
    (before : Reachable (Steps (step fresh)) p₀ p) :
    (p.Closed → ∀ q, Reachable (Steps (step fresh)) p q → ∀ request,
      (q.call request).accepted? q.items.length = some false) ∧
    (p.raised = true → p.Closed ∨ p.driver.isLooping = true ∨
      ∃ cause, p.driver = .raising cause ∨ p.driver = .shutting cause) := by
  obtain ⟨coherent, orderly, -⟩ := announced_reachable started before
  refine ⟨fun closed q after => ?_, fun raised => ?_⟩
  · exact Closed.refuses (after.invariant closed fun _ _ _ closed step => closed.moves (moves_of_step step))
  · have shut (done : 2 ≤ p.driver.measures) : p.Closed := .inr (orderly.signals.shut done)
    cases state : p.driver with
    | idle | head | watching | joining | receiving => exact .inr (.inl rfl)
    | raising cause => exact .inr (.inr ⟨cause, .inl rfl⟩)
    | shutting cause => exact .inr (.inr ⟨cause, .inr rfl⟩)
    | sealing | cancelling | draining => exact .inl (shut (by simp [state, Driver.measures]))
    | finished result =>
      cases result with
      | ok count => exact .inl (.inl (coherent.exhausted (coherent.stopped count state).2.1).1)
      | error => exact .inl (shut (by simp [state, Driver.measures]))
    | dropped => exact .inl (.inl (orderly.signals.left (orderly.signals.dropped state)))

/-- Before the driver has learned that the flag is raised, an item is taken all the same. -/
theorem taken_after_abort : ∃ p q : Pipeline Unit, Reachable (Steps (step fun _ => ())) { parallelism := 1, free := 1 } p ∧
    p.raised = true ∧ follow (fun _ _ => true) (step fun _ => ()) p (exampleSteps.take 4) = some q ∧
    q.accepted? 0 = some true := by
  refine ⟨abort { parallelism := 1, free := 1 }, ?_⟩
  have possible : (follow (fun _ _ => true) (step fun _ => ()) (abort { parallelism := 1, free := 1 })
      (exampleSteps.take 4)).any (fun q => q.accepted? 0 == some true) = true := by decide +kernel
  obtain ⟨q, followed, taken⟩ := (Option.any_eq_true ..).1 possible
  exact ⟨q, (Reachable.refl _ _).tail (a := .abort) rfl, rfl, followed, by simpa using taken⟩

end Pipeline

namespace World

/-- A chain of three records. -/
def chainWorld : World :=
  let root : TransactionId := ⟨"root", by decide⟩
  let middle : TransactionId := ⟨"middle", by decide⟩
  { store := .ofList 10 [⟨root, none, [1]⟩, ⟨middle, some root, [2]⟩, ⟨exampleTail, some middle, [3]⟩] }

/-- Two items of a run are worked on while the third waits for a permit, and what the second waits for panics. -/
def panickingActions : List Action :=
  Action.begin { parallelism := 2 } exampleStatement exampleTail :: List.replicate 17 (.go (.walker 0)) ++
    [Action.wake 0] ++ List.replicate 7 (Action.go (.driver 0)) ++
      [Action.go (.item 0 0), .go (.item 0 1), .signal 0 1 .crash, .go (.item 0 1), .go (.item 0 1)]

/-- The producer goes on, and the transforms of the first item answer. -/
def unawareActions : List Action :=
  List.replicate 4 (Action.go (.walker 0)) ++ [Action.signal 0 0 (.answer .sign (.ok [1])),
    .signal 0 0 (.answer .compress (.ok [3])), .go (.item 0 0), .go (.item 0 0)]

/-- An item that panics gives its place back while the budget is open and the flag is down. The call that waited gets the
place, and the record of another item, which looks at the flag afterwards, is relocated. -/
theorem panic_frees_place : ∃ (w v : World) (r s : Run), Reachable (Steps World.step) chainWorld w ∧
    w.runs[0]? = some r ∧ r.pipeline.phase? 1 = some (.freed .panicked) ∧ r.pipeline.budgetClosed = false ∧
    r.pipeline.raised = false ∧ r.pipeline.phase? 2 = some .granted ∧ w.store.archive = [] ∧
    Reachable (Steps World.step) w v ∧ v.runs[0]? = some s ∧ s.pipeline.accepted? 2 = some true ∧
    s.pipeline.phase? 0 = some (.ended .done) ∧ v.store.archive.length = 1 := by
  have possible : (follow (fun _ _ => true) World.step chainWorld panickingActions).any fun (w : World) =>
      (w.runs[0]?).any fun (r : Run) => ((r.pipeline.phase? 1 == some (.freed .panicked) && !r.pipeline.budgetClosed) &&
        (!r.pipeline.raised && r.pipeline.phase? 2 == some .granted)) && w.store.archive == [] &&
          (follow (fun _ _ => true) World.step w unawareActions).any fun (v : World) => (v.runs[0]?).any fun (s : Run) =>
            s.pipeline.accepted? 2 == some true && s.pipeline.phase? 0 == some (.ended .done) &&
              v.store.archive.length == 1 := by decide +kernel
  simp only [Option.any_eq_true, Bool.and_eq_true, beq_iff_eq, Bool.not_eq_true'] at possible
  obtain ⟨w, followed, r, found, ⟨⟨⟨freed, isOpen⟩, down, granted⟩, nothing⟩, v, followed', s, found', ⟨taken, done⟩,
    relocated⟩ := possible
  exact ⟨w, v, r, s, (reachable_of_follow followed fun _ _ _ => trivial).of_restricted, found, freed, isOpen, down, granted,
    nothing, (reachable_of_follow followed' fun _ _ _ => trivial).of_restricted, found', taken, done, relocated⟩

end World
end ChainArchive
