import ChainArchive.Proofs.Pipeline.Announced
import ChainArchive.Proofs.Pipeline.Permits
import ChainArchive.Proofs.Pipeline.Progress

/-!
# How a pipeline makes headway

A driver that is left alone goes round its loop until it finds something to do
or falls asleep. It wakes only for a reason, so it cannot go round for ever:
each of its steps brings it nearer to the place where it finds that reason, or
brings an item on. And a driver that has nothing left to do has come to its end,
or sleeps because the input is still open.
-/

namespace ChainArchive.Pipeline
set_option autoImplicit false

variable {σ : Type}

/-! ## Sums over the items -/

/-- What all items together weigh, each by its phase. -/
def load (p : Pipeline σ) (f : Phase σ → Nat) : Nat := ∑ i ∈ Finset.range p.items.length, (p.phase? i).elim 0 f

section Load

variable {p q : Pipeline σ} {f : Phase σ → Nat}

theorem load_le (length : q.items.length = p.items.length)
    (each : ∀ i x y, p.phase? i = some x → q.phase? i = some y → f y ≤ f x) : q.load f ≤ p.load f := by
  unfold load
  rw [length]
  refine Finset.sum_le_sum fun i inside => ?_
  have bound := Finset.mem_range.1 inside
  have before : p.phase? i = some (p.items[i]).phase := phase?_of_items (List.getElem?_eq_getElem bound)
  have now : q.phase? i = some (q.items[i]).phase := phase?_of_items (List.getElem?_eq_getElem (length ▸ bound))
  rw [before, now]
  exact each i _ _ before now

/-- A call adds one item to the load. -/
theorem load_call (p : Pipeline σ) (request : ArchivalRequest) :
    ∃ x, (x = .over .refused ∨ x = .waiting ∨ x = .holding) ∧ (p.call request).load f = p.load f + f x := by
  have added (x : Phase σ) (q : Pipeline σ) (items : q.items = p.items ++ [⟨request, x⟩]) : q.load f = p.load f + f x := by
    unfold load
    simp only [items, List.length_append, List.length_singleton, Finset.sum_range_succ, phase?]
    congr 1
    · refine Finset.sum_congr rfl fun i inside => ?_
      rw [List.getElem?_append_left (Finset.mem_range.1 inside)]
    · simp
  unfold call
  split
  · exact ⟨_, .inl rfl, added _ _ rfl⟩
  · split
    · exact ⟨_, .inr (.inl rfl), added _ _ rfl⟩
    · exact ⟨_, .inr (.inr rfl), added _ _ rfl⟩

end Load

/-! ## The driver's way round its loop -/

/-- The driver finds something when it looks into the queue: an item, or that none will come. -/
def hasInput (p : Pipeline σ) : Bool := !p.exhausted && (!p.queue.isEmpty || !p.inputOpen)

/-- How many steps the driver takes until it brings an item on, learns that none will come or leaves its loop, or until
it sleeps; counted from where it looks into the queue, -/
def receives (p : Pipeline σ) : Nat :=
  if p.hasInput then 1 else if p.raised then 8 else if p.unjoined.isEmpty then 1 else 4

/-- from where it looks for a finished task, -/
def joins (p : Pipeline σ) : Nat := if p.unjoined.isEmpty then 1 + p.receives else 1

/-- from where it looks at the flag -/
def watches (p : Pipeline σ) : Nat := if p.raised then 6 else 1 + p.joins

/-- and from where it is. -/
def headway (p : Pipeline σ) : Nat :=
  match p.driver with
  | .receiving => p.receives
  | .joining => p.joins
  | .watching => p.watches
  | .head => 1 + p.watches
  | .idle => if p.isAwaited then 1 + p.watches else 0
  | .raising _ => 5
  | .shutting _ => 4
  | .sealing _ => 3
  | .cancelling _ => 2
  | .draining _ => 1
  | .finished _ | .dropped => 0

theorem headway_le (p : Pipeline σ) : p.headway ≤ 9 := by
  have bounds : p.receives ≤ 8 ∧ p.joins ≤ 9 ∧ p.watches ≤ 6 := by
    simp only [watches, joins, receives]
    split_ifs <;> simp
  unfold headway
  split <;> first | omega | split <;> omega

/-- What the items and the driver still have before them: the phases of the items, and that no further item comes. -/
def bulk (p : Pipeline σ) : Nat := p.weight + (!p.exhausted).toNat

section Steps

variable {p q : Pipeline σ} {fresh : ArchivalRequest → σ} {action : Action σ} {i : Nat}

/-- What the driver keeps for itself: nobody else joins tasks or learns that no further item comes, and it is only woken
or stopped from outside. -/
theorem driver_frame (moves : Moves fresh p action q) (other : action ≠ .drive) :
    p.unjoined ⊆ q.unjoined ∧ q.exhausted = p.exhausted ∧
      (q.driver = p.driver ∨ p.driver = .idle ∧ q.driver = .watching ∨ q.driver = .dropped) := by
  have release (p : Pipeline σ) : p.release.unjoined = p.unjoined ∧ p.release.exhausted = p.exhausted ∧
      p.release.driver = p.driver := by
    rcases release_cases p with ⟨-, same⟩ | ⟨_, -, -, granted⟩
    · rw [same]
      exact ⟨rfl, rfl, rfl⟩
    · rw [granted]
      exact ⟨rfl, rfl, rfl⟩
  cases moves with
  | refuseGranted | withdrawGranted | withdrawHolding | freeTask | freeCall =>
    obtain ⟨unjoined, exhausted, driver⟩ := release (p.setPhase _ _)
    exact ⟨unjoined.symm ▸ fun _ => id, exhausted, .inl driver⟩
  | dropHandle => unfold dropHandle; split <;> exact ⟨fun _ => id, rfl, .inl rfl⟩
  | finish => exact ⟨List.subset_append_left .., rfl, .inl rfl⟩
  | wake state => exact ⟨fun _ => id, rfl, .inr (.inl ⟨state, rfl⟩)⟩
  | abandon =>
    obtain ⟨unjoined, -, exhausted⟩ := discardQueue_frame p
    exact ⟨unjoined.symm ▸ fun _ => id, exhausted, .inr (.inr rfl)⟩
  | _ => first | exact ⟨fun _ => id, rfl, .inl rfl⟩ | exact absurd rfl other

/-- Who has learned that no further item comes does not forget it. -/
theorem exhausted_of_moves (moves : Moves fresh p action q) (known : p.exhausted = true) : q.exhausted = true := by
  by_cases drives : action = .drive
  · have discard := (discardQueue_frame p).2.2
    cases moves with
    | @join _ _ ending => cases ending <;> exact known
    | spawn _ unknown => simp [known] at unknown
    | fail => exact discard.trans known
    | exhaust => rfl
    | _ => first | exact known | cases drives
  · exact (driver_frame moves drives).2.1.trans known

theorem bulk_le_of_moves (coherent : Coherent p) (moves : Moves fresh p action q)
    (noCall : ∀ request, action ≠ .call request) : q.bulk ≤ p.bulk := by
  have lighter := weight_le_of_moves coherent moves noCall
  have kept := exhausted_of_moves moves
  unfold bulk
  cases before : p.exhausted with
  | false => cases q.exhausted <;> simp <;> omega
  | true => simpa [kept before] using lighter

theorem bulk_lt_of_moves (coherent : Coherent p) (moves : Moves fresh p action q)
    (noCall : ∀ request, action ≠ .call request) {x y : Phase σ} (found : p.phase? i = some x)
    (now : q.phase? i = some y) (lower : y.rank < x.rank) : q.bulk < p.bulk := by
  have lighter := weight_lt_of_moves coherent moves noCall found now lower
  have kept := exhausted_of_moves moves
  unfold bulk
  cases before : p.exhausted with
  | false => cases q.exhausted <;> simp <;> omega
  | true => simpa [kept before] using lighter

/-- An item that goes on leaves less to do. -/
theorem bulk_lt_of_item (coherent : Coherent p) (moves : Moves fresh p action q) (own : action.item? = some i) :
    q.bulk < p.bulk := by
  obtain ⟨x, y, found, now, lower⟩ := lower_of_moves moves own
  refine bulk_lt_of_moves coherent moves ?_ found now lower
  rintro request rfl
  cases own

/-- Every step of the driver brings an item on, finds out that none will come or makes headway. -/
theorem headway_of_drive (coherent : Coherent p) (moves : Moves fresh p .drive q) :
    q.bulk < p.bulk ∨ q.headway < p.headway := by
  have lighter {i : Nat} {x y : Phase σ} : p.phase? i = some x → q.phase? i = some y → y.rank < x.rank →
    q.bulk < p.bulk := bulk_lt_of_moves coherent moves (by simp)
  have joined (ending : Ending) : (Phase.over ending : Phase σ).rank < (Phase.finished ending : Phase σ).rank := Nat.one_pos
  cases moves with
  | succeed state => exact .inr (by simp [headway, state])
  | watch state => exact .inr (by simp [headway, state, watches, joins, receives, hasInput])
  | seeFlag state raised => exact .inr (by simp [headway, state, watches, raised])
  | seeNoFlag state calm => exact .inr (by simp [headway, state, watches, calm, joins, receives, hasInput])
  | @join j rest ending _ _ found =>
    have same := fun p : Pipeline σ => show (p.join ending).phase? j = p.phase? j by cases ending <;> rfl
    exact .inl (lighter found ((same _).trans (phase?_setPhase_self found)) (joined ending))
  | receive state nobody => exact .inr (by simp [headway, state, joins, nobody, receives, hasInput])
  | rest state known =>
    refine .inr ?_
    simp only [headway, state, isAwaited, watches, joins, receives, hasInput, known]
    cases p.raised <;> cases p.unjoined.isEmpty <;> simp
  | await state known nothing isOpen =>
    refine .inr ?_
    simp only [headway, state, isAwaited, watches, joins, receives, hasInput, known, nothing, isOpen]
    cases p.raised <;> cases p.unjoined.isEmpty <;> simp
  | exhaust _ known =>
    have same : ({ p with exhausted := true, driver := .head } : Pipeline σ).weight = p.weight := rfl
    exact .inl (by simp [bulk, known, same])
  | @spawn j rest state known waiting =>
    have queued := (coherent.mem_queue j).1 (by simp [waiting])
    obtain ⟨request, inside⟩ := items_of_phase? queued
    refine .inl (lighter queued (y := .working (fresh request)) ?_ (by simp [Phase.rank]))
    simp only [Pipeline.spawn, inside]
    exact phase?_setPhase_self queued
  | raiseFlag state | closeBudget state | sealQueue state | cancelTasks state | fail state =>
    exact .inr (by simp [headway, state])
  | drain _ _ found => exact .inl (lighter found (phase?_setPhase_self found) (joined _))
  | joinNobody _ waiting nothing | drainNobody _ waiting nothing =>
    obtain ⟨ending, found⟩ := (coherent.mem_unjoined _).1 (waiting ▸ List.mem_cons_self)
    exact absurd found (nothing ending)

/-- A sleeping driver that wakes for a reason makes headway. -/
theorem headway_of_wake (awaited : p.isAwaited = true) (moves : Moves fresh p .wake q) : q.headway < p.headway := by
  cases moves with
  | wake state => simp [headway, state, awaited, watches, joins, receives, hasInput]

/-- So does a driver that is stopped. -/
theorem headway_of_abandon (announced : Announced p) (moves : Moves fresh p .abandon q) : q.headway < p.headway := by
  cases moves with
  | abandon state told =>
    rcases state with state | ⟨cause, state⟩
    · simp [headway, state, isAwaited, announced.abandoned told]
    · simp [headway, state]

/-! ## Where a pipeline rests -/

/-- A driver that knows that no further item comes goes on from the head of its loop only while a task is left. -/
def Busy (p : Pipeline σ) : Prop :=
  p.exhausted = true → p.driver.isLooping = true → p.driver ≠ .head → p.isRunning = true

theorem isRunning_eq_true_iff : p.isRunning = true ↔ ∃ i x, p.phase? i = some x ∧ x.isRunning = true := by
  rw [← Bool.not_eq_false, isRunning_eq_false_iff]
  simp

/-- A task goes on until the driver joins it. -/
theorem isRunning_of_moves (coherent : Coherent p) (moves : Moves fresh p action q) (other : action ≠ .drive)
    (running : p.isRunning = true) : q.isRunning = true := by
  have coherent' := coherent.step moves
  obtain ⟨i, x, found, running⟩ := isRunning_eq_true_iff.1 running
  rw [isRunning_eq_true_iff]
  by_cases waits : ∃ ending, x = .finished ending
  · obtain ⟨ending, rfl⟩ := waits
    have member := (driver_frame moves other).1 ((coherent.mem_unjoined i).2 ⟨ending, found⟩)
    obtain ⟨ending', now⟩ := (coherent'.mem_unjoined i).1 member
    exact ⟨i, _, now, coherent'.proper i _ now⟩
  · obtain ⟨request, inside⟩ := items_of_phase? found
    obtain ⟨y, now, moved⟩ := moved_of_moves coherent moves inside
    refine ⟨i, y, phase?_of_items now, ?_⟩
    cases moved with
    | same => exact running
    | next step =>
      cases step with
      | discountFailed | cancel => rfl
      | freeTask task => exact task
      | finish | discount | shut | flag => exact running
      | @freeCall ending call => simp [Phase.isRunning, call] at running
      | join ending => exact absurd ⟨ending, rfl⟩ waits
      | _ => cases running
    | withdraw _ calling => cases x <;> simp_all [Phase.isRunning, Phase.isCalling]
    | work | record => rfl
    | @done _ ending _ own => cases ending <;> first | rfl | cases own

theorem Busy.start {parallelism : Nat} (h : Pipeline.start parallelism = .ok p) : Busy p := by
  unfold Pipeline.start at h
  split at h <;> cases h
  intro known
  cases known

theorem Busy.step (h : Busy p) (coherent : Coherent p) (moves : Moves fresh p action q) : Busy q := by
  by_cases drives : action = .drive
  · subst drives
    cases moves with
    | watch state more =>
      intro known _ _
      exact more.resolve_left (by simpa using known)
    | seeNoFlag state | receive state | rest state =>
      exact fun known _ _ => h known (by rw [state]; rfl) (by simp [state])
    | await state known => exact fun exhausted => absurd exhausted (by simp [known])
    | exhaust => exact fun _ _ away => absurd rfl away
    | @join _ _ ending => cases ending <;> first | exact fun _ _ away => absurd rfl away | exact fun _ loops => by cases loops
    | @spawn j rest =>
      have driver : (p.spawn fresh j rest).driver = .head := congrArg Signals.driver (signals_spawn p j rest)
      exact fun _ _ away => absurd driver away
    | joinNobody _ waiting nothing | drainNobody _ waiting nothing =>
      obtain ⟨ending, found⟩ := (coherent.mem_unjoined _).1 (waiting ▸ List.mem_cons_self)
      exact absurd found (nothing ending)
    | drain state => exact fun _ loops => by simp [state, Driver.isLooping] at loops
    | succeed | seeFlag | raiseFlag | closeBudget | sealQueue | cancelTasks | fail => exact fun _ loops => by cases loops
  · obtain ⟨-, exhausted, driver⟩ := driver_frame moves drives
    intro known loops away
    refine isRunning_of_moves coherent moves drives ?_
    rw [exhausted] at known
    rcases driver with same | ⟨sleeps, -⟩ | dropped
    · exact h known (same ▸ loops) (same ▸ away)
    · exact h known (by rw [sleeps]; rfl) (by simp [sleeps])
    · simp [dropped, Driver.isLooping] at loops

/-- When nobody is on the way out or at work, the driver can go on, unless it has come to its end or sleeps because the
input is open and the queue empty. -/
theorem driver_rests (fresh : ArchivalRequest → σ) (coherent : Coherent p) (busy : Busy p)
    (still : ∀ i x, p.phase? i = some x → x.isLeaving = false) (idle : ∀ i work, p.phase? i ≠ some (.working work))
    (going : p.isSettled = false) :
    (∃ q, p.drive fresh = some q) ∨ (p.isAwaited = true ∧ ∃ q, p.wake = some q) ∨
      p.inputOpen = true ∧ p.queue = [] := by
  -- a task that is neither at work nor on its way out waits for the driver
  have waits (running : p.isRunning = true) : p.unjoined ≠ [] := by
    obtain ⟨i, x, found, running⟩ := isRunning_eq_true_iff.1 running
    have still := still i x found
    cases x with
    | finished ending => exact List.ne_nil_of_mem ((coherent.mem_unjoined i).2 ⟨ending, found⟩)
    | working work => exact absurd found (idle i work)
    | ended | recorded | shut | flagged | uncounted | freed => cases still
    | _ => cases running
  by_cases sleeps : p.driver = .idle
  · by_cases awaited : p.isAwaited = true
    · exact .inr (.inl ⟨awaited, _, by rw [wake, sleeps]⟩)
    · simp only [isAwaited, Bool.or_eq_true, Bool.and_eq_true, Bool.not_eq_true', not_or, not_and, List.isEmpty_eq_false_iff,
        Bool.not_eq_true, Bool.not_eq_false, ne_eq, not_not] at awaited
      obtain ⟨⟨-, joined⟩, rest⟩ := awaited
      have unknown : p.exhausted = false := by
        by_contra known
        exact waits (busy (by simpa using known) (by rw [sleeps]; rfl) (by simp [sleeps])) joined
      obtain ⟨queue, input⟩ := rest unknown
      exact .inr (.inr ⟨input, queue⟩)
  · refine .inl (drive_isSome sleeps going fun cause _ nobody => ?_)
    by_contra running
    exact waits (by simpa using running) nobody

end Steps
end ChainArchive.Pipeline
