import ChainArchive.Proofs.Pipeline.Causes
import Mathlib.Algebra.Order.BigOperators.Group.Finset

/-!
# How a failed pipeline comes to its end

No step takes an item back, and what an item or a driver that goes on does by
itself brings the pipeline nearer to its end. Once a failure has been recorded
there is always such a step, until the driver has its result.
-/

namespace ChainArchive.Pipeline
set_option autoImplicit false

variable {σ : Type}

/-! ## The distance from the end -/

/-- How many phases an item may still go through. -/
def Phase.rank : Phase σ → Nat
  | .waiting => 14
  | .granted => 13
  | .holding => 12
  | .counted _ => 11
  | .noted => 10
  | .queued => 9
  | .working _ => 8
  | .ended _ => 7
  | .recorded _ => 6
  | .shut _ => 5
  | .flagged _ => 4
  | .uncounted _ => 3
  | .freed _ => 2
  | .finished _ => 1
  | .over _ => 0

/-- How far the driver is from its end, while there are tasks to join. -/
def Driver.rank : Driver → Nat
  | .receiving => 9
  | .idle | .head => 8
  | .watching => 7
  | .joining => 6
  | .raising _ => 5
  | .shutting _ => 4
  | .sealing _ => 3
  | .cancelling _ => 2
  | .draining _ => 1
  | .finished _ | .dropped => 0

theorem Driver.rank_le (d : Driver) : d.rank ≤ 9 := by
  cases d <;> simp [rank]

/-- How many phases all items may still go through. -/
def weight (p : Pipeline σ) : Nat := ∑ i ∈ Finset.range p.items.length, (p.phase? i).elim 0 Phase.rank

/-- A bound on the steps that the items and the driver still take. An item outweighs all that the driver does in one
turn of its loop. -/
def distance (p : Pipeline σ) : Nat := 10 * p.weight + p.driver.rank

/-- The item is on its way out. -/
def Phase.isLeaving : Phase σ → Bool
  | .ended _ | .recorded _ | .shut _ | .flagged _ | .uncounted _ | .freed _ => true
  | _ => false

/-- The item that an action brings nearer to its end. -/
def Action.item? : Action σ → Option Nat
  | .resume i | .withdraw i | .finishWork i _ | .cancelWork i | .unwind i => some i
  | _ => none

section Steps

variable {p q : Pipeline σ} {fresh : ArchivalRequest → σ} {action : Action σ} {i : Nat}

/-! ## What every step does -/

/-- No item goes back. -/
theorem Phase.rank_le_of_moved {first : σ} {x y : Phase σ} (h : Phase.Moved p first action i x y) :
    y.rank ≤ x.rank := by
  cases h with
  | same | work => exact Nat.le_refl _
  | next h => cases h <;> simp [rank]
  | withdraw _ calling going given =>
    have above : 7 ≤ x.rank := by cases x <;> simp_all [isCalling, ending?, rank]
    obtain rfl | rfl := given
    · exact Nat.zero_le _
    · exact above
  | done | record => simp [rank]

theorem rank_le_of_moves (coherent : Coherent p) (moves : Moves fresh p action q)
    (noCall : ∀ request, action ≠ .call request) (i : Nat) :
    (q.phase? i).elim 0 Phase.rank ≤ (p.phase? i).elim 0 Phase.rank := by
  cases now : q.phase? i with
  | none => exact Nat.zero_le _
  | some y =>
    obtain ⟨first, x, before, moved⟩ := phase?_of_moves coherent moves noCall now
    rw [before]
    exact Phase.rank_le_of_moved moved

theorem weight_le_of_moves (coherent : Coherent p) (moves : Moves fresh p action q)
    (noCall : ∀ request, action ≠ .call request) : q.weight ≤ p.weight := by
  unfold weight
  rw [length_of_moves moves noCall]
  exact Finset.sum_le_sum fun i _ => rank_le_of_moves coherent moves noCall i

/-- When an item goes on the whole gets lighter. -/
theorem weight_lt_of_moves (coherent : Coherent p) (moves : Moves fresh p action q)
    (noCall : ∀ request, action ≠ .call request) {x y : Phase σ} (found : p.phase? i = some x)
    (now : q.phase? i = some y) (lower : y.rank < x.rank) : q.weight < p.weight := by
  obtain ⟨request, inside⟩ := items_of_phase? found
  unfold weight
  rw [length_of_moves moves noCall]
  refine Finset.sum_lt_sum (fun i _ => rank_le_of_moves coherent moves noCall i) ⟨i, ?_, ?_⟩
  · exact Finset.mem_range.2 (List.getElem?_eq_some_iff.1 inside).1
  · rw [found, now]
    exact lower

theorem distance_lt_of_weight (lighter : q.weight < p.weight) : q.distance < p.distance := by
  have := q.driver.rank_le
  unfold distance
  omega

theorem distance_lt_of_driver (coherent : Coherent p) (moves : Moves fresh p action q)
    (noCall : ∀ request, action ≠ .call request) (lower : q.driver.rank < p.driver.rank) : q.distance < p.distance := by
  have := weight_le_of_moves coherent moves noCall
  unfold distance
  omega

/-! ## Items that go on -/

theorem phase?_setPhase_self {x y : Phase σ} (found : p.phase? i = some x) : (p.setPhase i y).phase? i = some y := by
  simp [found]

/-- A permit that comes back leaves alone who does not wait for one. -/
theorem phase?_release {y : Phase σ} (found : p.phase? i = some y) (notWaiting : y ≠ .waiting) :
    p.release.phase? i = some y := by
  obtain ⟨-, same⟩ | ⟨j, waits, -, granted⟩ := release_cases p
  · rw [same]
    exact found
  · have other : j ≠ i := by
      rintro rfl
      exact notWaiting (Option.some.inj (found.symm.trans waits))
    rw [granted, phase?_setPhase, if_neg other, found]

/-- The item that an action brings on gets into a phase nearer to its end. -/
theorem lower_of_moves (moves : Moves fresh p action q) (own : action.item? = some i) :
    ∃ x y, p.phase? i = some x ∧ q.phase? i = some y ∧ y.rank < x.rank := by
  cases moves with
  | refuseWaiting found | hold found | count found | note found | refuseNoted found | enqueue found
  | withdrawWaiting found | withdrawCounted found | withdrawNoted found | finishWork found | cancelWork found
  | record found | shut found | flag found | discountFailed found | discount found | finish found =>
    cases own
    exact ⟨_, _, found, phase?_setPhase_self found, by simp [Phase.rank]⟩
  | refuseGranted found | withdrawGranted found | withdrawHolding found | freeTask found | freeCall found =>
    cases own
    exact ⟨_, _, found, phase?_release (phase?_setPhase_self found) (by simp), by simp [Phase.rank]⟩
  | _ => cases own

/-- An item that goes on brings the pipeline nearer to its end. -/
theorem distance_lt_of_item (coherent : Coherent p) (moves : Moves fresh p action q) (own : action.item? = some i) :
    q.distance < p.distance := by
  obtain ⟨x, y, found, now, lower⟩ := lower_of_moves moves own
  have noCall : ∀ request, action ≠ .call request := by
    rintro request rfl
    cases own
  exact distance_lt_of_weight (weight_lt_of_moves coherent moves noCall found now lower)

/-- An item on its way out can go on. -/
theorem unwind_of_isLeaving {x : Phase σ} (found : p.phase? i = some x) (leaving : x.isLeaving = true) :
    ∃ q, p.unwind i = some q := by
  cases x with
  | ended ending => cases ending <;> exact ⟨_, by simp only [unwind, found]; rfl⟩
  | uncounted ending => cases task : ending.isOfTask <;> exact ⟨_, by simp only [unwind, found]; simp [task]; rfl⟩
  | recorded | shut | flagged | freed => exact ⟨_, by simp only [unwind, found]; rfl⟩
  | _ => cases leaving

/-- A call goes on when the budget and the queue are closed. -/
theorem call_goes_on {x : Phase σ} (found : p.phase? i = some x) (pending : p.accepted? i = none)
    (budget : p.budgetClosed = true) (queue : p.queueClosed = true) : ∃ q, (p.resume i).or (p.unwind i) = some q := by
  cases x with
  | waiting | granted | holding | counted | noted => exact ⟨_, by simp [resume, found, budget, queue]; rfl⟩
  | ended ending | uncounted ending =>
    cases ending with
    | refused => exact ⟨_, by simp [resume, unwind, found, Ending.isOfTask]; rfl⟩
    | _ => simp [accepted?, found] at pending
  | «over» ending => cases ending <;> simp [accepted?, found] at pending
  | _ => simp [accepted?, found] at pending

/-! ## The driver goes on -/

/-- A driver that goes on brings the pipeline nearer to its end, if it does not look for a finished task in vain. -/
theorem distance_lt_of_drive (coherent : Coherent p) (moves : Moves fresh p .drive q)
    (finds : p.driver = .joining → p.unjoined ≠ []) : q.distance < p.distance := by
  have driver := fun lower : q.driver.rank < p.driver.rank => distance_lt_of_driver coherent moves (by simp) lower
  have joins {i : Nat} {ending : Ending} (found : p.phase? i = some (.finished ending))
      (now : q.phase? i = some (.over ending)) : q.distance < p.distance :=
    distance_lt_of_weight (weight_lt_of_moves coherent moves (by simp) found now Nat.one_pos)
  cases moves with
  | succeed state | watch state | seeFlag state | seeNoFlag state | rest state | await state | exhaust state
  | raiseFlag state | closeBudget state | sealQueue state | cancelTasks state | fail state =>
    exact driver (by simp [state, Driver.rank])
  | spawn state =>
    refine driver ?_
    rw [show (p.spawn fresh _ _).driver = .head from congrArg Signals.driver (signals_spawn p _ _)]
    simp [state, Driver.rank]
  | receive state nobody => exact absurd nobody (finds state)
  | @join j rest ending _ _ found =>
    have same := fun p : Pipeline σ => show (p.join ending).phase? j = p.phase? j by cases ending <;> rfl
    exact joins found ((same _).trans (phase?_setPhase_self found))
  | drain _ _ found => exact joins found (phase?_setPhase_self found)
  | joinNobody _ waiting nothing | drainNobody _ waiting nothing =>
    obtain ⟨ending, found⟩ := (coherent.mem_unjoined _).1 (waiting ▸ List.mem_cons_self)
    exact absurd found (nothing ending)

/-- A driver that has settled has a result or was dropped. -/
theorem driver_of_isSettled (settled : p.isSettled = true) : (∃ own, p.driver = .finished own) ∨ p.driver = .dropped := by
  unfold isSettled at settled
  split at settled
  · next own finished => exact .inl ⟨own, finished⟩
  · next dropped => exact .inr dropped
  · cases settled

/-- The driver can go on unless it sleeps, has come to its end or waits for tasks to stop. -/
theorem drive_isSome (awake : p.driver ≠ .idle) (going : p.isSettled = false)
    (free : ∀ cause, p.driver = .draining cause → p.unjoined = [] → p.isRunning = false) :
    ∃ q, p.drive fresh = some q := by
  rw [← Option.isSome_iff_exists]
  unfold drive
  cases state : p.driver with
  | idle => exact absurd state awake
  | finished | dropped => simp [isSettled, state] at going
  | head | watching => simp only; split <;> rfl
  | joining =>
    simp only
    split
    · split <;> rfl
    · rfl
  | receiving =>
    simp only
    split
    · rfl
    · split
      · rfl
      · split <;> rfl
  | raising | shutting | sealing | cancelling => rfl
  | draining cause =>
    simp only
    split
    · split <;> rfl
    · next nobody => simp [free cause state nobody]

/-- Once a failure has been recorded and no item is on its way out, the driver can go on, unless it has come to its end
or waits for a task that is still at work. -/
theorem driver_goes_on (fresh : ArchivalRequest → σ) (coherent : Coherent p) {cause : GenerationError}
    (told : p.Tells cause) (still : ∀ i x, p.phase? i = some x → x.isLeaving = false) (going : p.isSettled = false) :
    (∃ q, (p.wake = some q ∨ p.drive fresh = some q) ∧ q.distance < p.distance) ∨
      (∃ cause, p.driver = .draining cause) ∧ ∃ i work, p.phase? i = some (.working work) := by
  by_cases sleeps : p.driver = .idle
  · have woken : p.wake = some { p with driver := .watching } := by rw [wake, sleeps]
    have moves : Moves fresh p .wake _ := moves_of_wake woken
    refine .inl ⟨_, .inl woken, distance_lt_of_driver coherent moves (by simp) ?_⟩
    simp [sleeps, Driver.rank]
  by_cases stuck : ∃ cause, p.driver = .draining cause ∧ p.unjoined = [] ∧ p.isRunning = true
  · obtain ⟨cause, state, nobody, running⟩ := stuck
    obtain ⟨i, x, found, running⟩ : ∃ i x, p.phase? i = some x ∧ x.isRunning = true := by
      by_contra none
      push Not at none
      simp [isRunning_eq_false_iff.2 fun i x found => by simpa using none i x found] at running
    refine .inr ⟨⟨cause, state⟩, i, ?_⟩
    have still := still i x found
    cases x with
    | working work => exact ⟨work, found⟩
    | finished ending =>
      have waits := (coherent.mem_unjoined i).2 ⟨ending, found⟩
      simp [nobody] at waits
    | ended | recorded | shut | flagged | uncounted | freed => cases still
    | _ => cases running
  · push Not at stuck
    obtain ⟨q, drive⟩ : ∃ q, p.drive fresh = some q :=
      drive_isSome sleeps going fun cause state nobody => by simpa using stuck cause state nobody
    refine .inl ⟨q, .inr drive, distance_lt_of_drive coherent (moves_of_drive drive) fun state nobody => ?_⟩
    -- the item that has told its failure waits to be joined
    obtain ⟨i, x, found, told⟩ := told
    have still := still i x found
    cases x with
    | finished ending =>
      have waits := (coherent.mem_unjoined i).2 ⟨ending, found⟩
      simp [nobody] at waits
    | «over» ending =>
      obtain rfl := Ending.eq_of_failure? told
      have kept := coherent.nothing_lost (by rw [state]; rfl) i _ found
      cases kept
    | ended | recorded | shut | flagged | uncounted | freed => cases still
    | _ => cases told

end Steps
end ChainArchive.Pipeline
