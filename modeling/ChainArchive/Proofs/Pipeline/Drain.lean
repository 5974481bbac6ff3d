import ChainArchive.Proofs.Pipeline.Permits
import ChainArchive.Proofs.Pipeline.Progress

/-!
# Draining a pipeline

A chronicle of what happens tells which calls have returned that their items
were taken, which items were begun and how the work on each of them has ended.
Items leave the queue in the order in which they entered it. So a driver that
ends well has counted exactly the items that were taken: it has begun all of
them, in this order, and each has ended once, and well. A driver ends otherwise
only if some work does, or if somebody aborts it.
-/

namespace ChainArchive.Pipeline
set_option autoImplicit false

variable {σ : Type}

/-! ## The chronicle -/

/-- What has happened to the items of a pipeline. -/
structure Chronicle where
  /-- The items whose calls have returned that they were taken, in this order. -/
  taken : List Nat := []
  /-- The items that got a task, in this order. -/
  begun : List Nat := []
  /-- The items whose work has ended by itself, in this order, and how it has ended. -/
  ended : List (Nat × Ending) := []
deriving Repr, DecidableEq

/-- The item that the driver is about to take out of the queue. -/
def next? (p : Pipeline σ) : Option Nat :=
  match p.driver with
  | .receiving => if p.exhausted then none else p.queue.head?
  | _ => none

/-- Notes a step. -/
def Chronicle.note (c : Chronicle) (p : Pipeline σ) (action : Action σ) (q : Pipeline σ) : Chronicle :=
  match action with
  | .resume item => if q.accepted? item = some true then { c with taken := c.taken ++ [item] } else c
  | .drive => { c with begun := c.begun ++ p.next?.toList }
  | .finishWork item ending => { c with ended := c.ended ++ [(item, ending)] }
  | _ => c

/-- Goes on with a chronicle as long as the actions are possible. -/
def chronicle (fresh : ArchivalRequest → σ) (p : Pipeline σ) (c : Chronicle) : List (Action σ) → Chronicle
  | [] => c
  | action :: rest =>
    match p.step fresh action with
    | some q => chronicle fresh q (c.note p action q) rest
    | none => c

/-- What is logged when an item gets its task. -/
def Item.admission (item : Item σ) : Event := .itemAdmitted item.request.transaction.id item.request.number

/-! ## What a step does to the queue -/

/-- What a step does to the queue, and what is noted of it. -/
inductive Queues (p : Pipeline σ) (action : Action σ) (q : Pipeline σ) : Prop
  | stays : q.queue = p.queue → q.log = p.log → (∀ i, action = .resume i → q.accepted? i ≠ some true) →
      (action = .drive → p.next? = none) → Queues p action q
  | enters {i : Nat} : action = .resume i → p.phase? i = some .noted → q.phase? i = some .queued →
      q.queue = p.queue ++ [i] → q.log = p.log → Queues p action q
  | leaves {i : Nat} {item : Item σ} {rest : List Nat} : action = .drive → p.driver.isFailing = false →
      p.next? = some i → p.queue = i :: rest → q.queue = rest → p.items[i]? = some item →
      q.log = p.log ++ [item.admission] → Queues p action q
  | isEmptied : action = .drive ∧ p.next? = none ∨ action = .abandon → q.queue = [] → q.driver.isFailing = true →
      Queues p action q

section Steps

variable {p q : Pipeline σ} {fresh : ArchivalRequest → σ} {action : Action σ} {c : Chronicle}

theorem log_release (p : Pipeline σ) : p.release.log = p.log ∧ p.release.queue = p.queue := by
  rcases release_cases p with ⟨-, same⟩ | ⟨_, -, -, granted⟩
  · rw [same]
    exact ⟨rfl, rfl⟩
  · rw [granted]
    exact ⟨rfl, rfl⟩

/-- Who has not been taken does not hear that he was, unless he has given up. -/
theorem accepted?_ne_of_phase? {i : Nat} {x : Phase σ} (found : p.phase? i = some x) (untaken : x.isTaken = false)
    (proper : x.isProper = true) (kept : x.ending? ≠ some .withdrawn) : p.accepted? i ≠ some true := by
  rw [accepted?, found]
  cases x with
  | ended e | uncounted e | freed e | finished e | «over» e =>
    cases e <;> simp_all [Phase.isTaken, Phase.ending?, Phase.isProper, Ending.isOfTask]
  | _ => simp_all [Phase.isTaken]

/-- Every step does one of the listed things to the queue. -/
theorem queues_of_moves (coherent : Coherent p) (moves : Moves fresh p action q) : Queues p action q := by
  have released (i : Nat) (x : Phase σ) : (p.setPhase i x).release.queue = p.queue ∧
      (p.setPhase i x).release.log = p.log := ⟨(log_release _).2, (log_release _).1⟩
  -- a call that goes on without being taken
  have resumes {i j : Nat} {x : Phase σ} (now : q.phase? i = some x) (untaken : x.isTaken = false)
      (proper : x.isProper = true) (kept : x.ending? ≠ some .withdrawn) (here : (.resume i : Action σ) = .resume j) :
      q.accepted? j ≠ some true := by
    obtain rfl : i = j := by simpa using here
    exact accepted?_ne_of_phase? now untaken proper kept
  cases moves with
  | refuseWaiting found | hold found | count found | note found | refuseNoted found =>
    exact .stays rfl rfl (fun j => resumes (phase?_setPhase_self found) rfl rfl (by simp [Phase.ending?])) (by simp)
  | refuseGranted found =>
    have now := phase?_release (phase?_setPhase_self (y := .over .refused) found) (by simp)
    exact .stays (released _ _).1 (released _ _).2 (fun j => resumes now rfl rfl (by simp [Phase.ending?])) (by simp)
  | enqueue found => exact .enters rfl found (phase?_setPhase_self found) rfl rfl
  | withdrawGranted | withdrawHolding | freeTask | freeCall =>
    exact .stays (released _ _).1 (released _ _).2 (by simp) (by simp)
  | dropHandle =>
    unfold dropHandle
    split <;> exact .stays rfl rfl (by simp) (by simp)
  | succeed state | watch state | seeFlag state | seeNoFlag state | joinNobody state | receive state | raiseFlag state
  | closeBudget state | sealQueue state | cancelTasks state | drain state | drainNobody state =>
    exact .stays rfl rfl (by simp) fun _ => by simp [next?, state]
  | @join _ _ ending state =>
    have none : p.next? = none := by simp [next?, state]
    cases ending <;> exact .stays rfl rfl (by simp) fun _ => none
  | rest state known => exact .stays rfl rfl (by simp) fun _ => by simp [next?, state, known]
  | await state _ nothing | exhaust state _ nothing =>
    exact .stays rfl rfl (by simp) fun _ => by simp [next?, state, nothing]
  | @spawn i rest state known waiting =>
    obtain ⟨request, inside⟩ := items_of_phase? ((coherent.mem_queue i).1 (by simp [waiting]))
    refine .leaves rfl (by rw [state]; rfl) (by simp [next?, state, known, waiting]) waiting ?_ inside ?_ <;>
      simp [Pipeline.spawn, inside, Item.admission, Pipeline.setPhase]
  | fail state => exact .isEmptied (.inl ⟨rfl, by simp [next?, state]⟩) rfl rfl
  | abandon => exact .isEmptied (.inr rfl) rfl rfl
  | _ => exact .stays rfl rfl (by simp) (by simp)

/-! ## The chronicle tells what is so -/

/-- An item is taken when it enters the queue. -/
theorem Phase.isTaken_iff_of_moved {first : σ} {i : Nat} {x y : Phase σ} (h : Phase.Moved p first action i x y) :
    y.isTaken = true ↔ x.isTaken = true ∨ x = .noted ∧ y = .queued := by
  refine ⟨fun taken => ?_, fun taken => ?_⟩
  · cases h with
    | same => exact .inl taken
    | next h => cases h <;> first | exact .inl taken | exact .inr ⟨rfl, rfl⟩
    | withdraw _ _ _ given => obtain rfl | rfl := given <;> cases taken
    | work | done | record => exact .inl rfl
  · rcases taken with taken | ⟨-, rfl⟩
    · exact Phase.isTaken_of_moved h taken
    · rfl

/-- The items that a step takes are those that enter the queue. -/
theorem taken_iff_of_moves (coherent : Coherent p) (moves : Moves fresh p action q) {i : Nat} :
    (∃ y, q.phase? i = some y ∧ y.isTaken = true) ↔
      (∃ x, p.phase? i = some x ∧ x.isTaken = true) ∨ p.phase? i = some .noted ∧ q.phase? i = some .queued := by
  constructor
  · rintro ⟨y, found, taken⟩
    obtain ⟨request, inside⟩ := items_of_phase? found
    obtain ⟨x, before, moved⟩ | ⟨-, -, begins⟩ := origin_of_moves coherent moves inside
    · rcases (Phase.isTaken_iff_of_moved moved).1 taken with taken | ⟨rfl, rfl⟩
      · exact .inl ⟨x, phase?_of_items before, taken⟩
      · exact .inr ⟨phase?_of_items before, found⟩
    · obtain rfl | rfl | rfl := begins <;> cases taken
  · rintro (⟨x, found, taken⟩ | ⟨-, now⟩)
    · obtain ⟨request, inside⟩ := items_of_phase? found
      obtain ⟨y, now, moved⟩ := moved_of_moves coherent moves inside
      exact ⟨y, phase?_of_items now, Phase.isTaken_of_moved moved taken⟩
    · exact ⟨_, now, rfl⟩

/-- What a step adds to the chronicle about the queue: what enters it and what leaves it. -/
structure Noted (p : Pipeline σ) (q : Pipeline σ) (enters leaves : List Nat) : Prop where
  mem_enters : ∀ i, i ∈ enters ↔ p.phase? i = some .noted ∧ q.phase? i = some .queued
  nodup : enters.Nodup
  inOrder : leaves = [] ∨ p.driver.isFailing = false ∧ leaves <+: p.queue
  queue : q.driver.isFailing = false → p.queue ++ enters = leaves ++ q.queue
  log : q.driver.isFailing = false →
    q.log.map some = p.log.map some ++ leaves.map fun i => (p.items[i]?).map Item.admission

theorem noted_of_moves (c : Chronicle) (coherent : Coherent p) (moves : Moves fresh p action q) :
    ∃ enters leaves, (c.note p action q).taken = c.taken ++ enters ∧ (c.note p action q).begun = c.begun ++ leaves ∧
      Noted p q enters leaves := by
  have coherent' := coherent.step moves
  -- nobody enters a queue that has not grown
  have nobody (smaller : q.queue ⊆ p.queue) (i : Nat) :
      i ∈ ([] : List Nat) ↔ p.phase? i = some .noted ∧ q.phase? i = some .queued := by
    refine ⟨by simp, ?_⟩
    rintro ⟨before, now⟩
    have queued := (coherent.mem_queue i).1 (smaller ((coherent'.mem_queue i).2 now))
    simp [before] at queued
  cases queues_of_moves coherent moves with
  | stays queue log untaken none =>
    refine ⟨[], [], ?_, ?_, nobody (by simp [queue]), .nil, .inl rfl, by simp [queue], by simp [log]⟩
    · cases action with
      | resume i => simp [Chronicle.note, untaken i rfl]
      | _ => simp [Chronicle.note]
    · cases action with
      | drive => simp [Chronicle.note, none rfl]
      | resume => simp only [Chronicle.note]; split <;> simp
      | _ => simp [Chronicle.note]
  | @enters i is before now queue log =>
    subst is
    have accepted : q.accepted? i = some true := by simp [accepted?, now]
    refine ⟨[i], [], by simp [Chronicle.note, accepted], by simp [Chronicle.note, accepted], fun j => ?_,
      List.nodup_singleton i, .inl rfl, by simp [queue], by simp [log]⟩
    rw [List.mem_singleton]
    refine ⟨by rintro rfl; exact ⟨before, now⟩, ?_⟩
    rintro ⟨was, is⟩
    have member := (coherent'.mem_queue j).2 is
    rw [queue, List.mem_append, coherent.mem_queue j, was] at member
    simpa using member
  | @leaves i item rest is going next waiting queue inside log =>
    subst is
    refine ⟨[], [i], by simp [Chronicle.note], by simp [Chronicle.note, next], nobody (by simp [queue, waiting]), .nil,
      .inr ⟨going, by simp [waiting]⟩, by simp [queue, waiting], by simp [log, inside]⟩
  | isEmptied is queue failing =>
    refine ⟨[], [], ?_, ?_, nobody (by simp [queue]), .nil, .inl rfl, by simp [failing], by simp [failing]⟩ <;>
      rcases is with ⟨rfl, none⟩ | rfl <;> simp [Chronicle.note, *]

/-- The chronicle tells what has become of the items. -/
structure Chronicle.Tells (c : Chronicle) (p : Pipeline σ) : Prop where
  taken : ∀ i, i ∈ c.taken ↔ ∃ x, p.phase? i = some x ∧ x.isTaken = true
  taken_nodup : c.taken.Nodup
  begun : c.begun <+: c.taken
  queue : p.driver.isFailing = false → c.begun ++ p.queue = c.taken
  ended : ∀ i ending, (i, ending) ∈ c.ended ↔
    ending.isOfWork = true ∧ ∃ x, p.phase? i = some x ∧ x.ending? = some ending
  ended_nodup : c.ended.Nodup
  log : p.driver.isFailing = false → p.log.map some = c.begun.map fun i => (p.items[i]?).map Item.admission

/-- The work on an item ends by itself only once. -/
theorem ended_iff_of_moves (coherent : Coherent p) (moves : Moves fresh p action q) {i : Nat} {ending : Ending}
    (own : ending.isOfWork = true) : (∃ y, q.phase? i = some y ∧ y.ending? = some ending) ↔
      (∃ x, p.phase? i = some x ∧ x.ending? = some ending) ∨ action = .finishWork i ending := by
  constructor
  · rintro ⟨y, found, ended⟩
    obtain ⟨request, inside⟩ := items_of_phase? found
    obtain ⟨x, before, moved⟩ | ⟨-, -, begins⟩ := origin_of_moves coherent moves inside
    · cases Phase.ends_of_moved moved ended with
      | inl already => exact .inl ⟨x, phase?_of_items before, already⟩
      | inr ends =>
        cases ends with
        | own _ is => exact .inr is
        | refused | withdrawn | discarded | cancelled => cases own
    · obtain rfl | rfl | rfl := begins <;> cases ended
      cases own
  · rintro (⟨x, found, ended⟩ | rfl)
    · obtain ⟨request, inside⟩ := items_of_phase? found
      obtain ⟨y, now, moved⟩ := moved_of_moves coherent moves inside
      exact ⟨y, phase?_of_items now, Phase.ending?_of_moved moved ended⟩
    · cases moves with
      | finishWork found => exact ⟨_, phase?_setPhase_self found, rfl⟩

theorem Chronicle.ended_note (c : Chronicle) (p : Pipeline σ) (action : Action σ) (q : Pipeline σ) :
    (∃ i ending, action = .finishWork i ending ∧ (c.note p action q).ended = c.ended ++ [(i, ending)]) ∨
      (∀ i ending, action ≠ .finishWork i ending) ∧ (c.note p action q).ended = c.ended := by
  cases action with
  | finishWork i ending => exact .inl ⟨i, ending, rfl, rfl⟩
  | resume i =>
    refine .inr ⟨by simp, ?_⟩
    simp only [note]
    split <;> rfl
  | _ => exact .inr ⟨by simp, rfl⟩

namespace Chronicle.Tells

theorem start {parallelism : Nat} (h : Pipeline.start parallelism = .ok p) : Tells {} p := by
  unfold Pipeline.start at h
  split at h <;> cases h
  constructor <;> simp [phase?]

/-- A chronicle that is continued goes on to tell what is so. -/
theorem step (h : c.Tells p) (coherent : Coherent p) (moves : Moves fresh p action q) : (c.note p action q).Tells q := by
  obtain ⟨enters, leaves, taken, begun, noted⟩ := noted_of_moves c coherent moves
  have going : q.driver.isFailing = false → p.driver.isFailing = false := by
    intro going
    by_contra failing
    have := (later_of_moves moves).failing (by simpa [signals] using failing)
    simp [signals, going] at this
  refine ⟨fun i => ?_, ?_, ?_, fun goes => ?_, fun i ending => ?_, ?_, fun goes => ?_⟩
  · rw [taken, List.mem_append, h.taken, noted.mem_enters, taken_iff_of_moves coherent moves]
  · rw [taken]
    refine List.nodup_append'.2 ⟨h.taken_nodup, noted.nodup, fun i member enters => ?_⟩
    -- who enters has not been taken before
    obtain ⟨x, found, before⟩ := (h.taken i).1 member
    rw [((noted.mem_enters i).1 enters).1, Option.some.injEq] at found
    subst found
    cases before
  · rw [taken, begun]
    rcases noted.inOrder with rfl | ⟨going, first⟩
    · rw [List.append_nil]
      exact h.begun.trans (List.prefix_append ..)
    · rw [← h.queue going]
      exact ((List.prefix_append_right_inj _).2 first).trans (List.prefix_append ..)
  · rw [taken, begun, List.append_assoc, ← noted.queue goes, ← List.append_assoc, h.queue (going goes)]
  · by_cases own : ending.isOfWork = true
    · rw [ended_iff_of_moves coherent moves own]
      rcases c.ended_note p action q with ⟨j, e, rfl, added⟩ | ⟨other, same⟩
      · rw [added, List.mem_append, h.ended]
        simp [own, eq_comm]
      · rw [same, h.ended]
        simp [own, other]
    · rcases c.ended_note p action q with ⟨j, e, rfl, added⟩ | ⟨-, same⟩
      · have real : e.isOfWork = true := by
          cases moves with
          | finishWork _ real => exact real
        rw [added, List.mem_append, h.ended]
        simp only [own, false_and, List.mem_singleton, Prod.mk.injEq, false_or, iff_false, Bool.false_eq_true]
        rintro ⟨-, rfl⟩
        exact own real
      · rw [same, h.ended]
        simp [own]
  · rcases c.ended_note p action q with ⟨j, e, rfl, added⟩ | ⟨-, same⟩
    · rw [added]
      refine List.nodup_append'.2 ⟨h.ended_nodup, List.nodup_singleton _, fun entry member last => ?_⟩
      -- work that is under way has not ended
      obtain rfl := List.mem_singleton.1 last
      obtain ⟨-, x, found, ended⟩ := (h.ended j e).1 member
      cases moves with
      | finishWork works =>
        rw [works, Option.some.injEq] at found
        subst found
        cases ended
    · rw [same]
      exact h.ended_nodup
  · have there (i : Nat) (member : i ∈ c.begun ++ leaves) : ∃ x, p.phase? i = some x := by
      rcases List.mem_append.1 member with member | member
      · obtain ⟨x, found, -⟩ := (h.taken i).1 (h.begun.subset member)
        exact ⟨x, found⟩
      · rcases noted.inOrder with rfl | ⟨-, first⟩
        · cases member
        · exact ⟨_, (coherent.mem_queue i).1 (first.subset member)⟩
    rw [begun, noted.log goes, h.log (going goes), ← List.map_append]
    refine List.map_congr_left fun i member => ?_
    obtain ⟨x, found⟩ := there i member
    obtain ⟨request, inside⟩ := items_of_phase? found
    obtain ⟨y, now, -⟩ := moved_of_moves coherent moves inside
    simp [inside, now, Item.admission]

/-- The chronicle of a path tells what is so at its end. -/
theorem path {actions : List (Action σ)} (h : c.Tells p) (coherent : Coherent p)
    (path : Path (Steps (Pipeline.step fresh)) p actions q) : (chronicle fresh p c actions).Tells q := by
  induction path generalizing c with
  | nil => exact h
  | cons step _ ih =>
    have moves := moves_of_step step
    simp only [chronicle, show Pipeline.step fresh _ _ = some _ from step]
    exact ih (h.step coherent moves) (coherent.step moves)

/-- When the driver has ended well, what was taken has been begun in the order in which it was taken, and the work on it
has ended once, and well. -/
theorem drained (h : c.Tells p) (coherent : Coherent p) {count : Nat} (success : p.driver = .finished (.ok count)) :
    count = c.taken.length ∧ c.begun = c.taken ∧ c.ended.Perm (c.taken.map fun i => (i, .done)) ∧
      p.log.map some = c.taken.map fun i => (p.items[i]?).map Item.admission := by
  obtain ⟨total, all⟩ := coherent.over_of_success success
  have going : p.driver.isFailing = false := by rw [success]; rfl
  have nothing : p.queue = [] := by
    refine List.eq_nil_iff_forall_not_mem.2 fun i member => ?_
    obtain is | is | is := all i _ ((coherent.mem_queue i).1 member) <;> cases is
  have begun : c.begun = c.taken := by simpa [nothing] using h.queue going
  have settled (i : Nat) : i ∈ c.taken ↔ p.phase? i = some (.over .done) := by
    rw [h.taken]
    refine ⟨?_, fun found => ⟨_, found, rfl⟩⟩
    rintro ⟨x, found, taken⟩
    obtain rfl | rfl | rfl := all i x found
    · exact found
    · cases taken
    · cases taken
  refine ⟨?_, begun, ?_, ?_⟩
  · have numbers : (p.numbers Phase.isJoined).Perm c.taken := by
      refine (List.perm_ext_iff_of_nodup (List.nodup_range.filter _) h.taken_nodup).2 fun i => ?_
      rw [← numbers, mem_numbers, settled]
      refine ⟨?_, fun found => ⟨_, found, rfl⟩⟩
      rintro ⟨x, found, joined⟩
      obtain rfl | rfl | rfl := all i x found
      · exact found
      · cases joined
      · cases joined
    rw [← numbers.length_eq, length_numbers, total]
    rfl
  · have nodup : (c.taken.map fun i => (i, Ending.done)).Nodup :=
      h.taken_nodup.map fun i j same => by simpa using same
    refine (List.perm_ext_iff_of_nodup h.ended_nodup nodup).2 ?_
    rintro ⟨i, ending⟩
    simp only [h.ended, List.mem_map, Prod.mk.injEq, settled]
    constructor
    · rintro ⟨own, x, found, ended⟩
      obtain rfl | rfl | rfl := all i x found <;> cases ended
      · exact ⟨i, found, rfl, rfl⟩
      · cases own
      · cases own
    · rintro ⟨j, found, rfl, rfl⟩
      exact ⟨rfl, _, found, rfl⟩
  · rw [← begun]
    exact h.log going

end Chronicle.Tells

/-! ## Who makes a driver fail -/

/-- A driver that nobody aborts fails only if some work does. -/
theorem calm_of_path {parallelism : Nat} (h : Pipeline.start parallelism = .ok p) {actions : List (Action σ)}
    (path : Path (Steps (Pipeline.step fresh)) p actions q)
    (good : ∀ i ending, .finishWork i ending ∈ actions → ending = .done) (abort : .abort ∉ actions)
    (drop : .dropHandle ∉ actions) : (∀ cause, q.driver ≠ .finished (.error cause)) ∧ q.driver ≠ .dropped := by
  obtain ⟨coherent, orderly, blamed, well⟩ := path.restricted.invariant
    (P := fun q => Coherent q ∧ Orderly q ∧ Blamed False q ∧ ∀ ending, ending.isOfWork = true →
      (∃ i x, q.phase? i = some x ∧ x.ending? = some ending) → ending = .done)
    ⟨.start h, .start h, .start h, by
      unfold Pipeline.start at h
      split at h <;> cases h
      simp [phase?]⟩ fun s action t ⟨coherent, orderly, blamed, well⟩ step => by
    obtain ⟨member, step⟩ := step
    have moves := moves_of_step step
    refine ⟨coherent.step moves, orderly.step coherent moves, blamed.step coherent orderly moves ?_ ?_, ?_⟩
    · rintro (rfl | rfl)
      · exact abort member
      · exact drop member
    · rintro i rfl
      cases good i _ member
    · rintro ending own ⟨i, ended⟩
      rcases (ended_iff_of_moves coherent moves own).1 ended with before | rfl
      · exact well ending own ⟨i, before⟩
      · exact good i ending member
  refine ⟨fun cause failed => ?_, fun dropped => blamed.dropped dropped⟩
  cases blamed.cause cause (by simp [failed, Driver.cause?]) with
  | item tells =>
    obtain ⟨i, x, found, told⟩ := tells
    cases well _ rfl ⟨i, x, found, Phase.ending?_of_told? told⟩
  | panic panicked => cases well _ rfl panicked
  | outside told => exact told

/-- Draining is complete and exact. In whatever order producer, driver and items act, whoever aborts or gives up, items
are begun in the order in which they were taken, each once. When the driver ends well, it has counted just as many
items as calls have returned that theirs was taken; it has begun all of these in this order, which is that of its log;
and the work on each of them has ended by itself once, and well. It ends with a failure only if some work does not end
well, or if somebody aborts it or drops the handle. -/
theorem drain_exact (fresh : ArchivalRequest → σ) {parallelism : Nat} (positive : 1 ≤ parallelism) :
    ∃ p, start parallelism = .ok p ∧ ∀ actions q, Path (Steps (step fresh)) p actions q →
      let c := chronicle fresh p {} actions
      c.taken.Nodup ∧ c.begun <+: c.taken ∧
      (∀ count, q.driver = .finished (.ok count) →
        count = c.taken.length ∧ c.begun = c.taken ∧ c.ended.Perm (c.taken.map fun i => (i, .done)) ∧
        q.log.map some = c.taken.map fun i => (q.items[i]?).map Item.admission) ∧
      ((∀ i ending, .finishWork i ending ∈ actions → ending = .done) → .abort ∉ actions → .dropHandle ∉ actions →
        (∀ cause, q.driver ≠ .finished (.error cause)) ∧ q.driver ≠ .dropped) := by
  have started : start parallelism = .ok ({ parallelism, free := parallelism } : Pipeline σ) :=
    if_neg (Nat.ne_of_gt positive)
  refine ⟨_, started, fun actions q path => ?_⟩
  have tells : (chronicle fresh _ {} actions).Tells q := .path (.start started) (.start started) path
  have coherent : Coherent q := path.invariant (.start started) fun _ _ _ coherent step =>
    coherent.step (moves_of_step step)
  exact ⟨tells.taken_nodup, tells.begun, fun count success => tells.drained coherent success, calm_of_path started path⟩

/-- Two items, of which the second ends first. The flag is raised after the driver has joined both, when it asks for the
last time whether all is done. -/
def drainedSteps : List (Action Unit) :=
  let request (n : Nat) : ArchivalRequest := ⟨.ofRandom [], n, ⟨⟨"shared", by decide⟩, none, []⟩⟩
  let resumes (i steps : Nat) : List (Action Unit) := List.replicate steps (.resume i)
  let unwinds (i steps : Nat) : List (Action Unit) := List.replicate steps (.unwind i)
  let drives (steps : Nat) : List (Action Unit) := List.replicate steps .drive
  Action.call (request 1) :: resumes 0 3 ++ Action.call (request 2) :: resumes 1 3 ++ Action.wake :: drives 7 ++
    [Action.finishWork 1 .done, .complete, .finishWork 0 .done] ++ unwinds 1 3 ++ unwinds 0 3 ++ drives 10 ++
    [Action.abort] ++ drives 1

theorem drain_exact_example : ∃ p q : Pipeline Unit, start 2 = .ok p ∧
    follow (fun _ _ => true) (step fun _ => ()) p drainedSteps = some q ∧ q.raised = true ∧
    q.driver = .finished (.ok 2) ∧
    let c := chronicle (fun _ => ()) p {} drainedSteps
    c.taken = [0, 1] ∧ 2 = c.taken.length ∧ c.begun = c.taken ∧ c.ended.Perm [(0, .done), (1, .done)] ∧
      q.log.map some = c.taken.map fun i => (q.items[i]?).map Item.admission := by
  obtain ⟨p, started, drains⟩ := drain_exact (fun _ => ()) (show 1 ≤ 2 by decide)
  obtain rfl : p = { parallelism := 2, free := 2 } := by cases started; rfl
  have possible : (follow (fun _ _ => true) (step fun _ => ()) { parallelism := 2, free := 2 } drainedSteps).any
      fun q => q.raised && q.driver matches .finished (.ok 2) := by decide +kernel
  have taken : (chronicle (fun _ => ()) { parallelism := 2, free := 2 } {} drainedSteps).taken = [0, 1] := by
    decide +kernel
  obtain ⟨q, followed, here⟩ := (Option.any_eq_true ..).1 possible
  simp only [Bool.and_eq_true] at here
  obtain ⟨raised, ended⟩ := here
  have driver : q.driver = .finished (.ok 2) := by
    split at ended
    · assumption
    · cases ended
  obtain ⟨-, -, exact, -⟩ := drains _ q (path_of_follow followed)
  obtain ⟨total, begun, ended, log⟩ := exact 2 driver
  exact ⟨_, q, started, followed, raised, driver, taken, total, begun, by simpa [taken] using ended, log⟩

end Steps
end ChainArchive.Pipeline
