import ChainArchive.Pool.Shutdown
import ChainArchive.Proofs.Pool.Faults

/-!
# Shutdown drains

A request that has entered a mailbox stays with the worker, whether its asker
waits or not, and a closed pool takes nothing more in. The one who waits for the
workers passes a worker when nothing is with it any more, which is so of a lost
one at once. So when shutdown returns each worker has handled all that entered
its mailbox, or all up to the request that made it panic.
-/

namespace ChainArchive.Pool
set_option autoImplicit false

variable {ρ α ε : Type} {p q c : Pool ρ α ε} {actions : List (Action ρ α ε)} {k : Nat}

/-- The worker has nothing at hand and nothing in its mailbox, so without an arrival it stays as it is. -/
theorem Worker.Next.eq_of_isIdle {w v : Worker α ε} (next : w.Next none v) (idle : w.isIdle = true) : v = w := by
  obtain ⟨empty, free⟩ : w.mailbox = [] ∧ w.current = none := by simpa [isIdle] using idle
  cases next with
  | same => rfl
  | take waiting => simp [empty] at waiting
  | finish busy | panic busy => simp [free] at busy

theorem name_of_moves {action : Action ρ α ε} (moves : Moves p action q) : q.name = p.name := by
  cases moves with
  | finish =>
    unfold conclude
    split <;> rfl
  | _ => rfl

/-- What has become of the requests that entered the mailbox of a worker, once the worker has nothing more to do. -/
structure Drained (p : Pool ρ α ε) (w : Worker α ε) (entered : List Nat) : Prop where
  /-- If nothing made it panic, it has handled them all, in order. -/
  all : (∀ entry ∈ w.handled, entry.2 ≠ .panic) → w.handled.map Prod.fst = entered
  /-- If one made it panic, it has handled those up to this one, in order, and nobody has handled those after it. -/
  upTo : ∀ i, (i, .panic) ∈ w.handled → ∃ before after, entered = before ++ i :: after ∧
    w.handled.map Prod.fst = before ++ [i] ∧ ∀ j ∈ after, p.handlings j = []
  /-- None came twice, -/
  distinct : entered.Nodup
  /-- and none was handled twice. -/
  once : ∀ i ∈ w.handled.map Prod.fst, ∃ handling, p.handlings i = [handling]

/-- A request that entered a mailbox and is not in the books of its worker was never handled. -/
theorem Books.handlings_eq_nil (h : Books p actions) {w : Worker α ε} (there : p.workers[k]? = some w) {i : Nat}
    (entered : i ∈ p.entered k actions) (fresh : i ∉ w.handled.map Prod.fst) : p.handlings i = [] := by
  rw [handlings, List.map_eq_nil_iff, List.filter_eq_nil_iff]
  rintro ⟨j, handling⟩ member same
  obtain rfl : j = i := beq_iff_eq.1 same
  obtain ⟨v, inside, written⟩ := List.mem_flatMap.1 member
  obtain ⟨l, there'⟩ := List.mem_iff_getElem?.1 inside
  have handled : j ∈ v.handled.map Prod.fst := List.mem_map_of_mem written
  have here := (List.mem_filter.1 entered).2
  have dealt := (h.of_undertaken there' (List.mem_append_left _ handled)).2
  obtain ⟨a, found, mine⟩ := (Option.any_eq_true ..).1 here
  rw [isDealt, found, Option.any_some] at dealt
  obtain rfl : k = l := (beq_iff_eq.1 mine).symm.trans (beq_iff_eq.1 dealt)
  rw [there, Option.some.injEq] at there'
  exact fresh (there' ▸ handled)

/-- A worker that has nothing more to do has handled all that entered its mailbox, or all up to the request that made it
panic. -/
theorem Books.drained (h : Books p actions) {w : Worker α ε} (there : p.workers[k]? = some w) (sound : w.Sound)
    (idle : w.isIdle = true) : Drained p w (p.entered k actions) := by
  obtain ⟨empty, free⟩ : w.mailbox = [] ∧ w.current = none := by simpa [Worker.isIdle] using idle
  have distinct : (p.entered k actions).Nodup := h.once.filter _
  refine ⟨fun calm => ?_, fun i panicked => ?_, distinct, fun i handled => ?_⟩
  · rw [← h.whole k w there (sound.alive_iff.2 calm)]
    simp [Worker.undertaken, empty, free]
  · cases alive : w.alive with
    | true => exact absurd rfl (sound.calm alive _ panicked)
    | false =>
      -- the request that made it panic is the last one in its books
      obtain ⟨-, -, done, j, handled, calm⟩ := sound.lost alive
      rw [handled, List.mem_append, List.mem_singleton] at panicked
      obtain rfl : i = j := by
        rcases panicked with before | last
        · exact absurd rfl (calm _ before)
        · exact (Prod.mk.inj last).1
      have books : w.handled.map Prod.fst = done.map Prod.fst ++ [i] := by simp [handled]
      obtain ⟨after, entered⟩ := h.received k w there
      replace entered : p.entered k actions = w.handled.map Prod.fst ++ after := by
        rw [← entered]
        simp [Worker.undertaken, empty, free]
      refine ⟨done.map Prod.fst, after, by rw [entered, books, List.append_assoc, List.singleton_append], books,
        fun j later => h.handlings_eq_nil there (entered ▸ List.mem_append_right _ later) fun before => ?_⟩
      exact List.disjoint_of_nodup_append (entered ▸ distinct) before later
  · obtain ⟨⟨_, handling⟩, written, rfl⟩ := List.mem_map.1 handled
    exact ⟨handling, h.handlings_eq there written⟩

namespace Shutdown

variable {s t : Shutdown ρ α ε} {action : Action α ε}

/-! ## What a step can be -/

/-- A worker goes on, or one that has ended is passed by. -/
inductive Moves (s : Shutdown ρ α ε) : Shutdown ρ α ε → Prop
  | work {action : Pool.Action ρ α ε} {q : Pool ρ α ε} : Pool.Moves s.pool action q → action.isOwn = true →
      entering? action = none → Moves s { s with pool := q }
  | idle {w : Worker α ε} : s.pool.workers[s.joined]? = some w → w.alive = true → w.isIdle = true →
      Moves s { s with joined := s.joined + 1 }
  | lost {w : Worker α ε} : s.pool.workers[s.joined]? = some w → w.alive = false →
      Moves s { s with joined := s.joined + 1, notes := s.notes ++ [.workerPanicked s.pool.name] }

theorem moves_of_step (h : s.step action = some t) : Moves s t := by
  cases action with
  | take | finish =>
    simp only [step, Option.bind_eq_bind, Option.bind_eq_some_iff, Option.pure_def, Option.some.injEq] at h
    obtain ⟨q, worked, rfl⟩ := h
    exact .work (Pool.moves_of_step worked) rfl rfl
  | join =>
    simp only [step, Option.bind_eq_bind, Option.bind_eq_some_iff] at h
    obtain ⟨w, there, h⟩ := h
    split at h
    · next alive =>
      simp only [Option.ite_none_right_eq_some, Option.pure_def, Option.some.injEq] at h
      obtain ⟨idle, rfl⟩ := h
      exact .idle there alive idle
    · next gone =>
      cases h
      exact .lost there (by simpa using gone)

theorem size_pool_of_moves (moves : Moves s t) : t.pool.size = s.pool.size := by
  cases moves with
  | work worked => exact size_of_moves worked
  | idle | lost => rfl

/-! ## What holds while a pool is shut down -/

/-- The closed pool keeps its books of what entered, and the workers that have been waited for have nothing to do. -/
structure Draining (entered : Nat → List Nat) (s : Shutdown ρ α ε) : Prop where
  regular : Regular s.pool
  closed : s.pool.closing = true
  books : ∃ came, Books s.pool came ∧ ∀ k, s.pool.entered k came = entered k
  inside : s.joined ≤ s.pool.size
  waited : ∀ w ∈ s.pool.workers.take s.joined, w.isIdle = true
  notes : s.notes = ((s.pool.workers.take s.joined).filter fun w => !w.alive).map fun _ => .workerPanicked s.pool.name

namespace Draining

variable {entered : Nat → List Nat}

theorem start {came : List (Pool.Action ρ α ε)} (regular : Regular p) (books : Books p came)
    (h : p.step .close = some c) : Draining (p.entered · came) { pool := c : Shutdown ρ α ε } := by
  have moves := Pool.moves_of_step h
  refine ⟨regular.moves moves, ?_, ⟨_, books.step moves, fun k => ?_⟩, Nat.zero_le _, by simp, by simp⟩
  · cases moves
    rfl
  · simp [books.entered_step moves, entering?]

/-- A worker that has been waited for stays as it is. -/
theorem take_workers (h : Draining entered s) {action : Pool.Action ρ α ε} (worked : Pool.Moves s.pool action q)
    (noEntry : entering? action = none) : q.workers.take s.joined = s.pool.workers.take s.joined := by
  have length := length_workers worked
  refine List.ext_getElem (by simp [length]) fun k now before => ?_
  have bound : k < q.workers.length := Nat.lt_of_lt_of_le now (List.length_take_le' ..)
  obtain ⟨w, here, next⟩ := worker_of_moves worked (List.getElem?_eq_getElem bound)
  obtain ⟨_, rfl⟩ := List.getElem?_eq_some_iff.1 here
  rw [noEntry] at next
  rw [List.getElem_take, List.getElem_take]
  exact next.eq_of_isIdle (h.waited _ (List.getElem_take ▸ List.getElem_mem before))

/-- The next worker is passed by if it has nothing to do. -/
theorem pass (h : Draining entered s) {w : Worker α ε} (there : s.pool.workers[s.joined]? = some w)
    (idle : w.isIdle = true) : Draining entered { s with
      joined := s.joined + 1, notes := s.notes ++ if w.alive then [] else [.workerPanicked s.pool.name] } := by
  have next : s.pool.workers.take (s.joined + 1) = s.pool.workers.take s.joined ++ [w] := by
    rw [List.take_add_one, there, Option.toList_some]
  refine ⟨h.regular, h.closed, h.books, (List.getElem?_eq_some_iff.1 there).1, ?_, ?_⟩
  · rw [next]
    exact List.forall_mem_append.2 ⟨h.waited, by simpa using idle⟩
  · rw [next, List.filter_append, List.map_append, ← h.notes]
    cases alive : w.alive <;> simp [alive]

theorem moves (h : Draining entered s) (moves : Moves s t) : Draining entered t := by
  cases moves with
  | @work action q worked _ noEntry =>
    obtain ⟨came, books, same⟩ := h.books
    refine ⟨h.regular.moves worked, closing_of_moves worked h.closed, ⟨_, books.step worked, fun k => ?_⟩,
      (size_of_moves worked).symm ▸ h.inside, ?_, ?_⟩
    · simp [books.entered_step worked, noEntry, same]
    · rw [h.take_workers worked noEntry]
      exact h.waited
    · rw [h.notes, h.take_workers worked noEntry, name_of_moves worked]
  | idle there alive idle => simpa [alive] using h.pass there idle
  | lost there gone => simpa [gone] using h.pass there ((h.regular.sound _ _ there).isIdle_of_lost gone)

theorem path {further : List (Action α ε)} (h : Draining entered s) (path : Path (Steps step) s further t) :
    Draining entered t :=
  path.invariant h fun _ _ _ h step => h.moves (moves_of_step step)

end Draining

/-! ## Shutdown comes to its end -/

/-- How many steps shutdown can still take. -/
def ahead (s : Shutdown ρ α ε) : Nat := s.pool.cost + (s.pool.size - s.joined)

theorem ahead_lt_of_moves (inside : s.joined ≤ s.pool.size) (moves : Moves s t) : t.ahead < s.ahead := by
  cases moves with
  | work worked own =>
    have less := cost_lt_of_moves worked own
    have size := size_of_moves worked
    simp only [ahead]
    omega
  | idle there | lost there =>
    have bound := (List.getElem?_eq_some_iff.1 there).1
    simp only [ahead, size] at inside ⊢
    omega

theorem length_le_ahead {entered : Nat → List Nat} (h : Draining entered s) {further : List (Action α ε)}
    (path : Path (Steps step) s further t) : further.length ≤ s.ahead := by
  have bound := path.length_le (P := Draining entered) ahead (fun _ _ _ h step =>
    ⟨h.moves (moves_of_step step), ahead_lt_of_moves h.inside (moves_of_step step)⟩) h
  exact Nat.le_of_add_right_le bound.2

/-- One that is lost is passed by at once. -/
theorem joins_lost {w : Worker α ε} (there : s.pool.workers[s.joined]? = some w) (gone : w.alive = false) :
    ∃ t, s.step .join = some t := ⟨_, by simp [step, there, gone]; rfl⟩

/-- As long as shutdown has not returned, the worker that is waited for has ended, or it goes on: it takes a request up, or
it is at one, whose handling may end in any way. -/
theorem goes_on {entered : Nat → List Nat} (h : Draining entered s) (waits : s.hasReturned = false) :
    (∃ t, s.step .join = some t) ∨ (∃ t, s.step (.take s.joined) = some t) ∨
      ∀ handling, ∃ t, s.step (.finish s.joined handling) = some t := by
  have inside : s.joined < s.pool.workers.length :=
    Nat.lt_of_le_of_ne h.inside (beq_eq_false_iff_ne.1 waits)
  obtain ⟨w, there⟩ : ∃ w, s.pool.workers[s.joined]? = some w := ⟨_, List.getElem?_eq_getElem inside⟩
  cases alive : w.alive with
  | false => exact .inl (joins_lost there alive)
  | true =>
    cases busy : w.current with
    | some i =>
      refine .inr (.inr fun handling => ?_)
      cases handling <;> exact ⟨_, by simp [step, Pool.step, there, busy]; rfl⟩
    | none =>
      cases mailbox : w.mailbox with
      | nil => exact .inl ⟨_, by simp [step, there, alive, Worker.isIdle, busy, mailbox]; rfl⟩
      | cons i rest => exact .inr (.inl ⟨_, by simp [step, Pool.step, there, alive, busy, mailbox]; rfl⟩)

/-- When shutdown has returned, all workers have been waited for. -/
theorem Draining.isIdle {entered : Nat → List Nat} (h : Draining entered s) (returned : s.hasReturned = true) :
    ∀ w ∈ s.pool.workers, w.isIdle = true := by
  have all := h.waited
  rwa [beq_iff_eq.1 returned, size, List.take_length] at all

theorem Draining.isDown {entered : Nat → List Nat} (h : Draining entered s) (returned : s.hasReturned = true) :
    s.pool.isDown = true := by
  rw [Pool.isDown, h.closed, Bool.true_and, List.all_eq_true]
  intro w member
  rw [h.isIdle returned w member, Bool.true_or]

theorem Draining.drained {entered : Nat → List Nat} (h : Draining entered s) (returned : s.hasReturned = true) (k : Nat)
    (w : Worker α ε) (there : s.pool.workers[k]? = some w) : Drained s.pool w (entered k) := by
  obtain ⟨came, books, same⟩ := h.books
  exact same k ▸ books.drained there (h.regular.sound k w there) (h.isIdle returned w (List.mem_of_getElem? there))

/-- When shutdown has returned, it has logged one event for each worker that is lost, and one at the end. -/
theorem Draining.farewell_eq {entered : Nat → List Nat} (h : Draining entered s) (returned : s.hasReturned = true) :
    s.pool.farewell = s.notes ++ [.poolShutDown s.pool.name] := by
  rw [farewell, h.notes, beq_iff_eq.1 returned, size, List.take_length]

/-! ## Running a shutdown -/

/-- If all workers have nothing more to do, one after the other is waited for. -/
theorem path_of_isIdle (idle : ∀ (k : Nat) (w : Worker α ε), c.workers[k]? = some w → w.isIdle = true) {n : Nat}
    (inside : n ≤ c.size) : ∃ notes, Path (Steps step) { pool := c } (List.replicate n (.join : Action α ε))
      { pool := c, joined := n, notes := notes } := by
  induction n with
  | zero => exact ⟨[], .nil _⟩
  | succ n ih =>
    obtain ⟨notes, path⟩ := ih (Nat.le_of_succ_le inside)
    have there : c.workers[n]? = some c.workers[n] := List.getElem?_eq_getElem inside
    have done := idle n _ there
    rw [List.replicate_succ']
    cases alive : c.workers[n].alive with
    | true =>
      exact ⟨notes, path.append (.cons (by simp [Steps, step, there, alive, done]) (.nil _))⟩
    | false => exact ⟨_, path.append (.cons (by simp only [Steps, step, there]; simp [alive]; rfl) (.nil _))⟩

end Shutdown

/-- Shutting a pool down is one way for shutdown to go: the pool comes to rest, nobody asks any more, and one worker
after the other is waited for. -/
theorem shutdown_eq [DecidableEq α] [DecidableEq ε] {handle : ρ → Handling α ε} {name : String} {size : Nat}
    (started : (start name size).result = .ok p) (staffed : 0 < p.size) (reach : Reachable (Obeying handle) p q) :
    ∃ r c further s, Reachable (Obeying handle) q r ∧ r.step .close = some c ∧
      Path (Steps Shutdown.step) { pool := c } further s ∧ s.hasReturned = true ∧
      q.shutdown (fun _ request => some (handle request)) =
        { s.pool with log := s.pool.log ++ (s.notes ++ [.poolShutDown s.pool.name]) } := by
  have whole := reach.of_restricted
  generalize ran : q.run (fun _ request => some (handle request)) = r
  obtain ⟨own, rests⟩ : Reachable (Obeying handle) q r ∧ r.nextAction (fun _ request => some (handle request)) = none :=
    ran ▸ rests_run (cost_le_bound started whole)
  -- all workers have nothing to do, and nobody asks
  have obedient : Obedient handle r := by
    obtain ⟨actions, path⟩ := reach.trans own
    exact (Obedient.start started).path path
  have size : r.size = p.size := (reach.trans own).of_restricted.invariant (P := fun r => r.size = p.size) rfl
    fun _ _ _ same step => (size_of_moves (moves_of_step step)).trans same
  have quiet : r.asks.any Ask.isPending = false := by
    rw [List.any_eq_false]
    intro a member
    obtain ⟨k, found⟩ := List.mem_iff_getElem?.1 member
    simp [obedient.over_of_rest (size ▸ staffed) rests found]
  have closes : r.step .close = some { r with closing := true } := by simp [step, quiet]
  -- closing the mailboxes gives nobody anything to do
  have stays : ({ r with closing := true } : Pool ρ α ε).run (fun _ request => some (handle request)) =
      { r with closing := true } := by
    have rests' : ({ r with closing := true } : Pool ρ α ε).advance (fun _ request => some (handle request)) = none := by
      rw [advance, show nextAction _ { r with closing := true } = nextAction _ r from rfl, rests, Option.bind_none]
    unfold run
    generalize bound _ = fuel
    cases fuel with
    | zero => rfl
    | succ fuel => rw [settle, rests']
  obtain ⟨notes, path⟩ := Shutdown.path_of_isIdle (c := { r with closing := true })
    (fun k w there => obedient.isIdle_of_rest rests there) (Nat.le_refl _)
  obtain ⟨came, books⟩ := obedient.books
  have draining := (Shutdown.Draining.start obedient.toRegular books closes).path path
  refine ⟨r, _, _, _, own, closes, path, beq_self_eq_true _, ?_⟩
  rw [← draining.farewell_eq (beq_self_eq_true _)]
  simp only [shutdown, ran, closes, Option.getD_some, stays]

/-! ## The whole -/

/-- Shutdown takes no more steps than there are requests to handle and workers to wait for. As long as it has not
returned, the worker that it waits for has ended, or goes on, whatever has become of the others; one that is lost is
passed by at once. When it has returned, it has waited for all workers. One in which nothing has panicked has handled all
requests that entered its mailbox, whether their askers are still there or not, each of them once, and one that is lost
exactly those up to the one that made it panic. -/
theorem shutdown_drains (name : String) {size : Nat} (positive : 0 < size) :
    ∃ p : Pool ρ α ε, (start name size).result = .ok p ∧
      ∀ actions q c, Path (Steps step) p actions q → q.step .close = some c →
        ∀ further s, Path (Steps Shutdown.step) { pool := c } further s →
          further.length ≤ 4 * q.asks.length + size ∧
          (s.hasReturned = false → (∃ t, s.step .join = some t) ∨ (∃ t, s.step (.take s.joined) = some t) ∨
            ∀ handling, ∃ t, s.step (.finish s.joined handling) = some t) ∧
          (∀ w, s.pool.workers[s.joined]? = some w → w.alive = false → ∃ t, s.step .join = some t) ∧
          (s.hasReturned = true → s.joined = size ∧ s.pool.isDown = true ∧
            s.notes = (s.pool.workers.filter fun w => !w.alive).map (fun _ => .workerPanicked s.pool.name) ∧
            ∀ (k : Nat) (w : Worker α ε), s.pool.workers[k]? = some w → Drained s.pool w (q.entered k actions)) := by
  have started : (start name size : Attempt PoolError (Pool ρ α ε)).result =
      .ok { name, workers := List.replicate size {} } := by
    rw [start, if_neg (Nat.ne_of_gt positive)]
    rfl
  refine ⟨_, started, fun actions q c path closes further s path' => ?_⟩
  have reach : Reachable (Steps step) _ q := ⟨actions, path⟩
  have books : Books q actions := (Books.start started).path path
  have draining := Shutdown.Draining.start ((Regular.start started).reachable reach) books closes
  have drains := draining.path path'
  have sizes : c.size = size := reach.tail closes |>.invariant (P := fun r => r.size = size) List.length_replicate
    fun _ _ _ same step => (size_of_moves (moves_of_step step)).trans same
  refine ⟨?_, fun waits => Shutdown.goes_on drains waits, fun w there gone => Shutdown.joins_lost there gone,
    fun returned => ⟨?_, drains.isDown returned, ?_, drains.drained returned⟩⟩
  · have bound := Shutdown.length_le_ahead draining path'
    have cost := cost_le_bound started reach
    have same : c.cost = q.cost := by
      cases moves_of_step closes
      rfl
    simp only [Shutdown.ahead, Pool.bound, sizes, same] at bound cost
    omega
  · rw [beq_iff_eq.1 returned, ← sizes]
    exact path'.invariant (P := fun s => s.pool.size = c.size) rfl fun _ _ _ same step =>
      (Shutdown.size_pool_of_moves (Shutdown.moves_of_step step)).trans same
  · rw [drains.notes, beq_iff_eq.1 returned, Pool.size, List.take_length]

/-! ## An example -/

/-- Three ask a pool of two workers, and none of them waits for the answer. -/
def exampleLeft : List (Action Nat Nat String) :=
  [.ask 0 (.seconds 1), .ask 3 (.seconds 1), .ask 4 (.seconds 1), .enter 0, .enter 1, .enter 2, .expire 0, .cancel 1,
    .cancel 2]

/-- The first worker panics, with a request left in its mailbox. The second worker is waited for all the same. -/
def exampleShutdown : List (Shutdown.Action Nat String) :=
  [.take 0, .take 1, .finish 0 .panic, .join, .finish 1 (.reply 6), .join]

theorem shutdown_drains_example : ∃ (p q c : Pool Nat Nat String) (s : Shutdown Nat Nat String),
    (start "clerks" 2).result = .ok p ∧ Path (Steps step) p exampleLeft q ∧ q.step .close = some c ∧
      Path (Steps Shutdown.step) { pool := c } exampleShutdown s ∧ s.hasReturned = true ∧
      s.notes = [.workerPanicked "clerks"] ∧ s.pool.handlings 0 = [.panic] ∧ s.pool.handlings 1 = [.reply 6] ∧
      q.entered 0 exampleLeft = [0, 2] ∧ s.pool.handlings 2 = [] ∧
      ∀ (k : Nat) (w : Worker Nat String), s.pool.workers[k]? = some w → Drained s.pool w (q.entered k exampleLeft) := by
  obtain ⟨p, started, whole⟩ := shutdown_drains (ρ := Nat) (α := Nat) (ε := String) "clerks" Nat.two_pos
  obtain rfl : p = { name := "clerks", workers := [{}, {}] } := by cases started; rfl
  have possible : ∃ q c s, follow (fun _ _ => true) step ({ name := "clerks", workers := [{}, {}] } : Pool Nat Nat String)
      exampleLeft = some q ∧ q.step .close = some c ∧
      follow (fun _ _ => true) Shutdown.step { pool := c } exampleShutdown = some s ∧ s.hasReturned = true ∧
      s.notes = [.workerPanicked "clerks"] ∧ s.pool.handlings 0 = [.panic] ∧ s.pool.handlings 1 = [.reply 6] ∧
      q.entered 0 exampleLeft = [0, 2] ∧ s.pool.handlings 2 = [] :=
    ⟨_, _, _, rfl, rfl, rfl, rfl, rfl, rfl, rfl, rfl, rfl⟩
  obtain ⟨q, c, s, left, closes, followed, returned, notes, first, second, entered, third⟩ := possible
  have path := path_of_follow followed
  exact ⟨_, q, c, s, started, path_of_follow left, closes, path, returned, notes, first, second, entered, third,
    ((whole _ q c (path_of_follow left) closes _ s path).2.2.2 returned).2.2.2⟩

end ChainArchive.Pool
