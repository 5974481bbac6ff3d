import ChainArchive.Proofs.Pool.Mailboxes
import Mathlib.Algebra.Ring.Nat

/-!
# When a pool rests

An ask enters a mailbox, its request is taken out and handled, and its answer is
picked up: each of these steps is taken once for an ask, so what a pool can do by
itself is bounded by its asks. And nobody in it waits in vain. A worker has
something to do as long as a request is with it, and an ask finds room as soon as
the worker has nothing to do. If the workers never panic, a pool that can do
nothing more by itself has answered all of its asks.
-/

namespace ChainArchive.Pool
set_option autoImplicit false

variable {ρ α ε : Type} {p q : Pool ρ α ε} {action : Action ρ α ε} {handler : Handler ρ α ε}

/-! ## What is left to do -/

/-- How many steps an ask still takes, those of its worker not counted that has the request already. -/
def Phase.cost : Phase α ε → Nat
  | .waiting => 4
  | .queued | .answered _ => 1
  | .over _ | .cancelled => 0

/-- How many steps a worker takes for what it has. -/
def Worker.cost (w : Worker α ε) : Nat := 2 * w.mailbox.length + w.current.isSome.toNat

/-- How many steps a pool takes before it rests. -/
def cost (p : Pool ρ α ε) : Nat := (p.asks.map (·.phase.cost)).sum + (p.workers.map Worker.cost).sum

/-- What a sum comes to after one of its terms has been replaced. -/
theorem sum_map_set {β : Type} {f : β → Nat} {l : List β} {i : Nat} {a b : β} (found : l[i]? = some a) :
    ((l.set i b).map f).sum + f a = (l.map f).sum + f b := by
  induction l generalizing i with
  | nil => cases found
  | cons c l ih =>
    cases i with
    | zero =>
      cases found
      simp only [List.set_cons_zero, List.map_cons, List.sum_cons]
      omega
    | succ i =>
      have := ih (List.getElem?_cons_succ ▸ found)
      simp only [List.set_cons_succ, List.map_cons, List.sum_cons]
      omega

theorem cost_setPhase {i : Nat} {x : Phase α ε} {a : Ask ρ α ε} (found : p.asks[i]? = some a) :
    (p.setPhase i x).cost + a.phase.cost = p.cost + x.cost := by
  have := sum_map_set (f := fun a : Ask ρ α ε => a.phase.cost) (b := { a with phase := x }) found
  dsimp only at this
  simp only [cost, setPhase, List.modify_eq_set_getElem?, found, Option.map_eq_map, Option.map_some, Option.getD_some]
  omega

theorem cost_setWorker {k : Nat} {w v : Worker α ε} (there : p.workers[k]? = some w) :
    (p.setWorker k v).cost + w.cost = p.cost + v.cost := by
  have := sum_map_set (f := Worker.cost) (b := v) there
  simp only [cost, setWorker]
  omega

/-- An answer costs its asker no more than to wait for it. -/
theorem cost_conclude_le (p : Pool ρ α ε) (worker ask : Nat) (answer : Except ε α) :
    (p.conclude worker ask answer).cost ≤ p.cost := by
  unfold conclude
  split
  · next found =>
    have := cost_setPhase (x := .answered answer) found
    simp only [Phase.cost] at this
    omega
  · exact Nat.le_refl _

/-! ## What a pool does by itself -/

/-- The steps that a pool takes by itself. -/
def Action.isOwn : Action ρ α ε → Bool
  | .enter _ | .take _ | .finish .. | .receive _ | .notice _ => true
  | .ask .. | .expire _ | .cancel _ | .close => false

/-- Every step that a pool takes by itself leaves less to do. -/
theorem cost_lt_of_moves (moves : Moves p action q) (own : action.isOwn = true) : q.cost < p.cost := by
  cases moves with
  | @enter ask a w found there waits _ _ =>
    have entered := cost_setPhase (x := .queued) found
    have held := cost_setWorker (p := p.setPhase ask .queued) (v := { w with mailbox := w.mailbox ++ [ask] }) there
    simp only [waits, Phase.cost] at entered
    simp only [Worker.cost, List.length_append, List.length_singleton] at held
    omega
  | @take worker ask rest w there waiting idle _ =>
    have held := cost_setWorker (v := { w with mailbox := rest, current := some ask }) there
    simp only [Worker.cost, waiting, idle, List.length_cons, Option.isSome_none, Option.isSome_some, Bool.toNat_false,
      Bool.toNat_true] at held
    omega
  | @finish worker ask handling answer w there busy _ =>
    have held := cost_setWorker (v := { w with current := none, handled := w.handled ++ [(ask, handling)] }) there
    have told := cost_conclude_le
      (p.setWorker worker { w with current := none, handled := w.handled ++ [(ask, handling)] }) worker ask answer
    simp only [Worker.cost, busy, Option.isSome_none, Option.isSome_some, Bool.toNat_false, Bool.toNat_true] at held
    omega
  | @panic worker ask w there busy =>
    have held := cost_setWorker (v :=
      { w with current := none, handled := w.handled ++ [(ask, .panic)], mailbox := [], alive := false }) there
    simp only [Worker.cost, busy, List.length_nil, Option.isSome_none, Option.isSome_some, Bool.toNat_false,
      Bool.toNat_true] at held
    omega
  | @receive ask a answer found answered =>
    have picked := cost_setPhase (x := .over (resultOf answer)) found
    simp only [answered, Phase.cost] at picked
    omega
  | @notice ask a w found _ waits _ =>
    have told := cost_setPhase (x := .over (.error (.closed p.name))) found
    have : 0 < a.phase.cost := by
      unfold Ask.isWaiting at waits
      cases phase : a.phase <;> simp_all [Phase.cost]
    simp only [Phase.cost] at told this
    omega
  | ask | expire | cancel | close => cases own

/-- A new ask. -/
theorem cost_begin (p : Pool ρ α ε) (request : ρ) (timeout : Span) : (p.begin request timeout).cost = p.cost + 4 := by
  simp only [cost, begin, List.map_append, List.sum_append, List.map_singleton, List.sum_singleton, Phase.cost]
  omega

theorem length_asks_le (moves : Moves p action q) : p.asks.length ≤ q.asks.length := by
  cases moves with
  | ask => simp [begin]
  | @finish k j handling answer w =>
    obtain same | set := conclude_cases
      (p.setWorker k { w with current := none, handled := w.handled ++ [(j, handling)] }) k j answer
    · rw [same]
      exact Nat.le_refl _
    · rw [set]
      exact Nat.le_of_eq (List.length_modify ..).symm
  | enter | receive | notice | expire | cancel => exact Nat.le_of_eq (List.length_modify ..).symm
  | take | panic | close => exact Nat.le_refl _

/-- Who goes away leaves nothing more to do. -/
theorem cost_setPhase_le {i : Nat} {x : Phase α ε} {a : Ask ρ α ε} (found : p.asks[i]? = some a) (ended : x.cost = 0) :
    (p.setPhase i x).cost ≤ p.cost := by
  have left := cost_setPhase (x := x) found
  omega

/-- There is nothing to do but for the asks, and no more than four steps for each. -/
theorem cost_add_bound_le (moves : Moves p action q) : q.cost + p.bound ≤ p.cost + q.bound := by
  have grown : p.bound ≤ q.bound := Nat.mul_le_mul_left 4 (length_asks_le moves)
  cases own : action.isOwn with
  | true => exact Nat.add_le_add (Nat.le_of_lt (cost_lt_of_moves moves own)) grown
  | false =>
    cases moves with
    | ask =>
      rw [cost_begin]
      simp only [bound, begin, List.length_append, List.length_singleton]
      omega
    | expire found | cancel found => exact Nat.add_le_add (cost_setPhase_le found rfl) grown
    | close => exact Nat.add_le_add_left grown p.cost
    | enter | take | finish | panic | receive | notice => cases own

/-- A pool that has not been asked has nothing to do. -/
theorem cost_start {name : String} {size : Nat} (h : (Pool.start name size).result = .ok p) : p.cost = 0 := by
  unfold Pool.start at h
  split at h
  · cases h
  · cases h
    simp [cost, Worker.cost]

theorem cost_le_bound {name : String} {size : Nat} (h : (Pool.start name size).result = .ok p)
    (reach : Reachable (Steps step) p q) : q.cost ≤ q.bound := by
  refine reach.invariant (P := fun q => q.cost ≤ q.bound) (by simp [cost_start h]) fun _ _ _ few step => ?_
  have := cost_add_bound_le (moves_of_step step)
  omega

/-- A pool does no more than so much by itself. -/
theorem length_le_cost {actions : List (Action ρ α ε)} (path : Path (Steps step) p actions q)
    (own : ∀ action ∈ actions, action.isOwn = true) : actions.length ≤ p.cost := by
  have bound := path.restricted.length_le (P := fun _ => True) cost (fun _ a _ _ move =>
    ⟨trivial, cost_lt_of_moves (moves_of_step move.2) (own a move.1)⟩) trivial
  exact Nat.le_of_add_right_le bound.2

/-- What the pool is about to do is possible, and a worker does with a request what it is said to do. -/
theorem step_of_nextAction [DecidableEq α] [DecidableEq ε] (h : p.nextAction handler = some action) :
    action.isOwn = true ∧ p.obeys handler action = true ∧ ∃ q, p.step action = some q := by
  rcases Option.or_eq_some_iff.1 h with h | ⟨-, h⟩
  · obtain ⟨⟨a, ask⟩, member, h⟩ := List.exists_of_findSome?_eq_some h
    have found := List.mk_mem_zipIdx_iff_getElem?.1 member
    have notices (waits : a.phase = .waiting ∨ a.phase = .queued)
        (gone : (p.workers[a.worker]?).any (fun w => !w.alive) = true) : ∃ q, p.step (.notice ask) = some q := by
      obtain ⟨w, there, dead⟩ := (Option.any_eq_true ..).1 gone
      rw [Bool.not_eq_true'] at dead
      rcases waits with waits | waits <;> exact ⟨_, by simp [step, found, there, waits, dead]; rfl⟩
    cases phase : a.phase with
    | waiting =>
      simp only [phase] at h
      split at h
      · next gone =>
        cases h
        exact ⟨rfl, rfl, notices (.inl phase) gone⟩
      · simp only [Option.ite_none_right_eq_some, Option.some.injEq] at h
        obtain ⟨room, rfl⟩ := h
        obtain ⟨w, there, room⟩ := (Option.any_eq_true ..).1 room
        exact ⟨rfl, rfl, _, by
          simp only [step, found, there, phase, room, Option.bind_eq_bind, Option.bind_some, if_true]; rfl⟩
    | queued =>
      simp only [phase, Option.ite_none_right_eq_some, Option.some.injEq] at h
      obtain ⟨gone, rfl⟩ := h
      exact ⟨rfl, rfl, notices (.inr phase) gone⟩
    | answered answer =>
      simp only [phase, Option.some.injEq] at h
      subst h
      exact ⟨rfl, rfl, _, by simp only [step, found, phase, Option.bind_eq_bind, Option.bind_some]; rfl⟩
    | «over» | cancelled => simp [phase] at h
  · obtain ⟨⟨w, worker⟩, member, h⟩ := List.exists_of_findSome?_eq_some h
    have there := List.mk_mem_zipIdx_iff_getElem?.1 member
    cases busy : w.current with
    | some ask =>
      simp only [busy, Option.bind_eq_bind, Option.bind_eq_some_iff, Option.pure_def, Option.some.injEq] at h
      obtain ⟨a, found, handling, handled, rfl⟩ := h
      refine ⟨rfl, by simp [obeys, there, busy, found, handled], ?_⟩
      cases handling <;> exact ⟨_, by simp [step, there, busy]; rfl⟩
    | none =>
      simp only [busy, Option.ite_none_right_eq_some, Option.some.injEq, Bool.and_eq_true] at h
      obtain ⟨⟨alive, waiting⟩, rfl⟩ := h
      cases mailbox : w.mailbox with
      | nil => simp [mailbox] at waiting
      | cons ask rest =>
        exact ⟨rfl, rfl, _, by
          simp only [step, there, mailbox, busy, alive, Option.bind_eq_bind, Option.bind_some, if_true]; rfl⟩

/-- What a pool does by itself is what it may do, and it comes to rest. -/
theorem rests_run [DecidableEq α] [DecidableEq ε] (few : p.cost ≤ p.bound) :
    Reachable (Restricted (fun p action => p.obeys handler action = true) (Steps step)) p (p.run handler) ∧
      (p.run handler).nextAction handler = none := by
  obtain ⟨reach, rests⟩ := rests_settle
    (P := fun q => Reachable (Restricted (fun p action => p.obeys handler action = true) (Steps step)) p q) cost
    (fun q r reach (advances : q.advance handler = some r) => by
      obtain ⟨action, next, step⟩ := Option.bind_eq_some_iff.1 advances
      obtain ⟨own, obeyed, -⟩ := step_of_nextAction next
      exact ⟨reach.tail ⟨obeyed, step⟩, cost_lt_of_moves (moves_of_step step) own⟩)
    (.refl _ p) few
  refine ⟨reach, Option.eq_none_iff_forall_ne_some.2 fun action next => ?_⟩
  obtain ⟨-, -, s, step⟩ := step_of_nextAction next
  rw [advance, Option.bind_eq_none_iff] at rests
  exact absurd step (by rw [run, rests action next]; simp)

/-! ## A pool that serves -/

theorem result?_of_over {i : Nat} {a : Ask ρ α ε} {result : Except (AskError ε) α} (found : p.asks[i]? = some a)
    (ended : a.phase = .over result) : p.result? i = some result := by
  obtain ⟨request, timeout, worker, phase⟩ := a
  cases ended
  simp only [result?, found]

/-- A worker answers every request with a reply. -/
def Replies (handler : Handler ρ α ε) : Prop := ∀ worker request, ∃ reply, handler worker request = some (.reply reply)

/-- The ask is under way, or its reply has come. -/
def Phase.isServed : Phase α ε → Bool
  | .waiting | .queued | .answered (.ok _) | .over (.ok _) => true
  | _ => false

/-- All workers of an open pool are there, and every ask is with one of them or has its reply. -/
structure Serving (p : Pool ρ α ε) : Prop where
  isOpen : p.closing = false
  staffed : 0 < p.workers.length
  alive : ∀ (k : Nat) (w : Worker α ε), p.workers[k]? = some w → w.alive = true
  served : ∀ (i : Nat) (a : Ask ρ α ε), p.asks[i]? = some a → a.worker < p.workers.length ∧ a.phase.isServed = true
  books : ∃ actions, Books p actions

namespace Serving

theorem start {name : String} {size : Nat} (h : (Pool.start name size).result = .ok p) : Serving p := by
  have books := Books.start h
  unfold Pool.start at h
  split at h
  · cases h
  · next positive =>
    cases h
    refine ⟨rfl, by simpa using Nat.pos_of_ne_zero positive, fun k w there => ?_, by simp, [], books⟩
    rw [List.eq_of_mem_replicate (List.mem_of_getElem? there)]

/-- A pool goes on serving while it goes on by itself and is asked. -/
theorem moves [DecidableEq α] [DecidableEq ε] (h : Serving p) (replies : Replies handler)
    (allowed : p.obeys handler action = true) (own : action.isOwn = true ∨ ∃ request timeout, action = .ask request timeout)
    (moves : Moves p action q) : Serving q := by
  have books : ∃ actions, Books q actions := h.books.imp' (· ++ [action]) fun _ books => books.step moves
  have staffed : 0 < q.workers.length := length_workers moves ▸ h.staffed
  -- the asks after one of them has gone on
  have set (r : Pool ρ α ε) (asks : r.asks = p.asks) (i : Nat) {x : Phase α ε} (served : x.isServed = true) :
      ∀ (j : Nat) (b : Ask ρ α ε), (r.setPhase i x).asks[j]? = some b → b.worker < p.workers.length ∧ b.phase.isServed = true :=
    forall_setPhase (P := fun _ a => a.worker < p.workers.length ∧ a.phase.isServed = true)
      (fun j a before _ => h.served j a (asks ▸ before)) fun a before => ⟨(h.served i a (asks ▸ before)).1, served⟩
  -- the workers after one of them has gone on
  have work {k : Nat} {w : Worker α ε} (alive : w.alive = true) (j : Nat) (v : Worker α ε)
      (there : (p.setWorker k w).workers[j]? = some v) : v.alive = true := by
    rcases workers_setWorker there with ⟨-, rfl⟩ | ⟨-, there⟩
    · exact alive
    · exact h.alive j v there
  have length : q.workers.length = p.workers.length := length_workers moves
  cases moves with
  | ask =>
    refine ⟨h.isOpen, staffed, h.alive, fun i a found => ?_, books⟩
    simp only [begin, List.getElem?_append] at found
    split at found
    · exact h.served i a found
    · rw [List.getElem?_singleton] at found
      split at found <;> cases found
      exact ⟨Nat.mod_lt _ h.staffed, rfl⟩
  | @enter ask a w _ there _ alive =>
    exact ⟨h.isOpen, staffed, work alive, length ▸ set p rfl ask rfl, books⟩
  | take _ _ _ alive => exact ⟨h.isOpen, staffed, work alive, length ▸ h.served, books⟩
  | @finish worker ask handling answer w there busy answers =>
    -- the reply is the one that the handler gives
    obtain ⟨a, found, -⟩ := h.books.choose_spec.dealt there busy
    simp only [obeys, there, busy, Option.bind_some, found, Option.any_some, beq_iff_eq] at allowed
    obtain ⟨reply, replied⟩ := replies worker a.request
    obtain rfl : answer = .ok reply := by
      rw [replied, Option.some.injEq] at allowed
      simpa [← allowed, Handling.answer?] using answers.symm
    have alive := h.alive worker w there
    refine ⟨?_, staffed, ?_, ?_, books⟩
    · unfold conclude
      split <;> exact h.isOpen
    · rw [workers_conclude]
      exact work alive
    · rw [length]
      exact forall_conclude (p := p.setWorker worker _)
        (P := fun _ a => a.worker < p.workers.length ∧ a.phase.isServed = true)
        (fun j a before _ => h.served j a before) fun a before => ⟨(h.served ask a before).1, rfl⟩
  | @panic worker ask w there busy =>
    obtain ⟨a, found, -⟩ := h.books.choose_spec.dealt there busy
    simp only [obeys, there, busy, Option.bind_some, found, Option.any_some, beq_iff_eq] at allowed
    obtain ⟨reply, replied⟩ := replies worker a.request
    simp [replied] at allowed
  | @receive ask a answer found answered =>
    have served := (h.served ask a found).2
    rw [answered] at served
    cases answer with
    | ok reply => exact ⟨h.isOpen, staffed, h.alive, set p rfl ask rfl, books⟩
    | error => cases served
  | notice _ there _ gone => exact absurd (h.alive _ _ there) (by simp [gone])
  | expire | cancel | close => simp [Action.isOwn] at own

/-- An asker who has a result has a reply. -/
theorem ok_of_result (h : Serving p) {i : Nat} {result : Except (AskError ε) α} (told : p.result? i = some result) :
    ∃ reply, result = .ok reply := by
  unfold result? at told
  split at told
  · next found =>
    cases told
    have served := (h.served i _ found).2
    cases result with
    | ok reply => exact ⟨reply, rfl⟩
    | error => cases served
  · cases told

/-- A pool that can do nothing more by itself has answered all asks. -/
theorem replied_of_rest (h : Serving p) (replies : Replies handler) (rests : p.nextAction handler = none) (i : Nat)
    (a : Ask ρ α ε) (found : p.asks[i]? = some a) : ∃ reply, a.phase = .over (.ok reply) := by
  obtain ⟨asks, workers⟩ := Option.or_eq_none_iff.1 rests
  obtain ⟨actions, books⟩ := h.books
  obtain ⟨dealt, served⟩ := h.served i a found
  obtain ⟨w, there⟩ : ∃ w, p.workers[a.worker]? = some w := ⟨_, List.getElem?_eq_getElem dealt⟩
  have alive := h.alive a.worker w there
  -- the worker has nothing to do
  have idle : w.current = none ∧ w.mailbox = [] := by
    have nothing := List.findSome?_eq_none_iff.1 workers (w, a.worker) (List.mk_mem_zipIdx_iff_getElem?.2 there)
    cases busy : w.current with
    | some ask =>
      obtain ⟨b, found', -⟩ := books.dealt there busy
      obtain ⟨reply, handled⟩ := replies a.worker b.request
      simp [busy, found', handled] at nothing
    | none => simpa [busy, alive] using nothing
  have nothing := List.findSome?_eq_none_iff.1 asks (a, i) (List.mk_mem_zipIdx_iff_getElem?.2 found)
  cases phase : a.phase with
  | waiting => simp [phase, there, alive, idle.2, mailboxCapacity] at nothing
  | queued =>
    have held := books.queued i a found phase w there alive
    simp [Worker.held, idle.1, idle.2] at held
  | answered answer => simp [phase] at nothing
  | «over» result =>
    rw [phase] at served
    cases result with
    | ok reply => exact ⟨reply, rfl⟩
    | error => cases served
  | cancelled =>
    rw [phase] at served
    cases served

end Serving
end ChainArchive.Pool
