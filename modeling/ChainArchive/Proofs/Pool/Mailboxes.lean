import ChainArchive.Proofs.Pool.Replies
import Mathlib.Data.List.Nodup

/-!
# What becomes of a request

A request comes to the worker that its ask was dealt to by entering its mailbox,
once, since an ask that has left the entrance never comes back to it. The worker
takes up what is in its mailbox from the head, so what it was passed, what it is
at and what still waits are together what entered, in this order. The answer of
an ask is what its worker has written down for it, and only an asker that still
waits gets one.
-/

namespace ChainArchive.Pool
set_option autoImplicit false

variable {ρ α ε : Type}

/-- The requests that were passed to the worker, in order: those that it is done with and the one at hand. -/
def Worker.undertaken (w : Worker α ε) : List Nat := w.handled.map Prod.fst ++ w.current.toList

/-- The requests at hand and in the mailbox. -/
def Worker.held (w : Worker α ε) : List Nat := w.current.toList ++ w.mailbox

/-- The ask whose request is put into a mailbox. -/
def entering? : Action ρ α ε → Option Nat
  | .enter ask => some ask
  | _ => none

/-- The asks whose requests are put into mailboxes, in order. -/
def entries (actions : List (Action ρ α ε)) : List Nat := actions.filterMap entering?

/-- The ask was dealt to the worker. -/
def isDealt (p : Pool ρ α ε) (worker : Nat) (ask : Nat) : Bool := (p.asks[ask]?).any (·.worker == worker)

/-- The asks whose requests entered the mailbox of the worker in these actions, in order. -/
def entered (p : Pool ρ α ε) (worker : Nat) (actions : List (Action ρ α ε)) : List Nat :=
  (entries actions).filter (p.isDealt worker)

/-- The requests that were passed to some worker. -/
def undertaken (p : Pool ρ α ε) : List Nat := p.workers.flatMap Worker.undertaken

/-- How the handlings of an ask's request have ended. -/
def handlings (p : Pool ρ α ε) (ask : Nat) : List (Handling α ε) :=
  ((p.workers.flatMap Worker.handled).filter fun entry => entry.1 == ask).map Prod.snd

variable {p q : Pool ρ α ε} {action : Action ρ α ε}

/-! ## Asks -/

/-- What an ask can be after a step: the same one, that does not go back to the entrance and that keeps its result. -/
structure Ask.Later (a b : Ask ρ α ε) : Prop where
  worker : b.worker = a.worker
  entered : a.phase ≠ .waiting → b.phase ≠ .waiting
  settled : a.isPending = false → b = a

theorem Ask.Later.refl (a : Ask ρ α ε) : a.Later a := ⟨rfl, id, fun _ => rfl⟩

theorem Ask.Later.of_pending {a : Ask ρ α ε} {x : Phase α ε} (pending : a.isPending = true) (moved : x ≠ .waiting) :
    a.Later { a with phase := x } := ⟨rfl, fun _ => moved, fun settled => by simp [settled] at pending⟩

theorem Ask.isPending_of_isWaiting {a : Ask ρ α ε} (h : a.isWaiting = true) : a.isPending = true := by
  unfold Ask.isWaiting at h
  unfold Ask.isPending
  cases phase : a.phase <;> simp_all

/-- An asker that is still there gets its phase set by nothing else, so a later one is the same ask. -/
theorem later_setPhase {i j : Nat} {x : Phase α ε} {a b : Ask ρ α ε} (found : p.asks[i]? = some a)
    (pending : a.isPending = true) (moved : x ≠ .waiting) (before : p.asks[j]? = some b) :
    ∃ c, (p.setPhase i x).asks[j]? = some c ∧ b.Later c := by
  refine ⟨_, asks_setPhase before, ?_⟩
  split
  · next here =>
    subst here
    rw [found, Option.some.injEq] at before
    exact before ▸ .of_pending pending moved
  · exact .refl b

theorem later_conclude {worker i j : Nat} {answer : Except ε α} {b : Ask ρ α ε} (before : p.asks[j]? = some b) :
    ∃ c, (p.conclude worker i answer).asks[j]? = some c ∧ b.Later c := by
  unfold conclude
  split
  · next found => exact later_setPhase found rfl (by simp) before
  · exact ⟨b, before, .refl b⟩

/-- Asks stay, and go forward. -/
theorem later_of_moves (moves : Moves p action q) {i : Nat} {a : Ask ρ α ε} (found : p.asks[i]? = some a) :
    ∃ b, q.asks[i]? = some b ∧ a.Later b := by
  cases moves with
  | ask =>
    have bound := (List.getElem?_eq_some_iff.1 found).1
    exact ⟨a, by simpa [begin, List.getElem?_append_left bound] using found, .refl a⟩
  | enter here _ waits => exact later_setPhase here (by simp [Ask.isPending, waits]) (by simp) found
  | take | panic | close => exact ⟨a, found, .refl a⟩
  | finish => exact later_conclude found
  | receive here answered => exact later_setPhase here (by simp [Ask.isPending, answered]) (by simp) found
  | notice here _ waits | expire here waits =>
    exact later_setPhase here (Ask.isPending_of_isWaiting waits) (by simp) found
  | cancel here pending => exact later_setPhase here pending (by simp) found

/-! ## Workers -/

@[simp]
theorem workers_conclude (worker ask : Nat) (answer : Except ε α) :
    (p.conclude worker ask answer).workers = p.workers := by
  unfold conclude
  split <;> rfl

theorem workers_setWorker {i k : Nat} {w v : Worker α ε} (there : (p.setWorker i w).workers[k]? = some v) :
    i = k ∧ v = w ∨ i ≠ k ∧ p.workers[k]? = some v := by
  rw [setWorker, List.getElem?_set] at there
  split at there
  · next here =>
    split at there
    · exact .inl ⟨here, (Option.some.inj there).symm⟩
    · cases there
  · next other => exact .inr ⟨other, there⟩

/-- What a step makes of a worker's books, given what enters its mailbox: that is added at the end, the head of the
mailbox becomes the request at hand, that one is done with, or it was the last. -/
inductive Worker.Next (w : Worker α ε) : Option Nat → Worker α ε → Prop
  | same : Next w none w
  | enter {ask : Nat} : w.alive = true → w.mailbox.length < mailboxCapacity →
      Next w (some ask) { w with mailbox := w.mailbox ++ [ask] }
  | take {ask : Nat} {rest : List Nat} : w.mailbox = ask :: rest → w.current = none →
      Next w none { w with mailbox := rest, current := some ask }
  | finish {ask : Nat} {handling : Handling α ε} {answer : Except ε α} : w.current = some ask →
      handling.answer? = some answer →
      Next w none { w with current := none, handled := w.handled ++ [(ask, handling)] }
  | panic {ask : Nat} : w.current = some ask →
      Next w none { w with current := none, handled := w.handled ++ [(ask, .panic)], mailbox := [], alive := false }

/-- Every worker's books go on by these rules. -/
theorem worker_of_moves (moves : Moves p action q) {k : Nat} {v : Worker α ε} (there : q.workers[k]? = some v) :
    ∃ w, p.workers[k]? = some w ∧ w.Next ((entering? action).filter (p.isDealt k)) v := by
  cases moves with
  | ask | receive | notice | expire | cancel | close => exact ⟨v, there, .same⟩
  | @enter i a w found here waits alive room =>
    have dealt : p.isDealt k i = (a.worker == k) := by rw [isDealt, found, Option.any_some]
    rcases workers_setWorker there with ⟨rfl, rfl⟩ | ⟨other, there⟩
    · refine ⟨w, here, ?_⟩
      rw [entering?, Option.filter_some, dealt, beq_self_eq_true, if_pos rfl]
      exact .enter alive room
    · refine ⟨v, there, ?_⟩
      rw [entering?, Option.filter_some, dealt, beq_false_of_ne other, if_neg Bool.false_ne_true]
      exact .same
  | take here waiting idle alive =>
    rcases workers_setWorker there with ⟨rfl, rfl⟩ | ⟨-, there⟩
    · exact ⟨_, here, .take waiting idle⟩
    · exact ⟨v, there, .same⟩
  | finish here busy answers =>
    rw [workers_conclude] at there
    rcases workers_setWorker there with ⟨rfl, rfl⟩ | ⟨-, there⟩
    · exact ⟨_, here, .finish busy answers⟩
    · exact ⟨v, there, .same⟩
  | panic here busy =>
    rcases workers_setWorker there with ⟨rfl, rfl⟩ | ⟨-, there⟩
    · exact ⟨_, here, .panic busy⟩
    · exact ⟨v, there, .same⟩

namespace Worker.Next

variable {w v : Worker α ε} {arrival : Option Nat}

/-- What a worker received grows by what enters, unless it is gone. -/
theorem received (h : w.Next arrival v) : v.undertaken ++ v.mailbox <+: w.undertaken ++ w.mailbox ++ arrival.toList ∧
    (v.alive = true → w.alive = true ∧ v.undertaken ++ v.mailbox = w.undertaken ++ w.mailbox ++ arrival.toList) := by
  cases h with
  | same => simp
  | enter alive => simp [undertaken, alive]
  | take waiting idle => simp [undertaken, waiting, idle]
  | finish busy => simp [undertaken, busy]
  | panic busy => simp [undertaken, busy]

/-- Nothing enters the mailbox of a worker that is gone. -/
theorem alive {i : Nat} (h : w.Next (some i) v) : w.alive = true := by
  cases h
  assumption

/-- What is written down stays. -/
theorem handled (h : w.Next arrival v) : w.handled <+: v.handled := by
  cases h with
  | same | enter | take => exact List.prefix_rfl
  | finish | panic => exact List.prefix_append _ _

theorem room (h : w.Next arrival v) (room : w.mailbox.length ≤ mailboxCapacity) : v.mailbox.length ≤ mailboxCapacity := by
  cases h with
  | same | finish => exact room
  | enter _ free => simpa using Nat.succ_le_of_lt free
  | take waiting =>
    rw [waiting, List.length_cons] at room
    exact Nat.le_of_succ_le room
  | panic => exact Nat.zero_le _

end Worker.Next

/-! ## The books of a pool -/

/-- The worker of the ask has written down that its request was handled with this answer. -/
def HasWritten (p : Pool ρ α ε) (i : Nat) (a : Ask ρ α ε) (answer : Except ε α) : Prop :=
  ∃ w handling, p.workers[a.worker]? = some w ∧ (i, handling) ∈ w.handled ∧ handling.answer? = some answer

/-- What holds between the asks, the entries so far and the workers' books. -/
structure Books (p : Pool ρ α ε) (actions : List (Action ρ α ε)) : Prop where
  /-- Nothing enters twice. -/
  once : (entries actions).Nodup
  /-- What entered has left the entrance. -/
  entered : ∀ i ∈ entries actions, ∃ a, p.asks[i]? = some a ∧ a.phase ≠ .waiting
  /-- A worker gets what entered its mailbox, in this order; one that is gone did not get the rest. -/
  received : ∀ (k : Nat) (w : Worker α ε), p.workers[k]? = some w → w.undertaken ++ w.mailbox <+: p.entered k actions
  /-- While it is there, everything that entered is with the worker. -/
  whole : ∀ (k : Nat) (w : Worker α ε), p.workers[k]? = some w → w.alive = true →
    w.undertaken ++ w.mailbox = p.entered k actions
  room : ∀ (k : Nat) (w : Worker α ε), p.workers[k]? = some w → w.mailbox.length ≤ mailboxCapacity
  /-- An answer is what its worker has written down. -/
  answered : ∀ (i : Nat) (a : Ask ρ α ε), p.asks[i]? = some a → ∀ answer, a.phase.answer? = some answer →
    p.HasWritten i a answer
  /-- Who waits for an answer has the request with the worker, or the worker is gone. -/
  queued : ∀ (i : Nat) (a : Ask ρ α ε), p.asks[i]? = some a → a.phase = .queued →
    ∀ w, p.workers[a.worker]? = some w → w.alive = true → i ∈ w.held

/-- Asks are not dealt again, so what entered a mailbox is what entered it before, and what enters now. -/
theorem entered_append (moves : Moves p action q) {actions : List (Action ρ α ε)}
    (known : ∀ i ∈ entries actions, ∃ a, p.asks[i]? = some a) (k : Nat) :
    q.entered k (actions ++ [action]) = p.entered k actions ++ ((entering? action).filter (p.isDealt k)).toList := by
  have same : ∀ i a, p.asks[i]? = some a → q.isDealt k i = p.isDealt k i := by
    intro i a found
    obtain ⟨b, later, kept⟩ := later_of_moves moves found
    rw [isDealt, isDealt, found, later, Option.any_some, Option.any_some, kept.worker]
  have before : (entries actions).filter (q.isDealt k) = (entries actions).filter (p.isDealt k) :=
    List.filter_congr fun i member => by
      obtain ⟨a, found⟩ := known i member
      exact same i a found
  have now : (entries [action]).filter (q.isDealt k) = ((entering? action).filter (p.isDealt k)).toList := by
    cases moves with
    | @enter i a w found =>
      rw [entries, List.filterMap_cons, entering?, List.filterMap_nil, Option.filter_some, List.filter_cons,
        List.filter_nil, same i a found]
      split <;> simp_all
    | _ => rfl
  rw [Pool.entered, entries, List.filterMap_append, List.filter_append]
  exact congrArg₂ (· ++ ·) before now

/-- What holds of the asks whose phase is not set, and of the one whose phase is. -/
theorem forall_setPhase {P : Nat → Ask ρ α ε → Prop} {i : Nat} {x : Phase α ε}
    (old : ∀ j a, p.asks[j]? = some a → j ≠ i → P j a)
    (new : ∀ a, p.asks[i]? = some a → P i { a with phase := x }) (j : Nat) (b : Ask ρ α ε)
    (found : (p.setPhase i x).asks[j]? = some b) : P j b := by
  obtain ⟨a, before, -⟩ := asks_of_setPhase found
  rw [asks_setPhase before, Option.some.injEq] at found
  split at found
  · next here =>
    subst here found
    exact new a before
  · next other => exact old j b (found ▸ before) (Ne.symm other)

/-- An answer goes to the ask that waits for it, if it does. -/
theorem forall_conclude {P : Nat → Ask ρ α ε → Prop} {worker i : Nat} {answer : Except ε α}
    (old : ∀ j a, p.asks[j]? = some a → (j = i → a.phase ≠ .queued) → P j a)
    (new : ∀ a, p.asks[i]? = some a → P i { a with phase := .answered answer }) (j : Nat) (b : Ask ρ α ε)
    (found : (p.conclude worker i answer).asks[j]? = some b) : P j b := by
  unfold conclude at found
  split at found
  · exact forall_setPhase (fun j a before other => old j a before fun here => absurd here other) new j b found
  · next other =>
    refine old j b found ?_
    rintro rfl waits
    obtain ⟨request, timeout, worker, phase⟩ := b
    cases waits
    exact other _ _ _ found

theorem length_workers (moves : Moves p action q) : q.workers.length = p.workers.length := by
  cases moves with
  | ask | receive | notice | expire | cancel | close => rfl
  | enter | take | panic => exact List.length_set
  | finish => rw [workers_conclude]; exact List.length_set

/-- What is written down about an ask stays. -/
theorem HasWritten.moves {i : Nat} {a : Ask ρ α ε} {answer : Except ε α} (h : p.HasWritten i a answer)
    (moves : Moves p action q) : q.HasWritten i a answer := by
  obtain ⟨w, handling, there, written, answers⟩ := h
  have bound := (List.getElem?_eq_some_iff.1 there).1
  rw [← length_workers moves] at bound
  obtain ⟨w', here, next⟩ := worker_of_moves moves (List.getElem?_eq_getElem bound)
  rw [there, Option.some.injEq] at here
  exact ⟨_, handling, List.getElem?_eq_getElem bound, next.handled.subset (here ▸ written), answers⟩

namespace Books

variable {actions : List (Action ρ α ε)}

theorem start {name : String} {size : Nat} (h : (Pool.start name size).result = .ok p) : Books p [] := by
  unfold Pool.start at h
  split at h
  · cases h
  · cases h
    have fresh : ∀ (k : Nat) (w : Worker α ε), (List.replicate size ({} : Worker α ε))[k]? = some w → w = {} :=
      fun k w there => List.eq_of_mem_replicate (List.mem_of_getElem? there)
    refine ⟨List.nodup_nil, by simp [entries], ?_, ?_, ?_, by simp, by simp⟩
    · rintro k w there
      rw [fresh k w there]
      exact List.prefix_rfl
    · rintro k w there -
      rw [fresh k w there]
      rfl
    · rintro k w there
      rw [fresh k w there]
      exact Nat.zero_le _

/-- The request at hand belongs to an ask that was dealt to the worker. -/
theorem dealt (h : Books p actions) {k i : Nat} {w : Worker α ε} (there : p.workers[k]? = some w)
    (busy : w.current = some i) : ∃ a, p.asks[i]? = some a ∧ a.worker = k := by
  have member : i ∈ p.entered k actions :=
    (h.received k w there).subset (by simp [Worker.undertaken, busy])
  obtain ⟨a, found, dealt⟩ := (Option.any_eq_true ..).1 (List.mem_filter.1 member).2
  exact ⟨a, found, beq_iff_eq.1 dealt⟩

/-- Every step keeps the answers written down. -/
theorem answered_step (h : Books p actions) (moves : Moves p action q) (i : Nat) (a : Ask ρ α ε)
    (found : q.asks[i]? = some a) (answer : Except ε α) (answers : a.phase.answer? = some answer) :
    q.HasWritten i a answer := by
  have old : ∀ (j : Nat) (b : Ask ρ α ε), p.asks[j]? = some b → ∀ answer, b.phase.answer? = some answer →
      q.HasWritten j b answer := fun j b before answer answers => (h.answered j b before answer answers).moves moves
  cases moves with
  | ask =>
    simp only [begin, List.getElem?_append] at found
    split at found
    · exact old i a found answer answers
    · rw [List.getElem?_singleton] at found
      split at found <;> cases found
      cases answers
  | take | panic | close => exact old i a found answer answers
  | enter | notice | expire | cancel =>
    exact forall_setPhase (fun j b before _ => old j b before) (by simp [Phase.answer?]) i a found answer answers
  | @receive j b result here given =>
    refine forall_setPhase (fun j b before _ => old j b before) (fun b' before answer answers => ?_) i a found answer answers
    have same : b'.phase.answer? = some answer := by
      rw [here, Option.some.injEq] at before
      rw [← before, given]
      cases result <;> exact answers
    exact old j b' before answer same
  | @finish k j handling result w there busy given =>
    refine forall_conclude (p := p.setWorker k _) (fun j b before _ => old j b before) (fun b before answer answers => ?_)
      i a found answer answers
    obtain ⟨b', before', rfl⟩ := h.dealt there busy
    obtain rfl : b = b' := Option.some.inj (Eq.trans (Eq.symm before) before')
    have bound := (List.getElem?_eq_some_iff.1 there).1
    exact ⟨{ w with current := none, handled := w.handled ++ [(j, handling)] }, handling, by simp [setWorker, bound],
      by simp, given.trans answers⟩

/-- Every step keeps the requests of those who wait for an answer with their workers. -/
theorem queued_step (h : Books p actions) (moves : Moves p action q) (i : Nat) (a : Ask ρ α ε)
    (found : q.asks[i]? = some a) (waits : a.phase = .queued) (v : Worker α ε) (there : q.workers[a.worker]? = some v)
    (alive : v.alive = true) : i ∈ v.held := by
  cases moves with
  | ask =>
    simp only [begin, List.getElem?_append] at found
    split at found
    · exact h.queued i a found waits v there alive
    · rw [List.getElem?_singleton] at found
      split at found <;> cases found
      cases waits
  | close => exact h.queued i a found waits v there alive
  | receive | notice | expire | cancel =>
    exact forall_setPhase (fun j b before _ => h.queued j b before) (by simp) i a found waits v there alive
  | @enter j b w source here _ live =>
    refine forall_setPhase (P := fun j b => b.phase = .queued → b.worker = a.worker → j ∈ v.held)
      (fun j' b' before _ waits same => ?_) (fun b' before _ same => ?_) i a found waits rfl
    · rcases workers_setWorker there with ⟨mine, rfl⟩ | ⟨-, there⟩
      · have held := h.queued j' b' before waits w (by rw [same, ← mine]; exact here) live
        exact List.mem_append.2 ((List.mem_append.1 held).imp_right (List.mem_append_left [j]))
      · exact h.queued j' b' before waits v (same ▸ there) alive
    · rcases workers_setWorker there with ⟨-, rfl⟩ | ⟨other, -⟩
      · simp [Worker.held]
      · exact absurd (by rw [← same, Option.some.inj (source.symm.trans before)]) other
  | take here waiting idle live =>
    rcases workers_setWorker there with ⟨mine, rfl⟩ | ⟨-, there⟩
    · have held := h.queued i a found waits _ (mine ▸ here) live
      simpa [Worker.held, waiting, idle] using held
    · exact h.queued i a found waits v there alive
  | panic =>
    rcases workers_setWorker there with ⟨-, rfl⟩ | ⟨-, there⟩
    · cases alive
    · exact h.queued i a found waits v there alive
  | @finish k j handling result w here busy =>
    rw [workers_conclude] at there
    refine forall_conclude (p := p.setWorker k _) (P := fun j b => b.phase = .queued → b.worker = a.worker → j ∈ v.held)
      (fun j' b' before other waits same => ?_) (fun b' before waits => by cases waits) i a found waits rfl
    rcases workers_setWorker there with ⟨mine, rfl⟩ | ⟨-, there⟩
    · have held := h.queued j' b' before waits w (by rw [same, ← mine]; exact here) alive
      rw [Worker.held, busy] at held
      rcases List.mem_cons.1 held with rfl | rest
      · exact absurd waits (other rfl)
      · exact List.mem_append_right _ rest
    · exact h.queued j' b' before waits v (same ▸ there) alive

/-- What entered a mailbox is what entered it before, and what enters now. -/
theorem entered_step (h : Books p actions) (moves : Moves p action q) (k : Nat) :
    q.entered k (actions ++ [action]) = p.entered k actions ++ ((entering? action).filter (p.isDealt k)).toList :=
  entered_append moves (fun i member => (h.entered i member).imp fun _ found => found.1) k

theorem step (h : Books p actions) (moves : Moves p action q) : Books q (actions ++ [action]) := by
  have entries_append : entries (actions ++ [action]) = entries actions ++ (entering? action).toList := by
    rw [entries, List.filterMap_append]
    cases moves <;> rfl
  have same := h.entered_step moves
  have enters : ∀ i, entering? action = some i → ∃ a b, p.asks[i]? = some a ∧ a.phase = .waiting ∧
      q.asks[i]? = some b ∧ b.phase ≠ .waiting := by
    intro i entering
    cases moves with
    | enter found _ waits =>
      cases entering
      exact ⟨_, _, found, waits, asks_setPhase found, by simp⟩
    | _ => cases entering
  refine ⟨?_, fun i member => ?_, fun k v there => ?_, fun k v there alive => ?_, fun k v there => ?_,
    h.answered_step moves, h.queued_step moves⟩
  · rw [entries_append, List.nodup_append]
    refine ⟨h.once, by cases entering? action <;> simp, ?_⟩
    rintro i before j now rfl
    obtain ⟨a, b, found, waits, -⟩ := enters i (by simpa using now)
    obtain ⟨a', found', entered⟩ := h.entered i before
    rw [found, Option.some.injEq] at found'
    exact entered (found' ▸ waits)
  · rw [entries_append, List.mem_append, Option.mem_toList] at member
    rcases member with before | now
    · obtain ⟨a, found, entered⟩ := h.entered i before
      obtain ⟨b, later, kept⟩ := later_of_moves moves found
      exact ⟨b, later, kept.entered entered⟩
    · obtain ⟨a, b, -, -, later, entered⟩ := enters i now
      exact ⟨b, later, entered⟩
  · obtain ⟨w, here, next⟩ := worker_of_moves moves there
    rw [same]
    cases arrival : (entering? action).filter (p.isDealt k) with
    | none =>
      rw [arrival] at next
      simpa using next.received.1.trans (by simpa using h.received k w here)
    | some i =>
      rw [arrival] at next
      rw [← h.whole k w here next.alive]
      exact next.received.1
  · obtain ⟨w, here, next⟩ := worker_of_moves moves there
    obtain ⟨before, grown⟩ := next.received.2 alive
    rw [same, grown, h.whole k w here before]
  · obtain ⟨w, here, next⟩ := worker_of_moves moves there
    exact next.room (h.room k w here)

theorem path {came : List (Action ρ α ε)} (h : Books p came) (path : Path (Steps Pool.step) p actions q) :
    Books q (came ++ actions) := by
  induction path generalizing came with
  | nil => simpa using h
  | @cons _ _ _ action _ first _ ih => simpa using ih (h.step (moves_of_step first))

end Books

end ChainArchive.Pool
