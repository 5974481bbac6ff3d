import ChainArchive.Proofs.Pool.Isolation
import ChainArchive.Proofs.Pool.Rest

/-!
# What faults do to a pool

The asks of a pool are dealt out in turn, so the workers share them evenly. A
refusal does no harm to the worker. A panic costs the pool this worker: what was
waiting for it, lay behind the request or comes to it later is never handled, and
its askers are told that the pool is closed, unless they give up first. The other
workers and their asks never notice: they answer what they are asked, as if the
lost worker were there.
-/

namespace ChainArchive.Pool
set_option autoImplicit false

variable {ρ α ε : Type} {p q r s : Pool ρ α ε} {action : Action ρ α ε} {actions : List (Action ρ α ε)} {i k : Nat}

/-! ## What an asker is told -/

theorem phase_of_result {result : Except (AskError ε) α} (told : p.result? k = some result) :
    ∃ a, p.asks[k]? = some a ∧ a.phase = .over result := by
  unfold result? at told
  split at told
  · next found =>
    cases told
    exact ⟨_, found, rfl⟩
  · cases told

/-- A worker's books grow when it is done with the request at hand. -/
theorem handled_of_moves (moves : Moves p action q) {v : Worker α ε} (there : q.workers[k]? = some v) :
    ∃ w, p.workers[k]? = some w ∧ (v.handled = w.handled ∨
      ∃ j handling, action = .finish k handling ∧ w.current = some j ∧ v.handled = w.handled ++ [(j, handling)]) := by
  cases moves with
  | ask | receive | notice | expire | cancel | close => exact ⟨v, there, .inl rfl⟩
  | enter _ here =>
    rcases workers_setWorker there with ⟨rfl, rfl⟩ | ⟨-, there⟩
    · exact ⟨_, here, .inl rfl⟩
    · exact ⟨v, there, .inl rfl⟩
  | take here =>
    rcases workers_setWorker there with ⟨rfl, rfl⟩ | ⟨-, there⟩
    · exact ⟨_, here, .inl rfl⟩
    · exact ⟨v, there, .inl rfl⟩
  | finish here busy =>
    rw [workers_conclude] at there
    rcases workers_setWorker there with ⟨rfl, rfl⟩ | ⟨-, there⟩
    · exact ⟨_, here, .inr ⟨_, _, rfl, busy, rfl⟩⟩
    · exact ⟨v, there, .inl rfl⟩
  | panic here busy =>
    rcases workers_setWorker there with ⟨rfl, rfl⟩ | ⟨-, there⟩
    · exact ⟨_, here, .inr ⟨_, _, rfl, busy, rfl⟩⟩
    · exact ⟨v, there, .inl rfl⟩

/-- What holds in every state of a pool whose workers do what `handle` says. -/
structure Obedient (handle : ρ → Handling α ε) (p : Pool ρ α ε) : Prop extends Regular p where
  /-- What was handled ended as `handle` says. -/
  handled : ∀ (k : Nat) (w : Worker α ε), p.workers[k]? = some w → ∀ entry ∈ w.handled,
    ∃ a, p.asks[entry.1]? = some a ∧ handle a.request = entry.2
  /-- Nobody is told that the pool is closed as long as the own worker is there. -/
  closed : ∀ (k : Nat) (a : Ask ρ α ε) (pool : String), p.asks[k]? = some a → a.phase = .over (.error (.closed pool)) →
    ∃ w, p.workers[a.worker]? = some w ∧ w.alive = false

namespace Obedient

variable {handle : ρ → Handling α ε}

theorem start {name : String} {size : Nat} (h : (Pool.start name size).result = .ok p) : Obedient handle p := by
  have regular := Regular.start h
  unfold Pool.start at h
  split at h
  · cases h
  · cases h
    refine ⟨regular, fun k w there => ?_, fun k a pool found => by cases found⟩
    rw [List.eq_of_mem_replicate (List.mem_of_getElem? there)]
    simp

theorem handled_step [DecidableEq α] [DecidableEq ε] (h : Obedient handle p) (move : Obeying handle p action q) {w : Worker α ε}
    (there : q.workers[k]? = some w) {entry : Nat × Handling α ε} (member : entry ∈ w.handled) :
    ∃ a, q.asks[entry.1]? = some a ∧ handle a.request = entry.2 := by
  have moves := moves_of_step move.2
  -- requests do not change
  have keep : ∀ a, p.asks[entry.1]? = some a → handle a.request = entry.2 →
      ∃ b, q.asks[entry.1]? = some b ∧ handle b.request = entry.2 := by
    intro a found ends
    obtain ⟨b, later, same⟩ := asks_of_moves moves found
    exact ⟨b, later, same ▸ ends⟩
  obtain ⟨w', here, same | ⟨j, handling, rfl, busy, grown⟩⟩ := handled_of_moves moves there
  · obtain ⟨a, found, ends⟩ := h.handled k w' here entry (same ▸ member)
    exact keep a found ends
  · rw [grown, List.mem_append, List.mem_singleton] at member
    rcases member with before | rfl
    · obtain ⟨a, found, ends⟩ := h.handled k w' here entry before
      exact keep a found ends
    · have allowed := move.1
      simp only [obeys, here, Option.bind_some, busy, Option.any_eq_true, beq_iff_eq, Option.some.injEq] at allowed
      obtain ⟨a, found, ends⟩ := allowed
      exact keep a found ends

theorem closed_step (h : Obedient handle p) (moves : Moves p action q) {b : Ask ρ α ε} {pool : String}
    (found : q.asks[k]? = some b) (told : b.phase = .over (.error (.closed pool))) :
    ∃ w, q.workers[b.worker]? = some w ∧ w.alive = false := by
  rcases ask_of_moves moves found with ⟨a, before, next⟩ | ⟨request, timeout, -, -, rfl⟩
  · have lost : ∃ w, p.workers[a.worker]? = some w ∧ w.alive = false := by
      cases next with
      | same => exact h.closed k b pool before told
      | enter | answer | expire | cancel => cases told
      | @receive answer => cases answer <;> cases told
      | notice _ there gone => exact ⟨_, there, gone⟩
    obtain ⟨w, there, gone⟩ := lost
    exact ⟨w, next.worker ▸ h.lost_moves moves there gone, gone⟩
  · cases told

theorem step [DecidableEq α] [DecidableEq ε] (h : Obedient handle p) (move : Obeying handle p action q) :
    Obedient handle q :=
  ⟨h.toRegular.moves (moves_of_step move.2), fun _ _ there _ member => h.handled_step move there member,
    fun _ _ _ found told => h.closed_step (moves_of_step move.2) found told⟩

theorem path [DecidableEq α] [DecidableEq ε] (h : Obedient handle p) (path : Path (Obeying handle) p actions q) :
    Obedient handle q :=
  path.invariant h fun _ _ _ h move => h.step move

/-- An answer is what `handle` says to the own request. -/
theorem answer_eq (h : Obedient handle p) {a : Ask ρ α ε} (found : p.asks[k]? = some a) {answer : Except ε α}
    (answers : a.phase.answer? = some answer) : (handle a.request).answer? = some answer := by
  obtain ⟨came, books⟩ := h.books
  obtain ⟨w, handling, there, written, ends⟩ := books.answered k a found answer answers
  obtain ⟨a', found', same⟩ := h.handled _ w there _ written
  rw [found, Option.some.injEq] at found'
  subst found'
  rw [same, ends]

/-- Who has a result has the answer of `handle`, ran out of time or was with a worker that is lost. -/
theorem told (h : Obedient handle p) {a : Ask ρ α ε} {result : Except (AskError ε) α} (found : p.asks[k]? = some a)
    (told : p.result? k = some result) :
    (∃ answer, (handle a.request).answer? = some answer ∧ result = resultOf answer) ∨
      (∃ pool span, result = .error (.timeout pool span)) ∨
      ∃ pool w, result = .error (.closed pool) ∧ p.workers[a.worker]? = some w ∧ w.alive = false := by
  obtain ⟨a', found', ended⟩ := phase_of_result told
  rw [found, Option.some.injEq] at found'
  subst found'
  cases result with
  | ok reply => exact .inl ⟨.ok reply, h.answer_eq found (by rw [ended]; rfl), rfl⟩
  | error e =>
    cases e with
    | rejected cause => exact .inl ⟨.error cause, h.answer_eq found (by rw [ended]; rfl), rfl⟩
    | timeout pool span => exact .inr (.inl ⟨pool, span, rfl⟩)
    | closed pool =>
      obtain ⟨w, there, gone⟩ := h.closed k a pool found ended
      exact .inr (.inr ⟨pool, w, rfl, there, gone⟩)

/-- A worker is there as long as `handle` has not panicked in it. -/
theorem alive_iff (h : Obedient handle p) {w : Worker α ε} (there : p.workers[k]? = some w) :
    w.alive = true ↔ ∀ entry ∈ w.handled, ∀ a, p.asks[entry.1]? = some a → handle a.request ≠ .panic := by
  rw [(h.sound k w there).alive_iff]
  refine forall₂_congr fun entry member => ?_
  obtain ⟨a, found, ends⟩ := h.handled k w there entry member
  simp [found, ends]

/-- In a pool that can do nothing more by itself, every worker has nothing to do. -/
theorem isIdle_of_rest (h : Obedient handle p) (rests : p.nextAction (fun _ request => some (handle request)) = none)
    {w : Worker α ε} (there : p.workers[k]? = some w) : w.isIdle = true := by
  cases alive : w.alive with
  | false => exact (h.sound k w there).isIdle_of_lost alive
  | true =>
    obtain ⟨-, workers⟩ := Option.or_eq_none_iff.1 rests
    have nothing := List.findSome?_eq_none_iff.1 workers (w, k) (List.mk_mem_zipIdx_iff_getElem?.2 there)
    cases busy : w.current with
    | some j =>
      obtain ⟨came, books⟩ := h.books
      obtain ⟨b, found, -⟩ := books.dealt there busy
      simp [busy, found] at nothing
    | none => simpa [Worker.isIdle, busy, alive] using nothing

/-- A pool that can do nothing more by itself has ended all asks, those of its lost workers too. -/
theorem over_of_rest (h : Obedient handle p) (staffed : 0 < p.size)
    (rests : p.nextAction (fun _ request => some (handle request)) = none) {a : Ask ρ α ε}
    (found : p.asks[k]? = some a) : a.isPending = false := by
  obtain ⟨asks, -⟩ := Option.or_eq_none_iff.1 rests
  obtain ⟨came, books⟩ := h.books
  have dealt : a.worker < p.workers.length := by
    rw [h.dealt k a found]
    exact Nat.mod_lt _ staffed
  obtain ⟨w, there⟩ : ∃ w, p.workers[a.worker]? = some w := ⟨_, List.getElem?_eq_getElem dealt⟩
  have nothing := List.findSome?_eq_none_iff.1 asks (a, k) (List.mk_mem_zipIdx_iff_getElem?.2 found)
  obtain ⟨empty, free⟩ : w.mailbox = [] ∧ w.current = none := by
    simpa [Worker.isIdle] using h.isIdle_of_rest rests there
  cases phase : a.phase with
  | waiting => cases alive : w.alive <;> simp [phase, there, alive, empty, mailboxCapacity] at nothing
  | queued =>
    cases alive : w.alive with
    | true =>
      have held := books.queued k a found phase w there alive
      simp [Worker.held, empty, free] at held
    | false => simp [phase, there, alive] at nothing
  | answered answer => simp [phase] at nothing
  | «over» | cancelled => simp [Ask.isPending, phase]

end Obedient

/-! ## After a panic -/

/-- What a worker has not yet come to: the asks that wait for room or for the answer, and those that have not begun. -/
theorem Books.not_handled (h : Books p actions) {w : Worker α ε} (there : p.workers[i]? = some w) (alive : w.alive = true)
    (waits : ∀ b, p.asks[k]? = some b → b.worker = i ∧ b.isWaiting = true) : k ∉ w.handled.map Prod.fst := by
  intro handled
  have taken : k ∈ w.undertaken := List.mem_append_left _ handled
  obtain ⟨b, found, entered⟩ := h.entered k (h.of_undertaken there taken).1
  obtain ⟨rfl, waiting⟩ := waits b found
  have queued : b.phase = .queued := by
    unfold Ask.isWaiting at waiting
    cases phase : b.phase <;> simp_all
  -- it is with the worker once
  have nodup : (w.handled.map Prod.fst ++ (w.current.toList ++ w.mailbox)).Nodup := by
    rw [← List.append_assoc]
    exact h.whole _ w there alive ▸ h.once.filter _
  exact List.disjoint_of_nodup_append nodup handled (h.queued k b found queued w there alive)

/-- What becomes of an ask whose worker has panicked before it had an answer: its request is not handled, unless it was
the one at hand, and it is told that the pool is closed, unless it gives up first. -/
theorem Regular.lost_asks (h : Regular q) (panics : q.step (.finish i .panic) = some r) (reach : Reachable (Steps step) r s)
    {a : Ask ρ α ε} (found : s.asks[k]? = some a) (mine : a.worker = i)
    (waits : ∀ b, q.asks[k]? = some b → b.isWaiting = true) :
    a.phase.answer? = none ∧ ((∀ w, q.workers[i]? = some w → w.current ≠ some k) → k ∉ s.undertaken) ∧
      ∃ v, s.workers[i]? = some v ∧ v.alive = false := by
  cases moves_of_step panics with
  | finish _ _ answers => cases answers
  | @panic _ j w there busy =>
    obtain ⟨came, books⟩ := h.books
    have regular := h.moves (moves_of_step panics)
    have later := regular.reachable reach
    have size : s.size = q.size := by
      refine reach.invariant (P := fun s => s.size = q.size) (size_setWorker ..) fun _ _ _ same step => ?_
      rw [size_of_moves (moves_of_step step), same]
    -- the books of the worker are closed
    have bound := (List.getElem?_eq_some_iff.1 there).1
    have lost := regular.lost_reachable reach (List.getElem?_set_self bound) rfl
    have fresh : k ∉ w.handled.map Prod.fst := by
      refine books.not_handled there ((h.sound i w there).alive_of_current busy) fun b before => ⟨?_, waits b before⟩
      rw [h.dealt k b before, ← size, ← later.dealt k a found, mine]
    obtain ⟨since, books'⟩ := later.books
    refine ⟨Option.eq_none_iff_forall_ne_some.2 fun answer answers => ?_, fun other taken => ?_, _, lost, rfl⟩
    · obtain ⟨v, handling, there', written, ends⟩ := books'.answered k a found answer answers
      rw [mine, lost, Option.some.injEq] at there'
      subst there'
      rcases List.mem_append.1 written with before | now
      · exact fresh (List.mem_map_of_mem before)
      · obtain ⟨rfl, rfl⟩ := Prod.mk.inj (List.mem_singleton.1 now)
        cases ends
    · obtain ⟨v, member, taken⟩ := List.mem_flatMap.1 taken
      obtain ⟨l, there'⟩ := List.mem_iff_getElem?.1 member
      have dealt := (books'.of_undertaken there' taken).2
      obtain rfl : i = l := by simpa [isDealt, found, mine] using dealt
      rw [lost, Option.some.injEq] at there'
      subst there'
      have handled : k ∈ w.handled.map Prod.fst ∨ k = j := by simpa [Worker.undertaken] using taken
      rcases handled with before | rfl
      · exact fresh before
      · exact other w there busy

/-- Who waits for a lost worker and has no answer can be told at once that the pool is closed. -/
theorem notices_of_lost {a : Ask ρ α ε} {w : Worker α ε} (found : p.asks[k]? = some a) (there : p.workers[a.worker]? = some w)
    (gone : w.alive = false) (pending : a.isPending = true) (unanswered : a.phase.answer? = none) :
    ∃ q, p.step (.notice k) = some q ∧ q.result? k = some (.error (.closed p.name)) := by
  have waits : a.isWaiting = true := by
    unfold Ask.isPending at pending
    unfold Ask.isWaiting
    cases phase : a.phase <;> simp_all [Phase.answer?]
  refine ⟨_, step_of_moves (.notice found there waits gone), ?_⟩
  have told : (p.setPhase k (.over (.error (.closed p.name)))).asks[k]? =
      some { a with phase := .over (.error (.closed p.name)) } := by
    rw [asks_setPhase found, if_pos rfl]
  rw [result?, told]

/-- A worker that has refused a request is there, and goes on with the next one. -/
theorem Regular.serves_after_refusal (h : Regular p) {cause : ε} (refuses : p.step (.finish i (.reject cause)) = some q) :
    ∃ w, q.workers[i]? = some w ∧ w.alive = true ∧ (w.mailbox ≠ [] → ∃ r, q.step (.take i) = some r) := by
  cases moves_of_step refuses with
  | @finish _ j _ _ w there busy answers =>
    cases answers
    have alive : w.alive = true := (h.sound i w there).alive_of_current busy
    have bound := (List.getElem?_eq_some_iff.1 there).1
    have here : (conclude (p.setWorker i { w with current := none, handled := w.handled ++ [(j, .reject cause)] }) i j
        (.error cause)).workers[i]? = some { w with current := none, handled := w.handled ++ [(j, .reject cause)] } := by
      rw [workers_conclude]
      exact List.getElem?_set_self bound
    refine ⟨_, here, alive, fun waiting => ?_⟩
    obtain ⟨next, rest, mailbox⟩ := List.exists_cons_of_ne_nil waiting
    exact ⟨_, step_of_moves (.take here mailbox rfl alive)⟩

/-! ## The whole -/

/-- The `k`-th ask is dealt to worker `k % size`, whatever has become of the earlier ones, so the workers share the asks
evenly. A refusal leaves its worker serving, and only a panic of `handle` takes a worker away. What a pool does by
itself comes to rest, and then all asks have ended: with what `handle` says to the own request, a timeout, or, if the own
worker is lost, the news that the pool is closed. Once `handle` has panicked in worker `i`, whoever waits for this
worker, is queued there or comes to it later is never answered; its request is not handled, unless it is the one at hand,
and it is told that the pool is closed, unless it gives up first. To all other workers and their asks the run is one in
which worker `i` is there: they are as they would be then, and can go on in the same ways. -/
theorem deals_in_turn_and_contains_faults [DecidableEq α] [DecidableEq ε] (name : String) {size : Nat} (positive : 0 < size)
    (handle : ρ → Handling α ε) :
    ∃ p : Pool ρ α ε, (start name size).result = .ok p ∧ p.size = size ∧
      ∀ actions q, Path (Obeying handle) p actions q → q.asks.length < 2 ^ 64 →
        (∀ k a, q.asks[k]? = some a → a.worker = k % size) ∧
        (∀ i j, i < size → j < size → q.asks.countP (·.worker == i) ≤ q.asks.countP (·.worker == j) + 1) ∧
        (∀ i cause r, Obeying handle q (.finish i (.reject cause)) r →
          ∃ w, r.workers[i]? = some w ∧ w.alive = true ∧ (w.mailbox ≠ [] → ∃ s, Obeying handle r (.take i) s)) ∧
        (∀ (i : Nat) (w : Worker α ε), q.workers[i]? = some w →
          (w.alive = true ↔ ∀ entry ∈ w.handled, ∀ a, q.asks[entry.1]? = some a → handle a.request ≠ .panic)) ∧
        (∀ own r, (∀ action ∈ own, action.isOwn = true) → Path (Obeying handle) q own r →
          own.length ≤ 4 * q.asks.length) ∧
        (q.nextAction (fun _ request => some (handle request)) = none →
          ∀ (k : Nat) (a : Ask ρ α ε), q.asks[k]? = some a → a.isPending = false) ∧
        (∀ (k : Nat) (a : Ask ρ α ε) result, q.asks[k]? = some a → q.result? k = some result →
          (∃ answer, (handle a.request).answer? = some answer ∧ result = resultOf answer) ∨
          (∃ pool span, result = .error (.timeout pool span)) ∨
          ∃ pool w, result = .error (.closed pool) ∧ q.workers[a.worker]? = some w ∧ w.alive = false) ∧
        (∀ i r, Obeying handle q (.finish i .panic) r → ∀ s, Reachable (Obeying handle) r s →
          ∀ (k : Nat) (a : Ask ρ α ε), s.asks[k]? = some a → a.worker = i → (∀ b, q.asks[k]? = some b → b.isWaiting = true) →
            ((∀ w, q.workers[i]? = some w → w.current ≠ some k) → k ∉ s.undertaken) ∧
            (∀ result, s.result? k = some result →
              (∃ pool, result = .error (.closed pool)) ∨ ∃ pool span, result = .error (.timeout pool span)) ∧
            (a.isPending = true →
              ∃ t, Obeying handle s (.notice k) t ∧ t.result? k = some (.error (.closed s.name)))) ∧
        ∀ i, i < size → q.closing = false →
          ∃ q', Path (Obeying handle) p (actions.filter fun action => !action.isOf size i) q' ∧
            (∃ w, q'.workers[i]? = some w ∧ w.alive = true) ∧ SameBut i q q' ∧
            ∀ further r', (∀ action ∈ further, action.isOf size i = false) → r'.closing = false →
              Path (Obeying handle) q' further r' →
              ∃ r, Path (Obeying handle) q further r ∧ SameBut i r r' := by
  have started : (start name size : Attempt PoolError (Pool ρ α ε)).result =
      .ok { name, workers := List.replicate size {} } := by
    rw [start, if_neg (Nat.ne_of_gt positive)]
    rfl
  refine ⟨_, started, List.length_replicate, fun actions q path few => ?_⟩
  have regular₀ := Regular.start started
  have sizes : ∀ actions q, Path (Obeying handle) { name, workers := List.replicate size {} } actions q →
      q.size = size := fun _ q path =>
    path.invariant (P := fun q => q.size = size) List.length_replicate fun _ _ _ same move =>
      (size_of_moves (moves_of_step move.2)).trans same
  have same := sizes actions q path
  have reach : Reachable (Steps step) _ q := ⟨actions, path.of_restricted⟩
  have obedient : Obedient handle q := (Obedient.start started).path path
  refine ⟨fun k a found => ?_, fun i j hi hj => ?_, fun i cause r refuses => ?_, fun i w there => obedient.alive_iff there,
    fun own r isOwn further => (length_le_cost further.of_restricted isOwn).trans (cost_le_bound started reach),
    fun rests k a found => obedient.over_of_rest (same ▸ positive) rests found,
    fun k a result found told => obedient.told found told, fun i r panics s reach k a found mine waits => ?_,
    fun i inside isOpen => ?_⟩
  · rw [obedient.dealt.worker_eq few found, same]
  · exact obedient.dealt.countP_le few (same ▸ hi) (same ▸ hj)
  · obtain ⟨w, there, alive, serves⟩ := obedient.toRegular.serves_after_refusal refuses.2
    exact ⟨w, there, alive, fun waiting => (serves waiting).imp fun _ takes => ⟨rfl, takes⟩⟩
  · obtain ⟨unanswered, fresh, v, lost, gone⟩ :=
      obedient.toRegular.lost_asks panics.2 reach.of_restricted found mine waits
    refine ⟨fresh, fun result told => ?_, fun pending => ?_⟩
    · obtain ⟨a', found', ended⟩ := phase_of_result told
      rw [found, Option.some.injEq] at found'
      subst found'
      rw [ended] at unanswered
      cases result with
      | ok => cases unanswered
      | error e =>
        cases e with
        | timeout pool span => exact .inr ⟨pool, span, rfl⟩
        | closed pool => exact .inl ⟨pool, rfl⟩
        | rejected => cases unanswered
    · obtain ⟨t, notices, told⟩ := notices_of_lost found (mine ▸ lost) gone pending unanswered
      exact ⟨t, ⟨rfl, notices⟩, told⟩
  · obtain ⟨q', path', outside, stays⟩ := (SameBut.refl i _).path regular₀ path isOpen
    have size₀ : ({ name, workers := List.replicate size {} } : Pool ρ α ε).size = size := List.length_replicate
    rw [size₀] at path'
    have size' := sizes _ q' path'
    refine ⟨q', path', ⟨{}, by simpa [inside] using stays, rfl⟩, outside, fun further r' others isOpen' path'' => ?_⟩
    have regular' : Regular q' := ((Obedient.start started).path path').toRegular
    obtain ⟨r, further', outside', -⟩ := outside.symm.path regular' path'' isOpen'
    rw [size', List.filter_eq_self.2 fun action member => by simp [others action member]] at further'
    exact ⟨r, further', outside'.symm⟩

/-! ## An example -/

/-- Doubles an even number, refuses an odd one and panics at zero. -/
def exampleHandle (n : Nat) : Handling Nat String :=
  if n = 0 then .panic else if n % 2 = 1 then .reject "odd" else .reply (2 * n)

/-- Three ask a pool of two workers. The first worker has a zero at hand and a four in its mailbox, the second has refused
a three. -/
def exampleFaults : List (Action Nat Nat String) :=
  [.ask 0 (.seconds 1), .ask 3 (.seconds 1), .ask 4 (.seconds 1), .enter 0, .enter 1, .enter 2, .take 0, .take 1,
    .finish 1 (.reject "odd")]

theorem deals_in_turn_and_contains_faults_example : ∃ p q r : Pool Nat Nat String, (start "clerks" 2).result = .ok p ∧
    Reachable (Obeying exampleHandle) p q ∧ q.asks.map Ask.worker = [0, 1, 0] ∧
    (∀ k a, q.asks[k]? = some a → a.worker = k % 2) ∧ (∃ w, q.workers[1]? = some w ∧ w.handled = [(1, .reject "odd")] ∧
      w.alive = true) ∧ Obeying exampleHandle q (.finish 0 .panic) r ∧
    (∀ s, Reachable (Obeying exampleHandle) r s → ∀ a, s.asks[2]? = some a → a.worker = 0 → 2 ∉ s.undertaken) ∧
    ∃ q', Reachable (Obeying exampleHandle) p q' ∧ (∃ w, q'.workers[0]? = some w ∧ w.alive = true) ∧ SameBut 0 r q' := by
  obtain ⟨p, started, -, whole⟩ := deals_in_turn_and_contains_faults "clerks" Nat.two_pos exampleHandle
  obtain rfl : p = { name := "clerks", workers := [{}, {}] } := by cases started; rfl
  have possible : ∃ q r : Pool Nat Nat String,
      follow (fun p action => p.obeys (fun _ request => some (exampleHandle request)) action) step
        ({ name := "clerks", workers := [{}, {}] } : Pool Nat Nat String) exampleFaults = some q ∧
      q.asks.map Ask.worker = [0, 1, 0] ∧
      (∃ w : Worker Nat String, q.workers[1]? = some w ∧ w.handled = [(1, .reject "odd")]) ∧
      (∀ a : Ask Nat Nat String, q.asks[1]? = some a → exampleHandle a.request ≠ .panic) ∧
      (∀ b : Ask Nat Nat String, q.asks[2]? = some b → b.isWaiting = true) ∧
      (∀ w : Worker Nat String, q.workers[0]? = some w → w.current ≠ some 2) ∧
      Obeying exampleHandle q (.finish 0 .panic) r ∧ r.closing = false ∧ r.asks.length < 2 ^ 64 := by
    refine ⟨_, _, rfl, rfl, ⟨_, rfl, rfl⟩, ?_, ?_, ?_, ⟨rfl, rfl⟩, rfl, by decide⟩
    · rintro a found
      cases found
      decide
    · rintro b found
      cases found
      rfl
    · rintro w there
      cases there
      decide
  obtain ⟨q, r, followed, workers, ⟨w, there, refused⟩, calm, waits, other, panics, isOpen, few⟩ := possible
  obtain ⟨actions, path⟩ := reachable_of_follow followed fun _ _ allowed => allowed
  have few' : q.asks.length < 2 ^ 64 :=
    Nat.lt_of_le_of_lt (length_asks_le (moves_of_step panics.2)) few
  obtain ⟨turns, -, -, alive, -, -, -, lost, -⟩ := whole actions q path few'
  obtain ⟨-, -, -, -, -, -, -, -, isolated⟩ := whole _ r (path.append (.cons panics (.nil r))) few
  obtain ⟨q', path', there', same, -⟩ := isolated 0 Nat.two_pos isOpen
  refine ⟨_, q, r, started, ⟨actions, path⟩, workers, turns, ⟨w, there, refused, ?_⟩, panics,
    fun s reach a found mine => (lost 0 r panics s reach 2 a found mine waits).1 other, q', ⟨_, path'⟩, there', same⟩
  refine (alive 1 w there).2 fun entry member a found => ?_
  obtain rfl : entry = (1, .reject "odd") := by simpa [refused] using member
  exact calm a found

end ChainArchive.Pool
