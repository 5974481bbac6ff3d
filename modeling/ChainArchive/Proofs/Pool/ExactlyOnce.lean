import ChainArchive.Proofs.Pool.Mailboxes
import Mathlib.Data.List.Flatten

/-!
# Exactly once, and the own reply

The books of a pool say what the askers may rely on. No request is passed to a
worker twice, a worker takes its requests up in the order in which they entered
its mailbox, and whoever gets a reply or a refusal gets what the only handling of
the own request has ended with. An asker that leaves the entrance leaves no
request behind. One that leaves later may have its request handled all the same:
the worker empties its mailbox from the head. But nobody gets the answer.
-/

namespace ChainArchive.Pool
set_option autoImplicit false

variable {ρ α ε : Type} {p q r : Pool ρ α ε} {action : Action ρ α ε} {actions : List (Action ρ α ε)}

/-! ## At most once -/

/-- Where no key comes twice, an entry is the only one under its key. -/
theorem filter_key_eq {β : Type} {entries : List (Nat × β)} {i : Nat} {b : β} (distinct : (entries.map Prod.fst).Nodup)
    (member : (i, b) ∈ entries) : entries.filter (fun entry => entry.1 == i) = [(i, b)] := by
  induction entries with
  | nil => cases member
  | cons entry rest ih =>
    rw [List.map_cons, List.nodup_cons] at distinct
    rcases List.mem_cons.1 member with rfl | member
    · rw [List.filter_cons_of_pos (by simp), List.filter_eq_nil_iff.2]
      intro other later same
      exact distinct.1 (List.mem_map.2 ⟨other, later, beq_iff_eq.1 same⟩)
    · rw [List.filter_cons_of_neg, ih distinct.2 member]
      intro same
      exact distinct.1 (List.mem_map.2 ⟨(i, b), member, (beq_iff_eq.1 same).symm⟩)

namespace Books

variable {k i : Nat} {w : Worker α ε}

theorem undertaken_prefix (h : Books p actions) (there : p.workers[k]? = some w) :
    w.undertaken <+: p.entered k actions := (List.prefix_append _ _).trans (h.received k w there)

/-- What a worker was passed entered some mailbox, and the ask was dealt to this worker. -/
theorem of_undertaken (h : Books p actions) (there : p.workers[k]? = some w) (taken : i ∈ w.undertaken) :
    i ∈ entries actions ∧ p.isDealt k i = true :=
  List.mem_filter.1 ((h.undertaken_prefix there).subset taken)

theorem nodup_undertaken (h : Books p actions) : p.undertaken.Nodup := by
  refine List.nodup_flatMap.2 ⟨fun w member => ?_, List.pairwise_iff_getElem.2 fun k l hk hl before i here there => ?_⟩
  · obtain ⟨k, there⟩ := List.mem_iff_getElem?.1 member
    exact (h.once.filter _).sublist (h.undertaken_prefix there).sublist
  · have mine := (h.of_undertaken (List.getElem?_eq_getElem hk) here).2
    have yours := (h.of_undertaken (List.getElem?_eq_getElem hl) there).2
    obtain ⟨a, found, dealt⟩ := (Option.any_eq_true ..).1 mine
    rw [isDealt, found, Option.any_some] at yours
    have same : k = l := (beq_iff_eq.1 dealt).symm.trans (beq_iff_eq.1 yours)
    exact Nat.ne_of_lt before same

/-- The requests that were handled are among those that were passed to a worker. -/
theorem nodup_handled (h : Books p actions) : ((p.workers.flatMap Worker.handled).map Prod.fst).Nodup := by
  rw [List.map_flatMap]
  exact h.nodup_undertaken.sublist (List.Sublist.flatMap_right _ fun w _ => List.sublist_append_left _ _)

/-- What a worker has written down about a request is the only thing that is written down about it. -/
theorem handlings_eq (h : Books p actions) {handling : Handling α ε} (there : p.workers[k]? = some w)
    (written : (i, handling) ∈ w.handled) : p.handlings i = [handling] := by
  have member : (i, handling) ∈ p.workers.flatMap Worker.handled :=
    List.mem_flatMap.2 ⟨w, List.mem_of_getElem? there, written⟩
  rw [handlings, filter_key_eq h.nodup_handled member, List.map_singleton]

/-- The result of an ask that was answered is what the only handling of its request has ended with. -/
theorem handlings_of_result (h : Books p actions) {result : Except (AskError ε) α} (answer : Except ε α)
    (found : p.result? i = some result) (same : result = resultOf answer) :
    ∃ handling, p.handlings i = [handling] ∧ handling.answer? = some answer := by
  unfold result? at found
  split at found
  · next here =>
    cases found
    have answers : (Phase.over result : Phase α ε).answer? = some answer := by
      rw [same]
      cases answer <;> rfl
    obtain ⟨w, handling, there, written, ends⟩ := h.answered i _ here answer answers
    exact ⟨handling, h.handlings_eq there written, ends⟩
  · cases found

end Books

/-! ## Giving up -/

/-- The ask whose asker goes away, or is told that its time is over or that its worker is gone. -/
def leaving? : Action ρ α ε → Option Nat
  | .expire ask | .cancel ask | .notice ask => some ask
  | _ => none

/-- Who leaves is gone for good, without an answer, and no worker is disturbed. -/
theorem left_of_moves (moves : Moves p action q) {i : Nat} {a : Ask ρ α ε} (leaves : leaving? action = some i)
    (found : p.asks[i]? = some a) : q.workers = p.workers ∧
      ∃ b, q.asks[i]? = some b ∧ b.worker = a.worker ∧ b.isPending = false ∧ b.phase.answer? = none := by
  cases moves with
  | ask | enter | take | finish | panic | receive | close => cases leaves
  | notice | expire | cancel =>
    cases leaves
    exact ⟨rfl, _, asks_setPhase found, by rw [if_pos rfl], by rw [if_pos rfl]; rfl, by rw [if_pos rfl]; rfl⟩

/-- An ask that is over stays as it is. -/
theorem settled_of_reachable (reach : Reachable (Steps step) p q) {i : Nat} {a : Ask ρ α ε}
    (found : p.asks[i]? = some a) (settled : a.isPending = false) : q.asks[i]? = some a :=
  reach.invariant (P := fun q => q.asks[i]? = some a) found fun _ _ _ found step => by
    obtain ⟨b, later, kept⟩ := later_of_moves (moves_of_step step) found
    rw [later, kept.settled settled]

/-- Nobody comes back to the entrance. -/
theorem not_mem_entries (path : Path (Steps step) p actions q) {i : Nat} {a : Ask ρ α ε}
    (found : p.asks[i]? = some a) (settled : a.isPending = false) : i ∉ entries actions := by
  induction path with
  | nil => simp [entries]
  | @cons p p' q action rest first _ ih =>
    have moves := moves_of_step first
    obtain ⟨b, later, kept⟩ := later_of_moves moves found
    obtain rfl := kept.settled settled
    have here : entering? action ≠ some i := by
      intro enters
      cases moves with
      | enter source _ waits =>
        cases enters
        rw [source, Option.some.injEq] at found
        subst found
        simp [Ask.isPending, waits] at settled
      | _ => cases enters
    rw [entries, List.filterMap_cons]
    split
    · exact ih later
    · next j enters =>
      rw [List.mem_cons, not_or]
      refine ⟨?_, ih later⟩
      rintro rfl
      exact here enters

/-! ## Emptying a mailbox -/

theorem step_finish {k i : Nat} {w : Worker α ε} {handling : Handling α ε} {answer : Except ε α}
    (there : p.workers[k]? = some w) (busy : w.current = some i) (answers : handling.answer? = some answer) :
    p.step (.finish k handling) = some
      ((p.setWorker k { w with current := none, handled := w.handled ++ [(i, handling)] }).conclude k i answer) := by
  cases handling <;> cases answers <;> simp [step, there, busy]

/-- A worker can be done with the request at hand, whatever becomes of it. -/
theorem reaches_finished {k i : Nat} {w : Worker α ε} {handling : Handling α ε} {answer : Except ε α}
    (there : p.workers[k]? = some w) (busy : w.current = some i) (answers : handling.answer? = some answer) :
    ∃ q, Reachable (Steps step) p q ∧
      q.workers[k]? = some { w with current := none, handled := w.handled ++ [(i, handling)] } := by
  refine ⟨_, ⟨_, .cons (step_finish there busy answers) (.nil _)⟩, ?_⟩
  have bound := (List.getElem?_eq_some_iff.1 there).1
  simp [setWorker, bound]

/-- A worker that has nothing at hand can take the head of its mailbox up and be done with it. -/
theorem reaches_head {k i : Nat} {rest : List Nat} {w : Worker α ε} {handling : Handling α ε} {answer : Except ε α}
    (there : p.workers[k]? = some w) (alive : w.alive = true) (idle : w.current = none)
    (waiting : w.mailbox = i :: rest) (answers : handling.answer? = some answer) :
    ∃ q, Reachable (Steps step) p q ∧
      q.workers[k]? = some { w with mailbox := rest, handled := w.handled ++ [(i, handling)] } := by
  have takes : p.step (.take k) = some (p.setWorker k { w with mailbox := rest, current := some i }) := by
    simp [step, there, waiting, idle, alive]
  have bound := (List.getElem?_eq_some_iff.1 there).1
  have there' : (p.setWorker k { w with mailbox := rest, current := some i }).workers[k]? =
      some { w with mailbox := rest, current := some i } := by simp [setWorker, bound]
  obtain ⟨q, reach, done⟩ := reaches_finished there' rfl answers
  exact ⟨q, Reachable.trans ⟨_, .cons takes (.nil _)⟩ reach, by rw [done]; simp [idle]⟩

/-- What is in the mailbox can be handled: the worker empties it from the head. -/
theorem reaches_handled {k i : Nat} {before after : List Nat} {w : Worker α ε} {handling : Handling α ε}
    {answer : Except ε α} (there : p.workers[k]? = some w) (alive : w.alive = true) (idle : w.current = none)
    (waiting : w.mailbox = before ++ i :: after) (answers : handling.answer? = some answer) :
    ∃ q v, Reachable (Steps step) p q ∧ q.workers[k]? = some v ∧ (i, handling) ∈ v.handled := by
  induction before generalizing p w with
  | nil =>
    obtain ⟨q, reach, done⟩ := reaches_head there alive idle waiting answers
    exact ⟨q, _, reach, done, by simp⟩
  | cons first before ih =>
    obtain ⟨q, reach, done⟩ := reaches_head there alive idle waiting answers
    obtain ⟨r, v, further, there, written⟩ := ih done alive idle rfl
    exact ⟨r, v, reach.trans further, there, written⟩

/-- What is at hand or in the mailbox can be handled. -/
theorem reaches_held {k i : Nat} {w : Worker α ε} {handling : Handling α ε} {answer : Except ε α}
    (there : p.workers[k]? = some w) (alive : w.alive = true) (held : i ∈ w.held)
    (answers : handling.answer? = some answer) :
    ∃ q v, Reachable (Steps step) p q ∧ q.workers[k]? = some v ∧ (i, handling) ∈ v.handled := by
  cases busy : w.current with
  | none =>
    obtain ⟨before, after, waiting⟩ := List.append_of_mem (show i ∈ w.mailbox by simpa [Worker.held, busy] using held)
    exact reaches_handled there alive busy waiting answers
  | some j =>
    obtain ⟨q, reach, done⟩ := reaches_finished there busy answers
    by_cases same : i = j
    · subst same
      exact ⟨q, _, reach, done, by simp⟩
    · have rest : i ∈ w.mailbox := by simpa [Worker.held, busy, same] using held
      obtain ⟨before, after, waiting⟩ := List.append_of_mem rest
      obtain ⟨r, v, further, there, written⟩ := reaches_handled done alive rfl waiting answers
      exact ⟨r, v, reach.trans further, there, written⟩

/-! ## The whole -/

/-- A request is passed to a worker once at most; a worker takes its requests up in the order in which they entered its
mailbox, where no more than 64 wait; and the reply or refusal of an ask is what the only handling of its own request has
ended with. Who leaves before the request has entered a mailbox leaves none that will be handled; who leaves later gets
nothing more, though the request may still be handled, with any end, as long as the worker is there. -/
theorem exactly_once (name : String) {size : Nat} (positive : 0 < size) :
    ∃ p : Pool ρ α ε, (start name size).result = .ok p ∧ p.size = size ∧
      ∀ actions q, Path (Steps step) p actions q →
        q.undertaken.Nodup ∧
        (∀ k w, q.workers[k]? = some w → w.undertaken <+: q.entered k actions ∧ w.mailbox.length ≤ 64) ∧
        (∀ i reply, q.result? i = some (.ok reply) → q.handlings i = [.reply reply]) ∧
        (∀ i cause, q.result? i = some (.error (.rejected cause)) → q.handlings i = [.reject cause]) ∧
        ∀ action r, q.step action = some r → ∀ i a, leaving? action = some i → q.asks[i]? = some a →
          (a.phase = .waiting → ∀ s, Reachable (Steps step) r s → i ∉ s.undertaken) ∧
          (∃ b, b.phase.answer? = none ∧ ∀ s, Reachable (Steps step) r s → s.asks[i]? = some b) ∧
          (a.phase = .queued → ∀ w, q.workers[a.worker]? = some w → w.alive = true →
            ∀ handling answer, handling.answer? = some answer →
              ∃ s, Reachable (Steps step) r s ∧ s.handlings i = [handling]) := by
  have started : (start name size : Attempt PoolError (Pool ρ α ε)).result =
      .ok { name, workers := List.replicate size {} } := by
    rw [start, if_neg (Nat.ne_of_gt positive)]
    rfl
  refine ⟨_, started, List.length_replicate, fun actions q path => ?_⟩
  have books : Books q actions := (Books.start started).path path
  refine ⟨books.nodup_undertaken, fun k w there => ⟨books.undertaken_prefix there, books.room k w there⟩,
    fun i reply result => ?_, fun i cause result => ?_, fun action r step i a leaves found => ?_⟩
  · obtain ⟨handling, only, answers⟩ := books.handlings_of_result (.ok reply) result rfl
    cases handling <;> cases answers
    exact only
  · obtain ⟨handling, only, answers⟩ := books.handlings_of_result (.error cause) result rfl
    cases handling <;> cases answers
    exact only
  · have moves := moves_of_step step
    obtain ⟨undisturbed, b, left, dealt, settled, unanswered⟩ := left_of_moves moves leaves found
    refine ⟨fun waits s reach taken => ?_, ⟨b, unanswered, fun s reach => settled_of_reachable reach left settled⟩,
      fun waits w there alive handling answer answers => ?_⟩
    · -- neither before nor after has the request entered a mailbox
      obtain ⟨later, further⟩ := reach
      have known := (books.step moves).path further
      obtain ⟨w, member, taken⟩ := List.mem_flatMap.1 taken
      obtain ⟨k, there⟩ := List.mem_iff_getElem?.1 member
      have entered := (known.of_undertaken there taken).1
      rw [entries, List.filterMap_append, List.filterMap_append, List.mem_append, List.mem_append] at entered
      rcases entered with (before | now) | after
      · obtain ⟨a', found', gone⟩ := books.entered i before
        exact gone (by rw [← waits, Option.some.inj (found.symm.trans found')])
      · cases moves <;> simp [entering?, leaving?] at now leaves
      · exact not_mem_entries further left settled after
    · have held := books.queued i a found waits w there alive
      obtain ⟨s, v, reach, there', written⟩ := reaches_held (undisturbed ▸ there) alive held answers
      obtain ⟨later, further⟩ := reach
      exact ⟨s, ⟨later, further⟩, ((books.step moves).path further).handlings_eq there' written⟩

/-! ## An example -/

/-- Three ask a pool of one worker: the first has an answer, the second's request is in the mailbox, the third has not got
there. -/
def exampleActions : List (Action Nat Nat String) :=
  [.ask 3 (.seconds 1), .ask 5 (.seconds 1), .ask 7 (.seconds 1), .enter 0, .take 0, .enter 1, .finish 0 (.reply 9),
    .receive 0]

theorem exactly_once_example : ∃ p q : Pool Nat Nat String, (start "clerks" 1).result = .ok p ∧
    follow (fun _ _ => true) step p exampleActions = some q ∧ q.result? 0 = some (.ok 9) ∧ q.handlings 0 = [.reply 9] ∧
    (∃ r, q.step (.cancel 2) = some r ∧ ∀ s, Reachable (Steps step) r s → 2 ∉ s.undertaken) ∧
    ∃ r, q.step (.expire 1) = some r ∧ ∃ s, Reachable (Steps step) r s ∧ s.handlings 1 = [.reject "late"] := by
  obtain ⟨p, started, -, once⟩ := exactly_once (ρ := Nat) (α := Nat) (ε := String) "clerks" Nat.one_pos
  obtain rfl : p = { name := "clerks", workers := [{}] } := by cases started; rfl
  have possible : ∃ q : Pool Nat Nat String, follow (fun _ _ => true) step
      ({ name := "clerks", workers := [{}] } : Pool Nat Nat String) exampleActions = some q ∧ q.result? 0 = some (.ok 9) ∧
      (∃ (a : Ask Nat Nat String) (w : Worker Nat String), q.asks[1]? = some a ∧ a.phase = .queued ∧
        q.workers[a.worker]? = some w ∧ w.alive = true) ∧
      (∃ a : Ask Nat Nat String, q.asks[2]? = some a ∧ a.phase = .waiting) ∧ (∃ r, q.step (.cancel 2) = some r) ∧
      ∃ r, q.step (.expire 1) = some r :=
    ⟨_, rfl, rfl, ⟨_, _, rfl, rfl, rfl, rfl⟩, ⟨_, rfl, rfl⟩, ⟨_, rfl⟩, ⟨_, rfl⟩⟩
  obtain ⟨q, followed, replied, ⟨a, w, asks, queued, there, alive⟩, ⟨b, waits, waiting⟩, ⟨r, cancelled⟩, t, expired⟩ :=
    possible
  obtain ⟨actions, path⟩ := (reachable_of_follow followed fun _ _ _ => trivial).of_restricted
  obtain ⟨-, -, replies, -, leaves⟩ := once actions q path
  exact ⟨_, q, started, followed, replied, replies 0 9 replied,
    ⟨r, cancelled, (leaves _ r cancelled 2 b rfl waits).1 waiting⟩,
    t, expired, (leaves _ t expired 1 a rfl asks).2.2 queued w there alive (.reject "late") _ rfl⟩

end ChainArchive.Pool
