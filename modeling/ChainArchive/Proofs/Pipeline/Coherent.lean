import ChainArchive.Proofs.Pipeline.Moves

/-!
# Coherent pipelines

The queue and the list of finished tasks name exactly the items that are there,
nobody calls once the input is closed, and as long as nothing has failed the
driver has counted exactly the items that are done and has lost none. All of
this holds at the start and is kept by every step.
-/

namespace ChainArchive.Pipeline
set_option autoImplicit false

variable {σ : Type}

/-! ## Endings -/

/-- How the item has ended, if it has. -/
def Phase.ending? : Phase σ → Option Ending
  | .ended e | .uncounted e | .freed e | .finished e | .over e => some e
  | .recorded cause | .shut cause | .flagged cause => some (.failed cause)
  | _ => none

/-- The item is done. -/
def Phase.isDone (x : Phase σ) : Bool := x.ending? == some .done

/-- The driver has counted the item. -/
def Phase.isJoined : Phase σ → Bool
  | .over .done => true
  | _ => false

/-- The item came to nothing, and the driver knows. -/
def Phase.isLost : Phase σ → Bool
  | .over (.failed _) | .over .panicked | .over .cancelled => true
  | .ended .discarded | .uncounted .discarded | .freed .discarded | .finished .discarded | .over .discarded => true
  | _ => false

/-- Only a task can have its permit back and not be over. -/
def Phase.isProper : Phase σ → Bool
  | .freed e | .finished e => e.isOfTask
  | _ => true

/-- The driver has left its loop with a failure. -/
def Driver.isFailing : Driver → Bool
  | .raising _ | .shutting _ | .sealing _ | .cancelling _ | .draining _ | .finished (.error _) | .dropped => true
  | _ => false

/-! ## Phases after a change -/

@[simp] theorem phase?_setPhase (p : Pipeline σ) (i j : Nat) (x : Phase σ) :
    (p.setPhase i x).phase? j = if i = j then (p.phase? j).map fun _ => x else p.phase? j := by
  simp only [phase?, setPhase, List.getElem?_modify]
  split
  · cases p.items[j]? <;> rfl
  · cases p.items[j]? <;> rfl

/-- What holds of every phase still does after one has changed to a phase of which it holds. -/
theorem forall_setPhase {p : Pipeline σ} {P : Phase σ → Prop} {i : Nat} {y : Phase σ}
    (all : ∀ j x, p.phase? j = some x → P x) (new : P y) : ∀ j x, (p.setPhase i y).phase? j = some x → P x := by
  intro j x found
  rw [phase?_setPhase] at found
  split at found
  · simp only [Option.map_eq_some_iff] at found
    obtain ⟨_, _, rfl⟩ := found
    exact new
  · exact all j x found

section Frame

variable (p : Pipeline σ) (i : Nat) (x : Phase σ)

@[simp] theorem setPhase_queue : (p.setPhase i x).queue = p.queue := rfl
@[simp] theorem setPhase_unjoined : (p.setPhase i x).unjoined = p.unjoined := rfl
@[simp] theorem setPhase_inputOpen : (p.setPhase i x).inputOpen = p.inputOpen := rfl
@[simp] theorem setPhase_driver : (p.setPhase i x).driver = p.driver := rfl
@[simp] theorem setPhase_exhausted : (p.setPhase i x).exhausted = p.exhausted := rfl
@[simp] theorem setPhase_completed : (p.setPhase i x).completed = p.completed := rfl

end Frame

theorem mem_items_iff {p : Pipeline σ} {x : Phase σ} :
    (∃ item ∈ p.items, item.phase = x) ↔ ∃ i, p.phase? i = some x := by
  constructor
  · rintro ⟨item, member, rfl⟩
    obtain ⟨i, found⟩ := List.mem_iff_getElem?.1 member
    exact ⟨i, by simp [phase?, found]⟩
  · rintro ⟨i, found⟩
    simp only [phase?, Option.map_eq_some_iff] at found
    obtain ⟨item, found, rfl⟩ := found
    exact ⟨item, List.mem_of_getElem? found, rfl⟩

theorem isCalling_eq_false_iff {p : Pipeline σ} :
    p.isCalling = false ↔ ∀ i x, p.phase? i = some x → x.isCalling = false := by
  simp only [isCalling, List.any_eq_false, Bool.not_eq_true]
  constructor
  · intro quiet i x found
    obtain ⟨item, member, rfl⟩ := mem_items_iff.2 ⟨i, found⟩
    exact quiet item member
  · intro quiet item member
    obtain ⟨i, found⟩ := mem_items_iff.1 ⟨item, member, rfl⟩
    exact quiet i _ found

theorem isRunning_eq_false_iff {p : Pipeline σ} :
    p.isRunning = false ↔ ∀ i x, p.phase? i = some x → x.isRunning = false := by
  simp only [isRunning, List.any_eq_false, Bool.not_eq_true]
  constructor
  · intro quiet i x found
    obtain ⟨item, member, rfl⟩ := mem_items_iff.2 ⟨i, found⟩
    exact quiet item member
  · intro quiet item member
    obtain ⟨i, found⟩ := mem_items_iff.1 ⟨item, member, rfl⟩
    exact quiet i _ found

/-- A permit that comes back goes to an item that waits for one. It is free when nobody waits or the budget is
closed. -/
theorem release_cases (p : Pipeline σ) :
    ((p.budgetClosed = true ∨ ∀ i, p.phase? i ≠ some .waiting) ∧ p.release = { p with free := p.free + 1 }) ∨
    ∃ i, p.phase? i = some .waiting ∧ p.budgetClosed = false ∧ p.release = p.setPhase i .granted := by
  have isWaiting : ∀ item : Item σ, item.isWaiting = true ↔ item.phase = .waiting := by
    intro item
    unfold Item.isWaiting
    split <;> simp_all
  unfold release
  split
  · next i found =>
    split
    · next closed => exact .inl ⟨.inl closed, rfl⟩
    · next closed =>
      obtain ⟨inside, waits, -⟩ := List.findIdx?_eq_some_iff_getElem.1 found
      refine .inr ⟨i, ?_, by simpa using closed, rfl⟩
      simpa [phase?, List.getElem?_eq_getElem inside] using (isWaiting _).1 waits
  · next nobody =>
    refine .inl ⟨.inr fun i waits => ?_, rfl⟩
    obtain ⟨item, member, here⟩ := mem_items_iff.2 ⟨i, waits⟩
    have := List.findIdx?_eq_none_iff.1 nobody item member
    simp [(isWaiting item).2 here] at this

theorem countP_modify {α : Type} {P : α → Bool} {f : α → α} {l : List α} {i : Nat} {a : α} (found : l[i]? = some a) :
    (l.modify i f).countP P + (P a).toNat = l.countP P + (P (f a)).toNat := by
  induction l generalizing i with
  | nil => simp at found
  | cons b l ih =>
    cases i with
    | zero =>
      obtain rfl : b = a := by simpa using found
      cases now : P b <;> cases next : P (f b) <;> simp [now, next]
    | succ i =>
      have rest := ih (by simpa using found)
      simp only [List.modify_succ_cons, List.countP_cons]
      omega

/-- How many items the driver has counted. -/
def joined (p : Pipeline σ) : Nat := p.items.countP fun item => item.phase.isJoined

theorem joined_setPhase {p : Pipeline σ} {i : Nat} {x y : Phase σ} (found : p.phase? i = some x) :
    (p.setPhase i y).joined + x.isJoined.toNat = p.joined + y.isJoined.toNat := by
  simp only [phase?, Option.map_eq_some_iff] at found
  obtain ⟨item, found, rfl⟩ := found
  exact countP_modify (P := fun item => item.phase.isJoined) (f := fun item => { item with phase := y }) found

/-! ## The invariant -/

/-- What holds of a pipeline in every state that it can reach. -/
structure Coherent (p : Pipeline σ) : Prop where
  mem_queue : ∀ i, i ∈ p.queue ↔ p.phase? i = some .queued
  queue_nodup : p.queue.Nodup
  mem_unjoined : ∀ i, i ∈ p.unjoined ↔ ∃ ending, p.phase? i = some (.finished ending)
  unjoined_nodup : p.unjoined.Nodup
  proper : ∀ i x, p.phase? i = some x → x.isProper = true
  quiet : p.inputOpen = false → ∀ i x, p.phase? i = some x → x.isCalling = false
  exhausted : p.exhausted = true → p.inputOpen = false ∧ p.queue = []
  completed : p.driver.isFailing = false → p.completed = p.joined
  nothing_lost : p.driver.isFailing = false → ∀ i x, p.phase? i = some x → x.isLost = false
  stopped : ∀ count, p.driver = .finished (.ok count) →
    count = p.completed ∧ p.exhausted = true ∧ ∀ i x, p.phase? i = some x → x.isRunning = false

namespace Coherent

variable {p q : Pipeline σ}

theorem start {parallelism : Nat} (h : start parallelism = .ok p) : Coherent p := by
  unfold Pipeline.start at h
  split at h <;> cases h
  constructor <;> simp [phase?, joined]

/-- The driver goes on, and only what the invariant does not look at changes besides. -/
theorem goOn (h : Coherent p) (items : q.items = p.items) (queue : q.queue = p.queue)
    (unjoined : q.unjoined = p.unjoined) (input : q.inputOpen = p.inputOpen) (exhausted : q.exhausted = p.exhausted)
    (completed : q.completed = p.completed)
    (failing : q.driver.isFailing = false → p.driver.isFailing = false)
    (success : ∀ count, q.driver = .finished (.ok count) → p.driver = .finished (.ok count)) : Coherent q := by
  have phase : ∀ i, q.phase? i = p.phase? i := by simp [phase?, items]
  have joined : q.joined = p.joined := by simp [Pipeline.joined, items]
  constructor
  · simpa [phase, queue] using h.mem_queue
  · simpa [queue] using h.queue_nodup
  · simpa [phase, unjoined] using h.mem_unjoined
  · simpa [unjoined] using h.unjoined_nodup
  · simpa [phase] using h.proper
  · simpa [phase, input] using h.quiet
  · simpa [exhausted, input, queue] using h.exhausted
  · intro going
    rw [completed, joined]
    exact h.completed (failing going)
  · intro going
    simpa [phase] using h.nothing_lost (failing going)
  · intro n done
    simpa [exhausted, completed, phase] using h.stopped n (success n done)

/-- The invariant looks at these parts only. -/
theorem congr (h : Coherent p) (items : q.items = p.items) (queue : q.queue = p.queue)
    (unjoined : q.unjoined = p.unjoined) (input : q.inputOpen = p.inputOpen) (driver : q.driver = p.driver)
    (exhausted : q.exhausted = p.exhausted) (completed : q.completed = p.completed) : Coherent q :=
  h.goOn items queue unjoined input exhausted completed (by rw [driver]; exact id) (by rw [driver]; exact fun _ => id)

/-- An item goes on without entering or leaving the queue or the list of finished tasks. -/
theorem setPhase (h : Coherent p) {i : Nat} {x y : Phase σ} (found : p.phase? i = some x)
    (queued : x ≠ .queued ∧ y ≠ .queued) (finished : ∀ e, x ≠ .finished e ∧ y ≠ .finished e)
    (proper : y.isProper = true) (calling : y.isCalling = true → x.isCalling = true)
    (joined : x.isJoined = false ∧ y.isJoined = false)
    (lost : p.driver.isFailing = false → y.isLost = false)
    (running : y.isRunning = true → x.isRunning = true) : Coherent (p.setPhase i y) := by
  have count := joined_setPhase (y := y) found
  simp only [joined, Bool.toNat_false, Nat.add_zero] at count
  constructor
  · intro j
    simp only [phase?_setPhase]
    have := h.mem_queue j
    split <;> simp_all
  · exact h.queue_nodup
  · intro j
    simp only [phase?_setPhase]
    have := h.mem_unjoined j
    split <;> simp_all
  · exact h.unjoined_nodup
  · exact forall_setPhase h.proper proper
  · intro closed
    have before := h.quiet closed
    exact forall_setPhase before (by simpa [before i x found] using calling)
  · exact h.exhausted
  · intro going
    rw [count]
    exact h.completed going
  · intro going
    exact forall_setPhase (h.nothing_lost going) (lost going)
  · intro n done
    obtain ⟨total, known, stopped⟩ := h.stopped n done
    exact ⟨total, known, forall_setPhase stopped (by simpa [stopped i x found] using running)⟩

theorem release (h : Coherent p) : Coherent p.release := by
  rcases release_cases p with ⟨-, same⟩ | ⟨i, waits, -, granted⟩
  · rw [same]
    exact h.congr rfl rfl rfl rfl rfl rfl rfl
  · rw [granted]
    exact h.setPhase waits (by simp) (by simp) rfl (fun _ => rfl) ⟨rfl, rfl⟩ (fun _ => rfl) (by simp [Phase.isRunning])

/-- A call adds an item; once the input is closed it is refused at once. -/
theorem add (h : Coherent p) {request : ArchivalRequest} {x : Phase σ}
    (begins : x = .over .refused ∨ p.inputOpen = true ∧ (x = .waiting ∨ x = .holding)) :
    Coherent { p with items := p.items ++ [⟨request, x⟩] } := by
  have phase : ∀ j z, ({ p with items := p.items ++ [⟨request, x⟩] } : Pipeline σ).phase? j = some z ↔
      p.phase? j = some z ∨ j = p.items.length ∧ z = x := by
    intro j z
    simp only [phase?, List.getElem?_append]
    split
    · next inside => simp [Nat.ne_of_lt inside]
    · next outside =>
      obtain rfl | more : j = p.items.length ∨ p.items.length < j := by omega
      · simp [eq_comm]
      · have beyond : ([⟨request, x⟩] : List (Item σ))[j - p.items.length]? = none :=
          List.getElem?_eq_none (by simp; omega)
        simp [beyond, List.getElem?_eq_none (Nat.le_of_lt more), Nat.ne_of_gt more]
  have notQueued : x ≠ .queued := by obtain rfl | ⟨-, rfl | rfl⟩ := begins <;> simp
  have notFinished : ∀ e, x ≠ .finished e := by obtain rfl | ⟨-, rfl | rfl⟩ := begins <;> simp
  have notJoined : x.isJoined = false := by obtain rfl | ⟨-, rfl | rfl⟩ := begins <;> rfl
  constructor
  · intro j
    simpa [phase, Ne.symm notQueued] using h.mem_queue j
  · exact h.queue_nodup
  · intro j
    simpa [phase, Ne.symm (notFinished _)] using h.mem_unjoined j
  · exact h.unjoined_nodup
  · intro j z found
    rcases (phase j z).1 found with found | ⟨-, rfl⟩
    · exact h.proper j z found
    · obtain rfl | ⟨-, rfl | rfl⟩ := begins <;> rfl
  · intro closed j z found
    rcases (phase j z).1 found with found | ⟨-, rfl⟩
    · exact h.quiet closed j z found
    · rcases begins with rfl | ⟨isOpen, -⟩
      · rfl
      · exact absurd isOpen (by simpa using closed)
  · exact h.exhausted
  · intro going
    have := h.completed going
    simpa [joined, List.countP_append, notJoined] using this
  · intro going j z found
    rcases (phase j z).1 found with found | ⟨-, rfl⟩
    · exact h.nothing_lost going j z found
    · obtain rfl | ⟨-, rfl | rfl⟩ := begins <;> rfl
  · intro n done
    obtain ⟨total, known, stopped⟩ := h.stopped n done
    refine ⟨total, known, fun j z found => ?_⟩
    rcases (phase j z).1 found with found | ⟨-, rfl⟩
    · exact stopped j z found
    · obtain rfl | ⟨-, rfl | rfl⟩ := begins <;> rfl

/-- An item enters the queue. Its caller is still there, so the input is open. -/
theorem enqueue (h : Coherent p) {i : Nat} (found : p.phase? i = some .noted) :
    Coherent { p.setPhase i .queued with queue := p.queue ++ [i] } := by
  have isOpen : p.inputOpen = true := by
    by_contra closed
    simpa [Phase.isCalling] using h.quiet (by simpa using closed) i _ found
  have absent : i ∉ p.queue := by simp [h.mem_queue, found]
  have count := joined_setPhase (y := .queued) found
  constructor
  · intro j
    show j ∈ p.queue ++ [i] ↔ (p.setPhase i .queued).phase? j = some .queued
    have := h.mem_queue j
    rw [phase?_setPhase, List.mem_append, List.mem_singleton]
    split <;> grind
  · exact List.nodup_append.2 ⟨h.queue_nodup, by simp, by grind⟩
  · intro j
    show j ∈ p.unjoined ↔ ∃ ending, (p.setPhase i .queued).phase? j = some (.finished ending)
    have := h.mem_unjoined j
    rw [phase?_setPhase]
    split <;> simp_all
  · exact h.unjoined_nodup
  · exact forall_setPhase h.proper rfl
  · intro closed
    exact absurd isOpen (by simpa using closed)
  · intro known
    exact absurd isOpen (by simpa using (h.exhausted known).1)
  · intro going
    exact (h.completed going).trans count.symm
  · intro going
    exact forall_setPhase (h.nothing_lost going) rfl
  · intro n done
    exact absurd isOpen (by simpa using (h.exhausted (h.stopped n done).2.1).1)

/-- The first item of the queue gets a task. -/
theorem spawn (h : Coherent p) {fresh : ArchivalRequest → σ} {i : Nat} {rest : List Nat}
    (state : p.driver = .receiving) (waiting : p.queue = i :: rest) : Coherent (p.spawn fresh i rest) := by
  have found : p.phase? i = some .queued := (h.mem_queue i).1 (by simp [waiting])
  obtain ⟨item, inside, -⟩ : ∃ item, p.items[i]? = some item ∧ item.phase = .queued := by
    simpa [phase?] using found
  have count := joined_setPhase (y := .working (fresh item.request)) found
  have nodup : (i :: rest).Nodup := waiting ▸ h.queue_nodup
  have phase : ∀ j, (p.spawn fresh i rest).phase? j = (p.setPhase i (.working (fresh item.request))).phase? j := by
    intro j
    simp [Pipeline.spawn, inside, phase?, Pipeline.setPhase]
  have same : (p.spawn fresh i rest).queue = rest ∧ (p.spawn fresh i rest).unjoined = p.unjoined ∧
      (p.spawn fresh i rest).inputOpen = p.inputOpen ∧ (p.spawn fresh i rest).driver = .head ∧
      (p.spawn fresh i rest).exhausted = p.exhausted ∧ (p.spawn fresh i rest).completed = p.completed ∧
      (p.spawn fresh i rest).joined = (p.setPhase i (.working (fresh item.request))).joined := by
    simp [Pipeline.spawn, inside, joined, Pipeline.setPhase]
  obtain ⟨queue, unjoined, input, driver, exhausted, completed, joined⟩ := same
  have going : p.driver.isFailing = false := by simp [state, Driver.isFailing]
  constructor
  · intro j
    rw [queue, phase, phase?_setPhase]
    have := h.mem_queue j
    rw [waiting] at this
    split <;> grind
  · rw [queue]
    exact (List.nodup_cons.1 nodup).2
  · intro j
    have := h.mem_unjoined j
    rw [unjoined, phase, phase?_setPhase]
    split <;> simp_all
  · rw [unjoined]
    exact h.unjoined_nodup
  · simp only [phase]
    exact forall_setPhase h.proper rfl
  · simp only [phase, input]
    exact fun closed => forall_setPhase (h.quiet closed) rfl
  · rw [exhausted, input, queue]
    intro known
    simp [(h.exhausted known).2] at waiting
  · rw [completed, joined]
    exact fun _ => (h.completed going).trans count.symm
  · simp only [phase]
    exact fun _ => forall_setPhase (h.nothing_lost going) rfl
  · simp [driver]

/-- A task has finished and waits for the driver. -/
theorem finish (h : Coherent p) {i : Nat} {ending : Ending} (found : p.phase? i = some (.freed ending)) :
    Coherent { p.setPhase i (.finished ending) with unjoined := p.unjoined ++ [i] } := by
  have absent : i ∉ p.unjoined := by simp [h.mem_unjoined, found]
  have count := joined_setPhase (y := .finished ending) found
  have proper : ending.isOfTask = true := h.proper i _ found
  constructor
  · intro j
    show j ∈ p.queue ↔ (p.setPhase i (.finished ending)).phase? j = some .queued
    have := h.mem_queue j
    rw [phase?_setPhase]
    split <;> simp_all
  · exact h.queue_nodup
  · intro j
    show j ∈ p.unjoined ++ [i] ↔ ∃ e, (p.setPhase i (.finished ending)).phase? j = some (.finished e)
    have := h.mem_unjoined j
    rw [phase?_setPhase, List.mem_append, List.mem_singleton]
    split <;> simp_all
    omega
  · exact List.nodup_append.2 ⟨h.unjoined_nodup, by simp, by grind⟩
  · exact forall_setPhase h.proper proper
  · intro closed
    exact forall_setPhase (h.quiet closed) rfl
  · exact h.exhausted
  · intro going
    exact (h.completed going).trans count.symm
  · intro going
    refine forall_setPhase (h.nothing_lost going) ?_
    have := h.nothing_lost going i _ found
    cases ending <;> first | rfl | simp [Phase.isLost] at this
  · intro n done
    obtain ⟨total, known, stopped⟩ := h.stopped n done
    have := stopped i _ found
    simp [Phase.isRunning, proper] at this

/-- The driver takes a finished task off its list. -/
theorem takeOff (h : Coherent p) {i : Nat} {rest : List Nat} {ending : Ending}
    (found : p.phase? i = some (.finished ending))
    (waiting : p.unjoined = i :: rest) (items : q.items = (p.setPhase i (.over ending)).items)
    (queue : q.queue = p.queue) (unjoined : q.unjoined = rest) (input : q.inputOpen = p.inputOpen)
    (exhausted : q.exhausted = p.exhausted) (pending : ∀ count, q.driver ≠ .finished (.ok count))
    (counts : q.driver.isFailing = false →
      ending = .done ∧ p.driver.isFailing = false ∧ q.completed = p.completed + 1) : Coherent q := by
  have phase : ∀ j, q.phase? j = (p.setPhase i (.over ending)).phase? j := by simp [phase?, items]
  have nodup : (i :: rest).Nodup := waiting ▸ h.unjoined_nodup
  have count := joined_setPhase (y := .over ending) found
  constructor
  · intro j
    have := h.mem_queue j
    rw [queue, phase, phase?_setPhase]
    split <;> simp_all
  · rw [queue]
    exact h.queue_nodup
  · intro j
    have := h.mem_unjoined j
    rw [waiting] at this
    rw [unjoined, phase, phase?_setPhase]
    split <;> grind
  · rw [unjoined]
    exact (List.nodup_cons.1 nodup).2
  · simp only [phase]
    exact forall_setPhase h.proper rfl
  · simp only [phase, input]
    exact fun closed => forall_setPhase (h.quiet closed) rfl
  · rw [exhausted, input, queue]
    exact h.exhausted
  · intro going
    obtain ⟨rfl, before, total⟩ := counts going
    have : q.joined = (p.setPhase i (.over .done)).joined := by simp [joined, items]
    rw [total, h.completed before, this]
    simpa [Phase.isJoined] using count.symm
  · intro going
    obtain ⟨rfl, before, -⟩ := counts going
    simp only [phase]
    exact forall_setPhase (h.nothing_lost before) rfl
  · exact fun n done => absurd done (pending n)

end Coherent

theorem phase?_discardQueue (p : Pipeline σ) (j : Nat) :
    p.discardQueue.phase? j = if j ∈ p.queue then (p.phase? j).map fun _ => .ended .discarded else p.phase? j := by
  have all : ∀ (queue : List Nat) (p : Pipeline σ),
      (queue.foldl (fun p i => p.setPhase i (.ended .discarded)) p).phase? j =
        if j ∈ queue then (p.phase? j).map fun _ => .ended .discarded else p.phase? j := by
    intro queue
    induction queue with
    | nil => simp
    | cons i queue ih =>
      intro p
      rw [List.foldl_cons, ih, phase?_setPhase]
      rcases eq_or_ne i j with rfl | other
      · cases p.phase? i <;> simp
      · simp [other, Ne.symm other]
  exact all p.queue p

theorem discardQueue_frame (p : Pipeline σ) : p.discardQueue.unjoined = p.unjoined ∧
    p.discardQueue.inputOpen = p.inputOpen ∧ p.discardQueue.exhausted = p.exhausted := by
  have all : ∀ (queue : List Nat) (q : Pipeline σ),
      (queue.foldl (fun p i => p.setPhase i (.ended .discarded)) q).unjoined = q.unjoined ∧
      (queue.foldl (fun p i => p.setPhase i (.ended .discarded)) q).inputOpen = q.inputOpen ∧
      (queue.foldl (fun p i => p.setPhase i (.ended .discarded)) q).exhausted = q.exhausted := by
    intro queue
    induction queue with
    | nil => simp
    | cons i queue ih => exact fun q => ih (q.setPhase i (.ended .discarded))
  exact all p.queue p

namespace Coherent

variable {p q : Pipeline σ}

/-- The queue is thrown away by a driver that has failed. -/
theorem discard (h : Coherent p) (items : q.items = p.discardQueue.items) (queue : q.queue = [])
    (unjoined : q.unjoined = p.unjoined) (input : q.inputOpen = p.inputOpen) (exhausted : q.exhausted = p.exhausted)
    (failing : q.driver.isFailing = true) : Coherent q := by
  have phase : ∀ j, q.phase? j = if j ∈ p.queue then some (.ended .discarded) else p.phase? j := by
    intro j
    have : q.phase? j = p.discardQueue.phase? j := by simp [phase?, items]
    rw [this, phase?_discardQueue]
    split
    · next member => simp [(h.mem_queue j).1 member]
    · rfl
  have old : ∀ {P : Phase σ → Prop}, (∀ j x, p.phase? j = some x → P x) → P (.ended .discarded) →
      ∀ j x, q.phase? j = some x → P x := by
    intro P all new j x found
    rw [phase] at found
    split at found
    · cases found; exact new
    · exact all j x found
  constructor
  · intro j
    have := h.mem_queue j
    rw [phase, queue]
    split <;> simp_all
  · simp [queue]
  · intro j
    have := h.mem_unjoined j
    have := h.mem_queue j
    rw [phase, unjoined]
    split <;> simp_all
  · rw [unjoined]
    exact h.unjoined_nodup
  · exact old h.proper rfl
  · rw [input]
    exact fun closed => old (h.quiet closed) rfl
  · rw [exhausted, input]
    exact fun known => ⟨(h.exhausted known).1, queue⟩
  · simp [failing]
  · simp [failing]
  · intro n done
    simp [done, Driver.isFailing] at failing

/-- The input is closed while nobody calls. -/
theorem closeInput (h : Coherent p) (nobody : p.isCalling = false) (items : q.items = p.items)
    (queue : q.queue = p.queue) (unjoined : q.unjoined = p.unjoined) (input : q.inputOpen = false)
    (driver : q.driver = p.driver) (exhausted : q.exhausted = p.exhausted) (completed : q.completed = p.completed) :
    Coherent q := by
  have phase : ∀ i, q.phase? i = p.phase? i := by simp [phase?, items]
  have joined : q.joined = p.joined := by simp [Pipeline.joined, items]
  constructor
  · simpa [phase, queue] using h.mem_queue
  · simpa [queue] using h.queue_nodup
  · simpa [phase, unjoined] using h.mem_unjoined
  · simpa [unjoined] using h.unjoined_nodup
  · simpa [phase] using h.proper
  · intro _
    simpa [phase] using isCalling_eq_false_iff.1 nobody
  · intro known
    exact ⟨input, by simpa [queue] using (h.exhausted (exhausted ▸ known)).2⟩
  · simpa [driver, completed, joined] using h.completed
  · simpa [driver, phase] using h.nothing_lost
  · simpa [driver, exhausted, completed, phase] using h.stopped

/-- The driver learns that no further item comes. -/
theorem exhaust (h : Coherent p) (state : p.driver = .receiving) (nothing : p.queue = []) (closed : p.inputOpen = false) :
    Coherent { p with exhausted := true, driver := .head } :=
  have going : p.driver.isFailing = false := by simp [state, Driver.isFailing]
  { h with
    exhausted := fun _ => ⟨closed, nothing⟩
    completed := fun _ => h.completed going
    nothing_lost := fun _ => h.nothing_lost going
    stopped := by simp }

/-- The driver finds that all is done. -/
theorem succeed (h : Coherent p) (state : p.driver = .head) (known : p.exhausted = true) (stopped : p.isRunning = false) :
    Coherent { p with driver := .finished (.ok p.completed), queueClosed := true } :=
  have going : p.driver.isFailing = false := by simp [state, Driver.isFailing]
  { h with
    completed := fun _ => h.completed going
    nothing_lost := fun _ => h.nothing_lost going
    stopped := fun n done => by
      have total : n = p.completed := by simpa using done.symm
      exact ⟨total, known, isRunning_eq_false_iff.1 stopped⟩ }

/-- Every step keeps a pipeline coherent. -/
theorem step {fresh : ArchivalRequest → σ} {action : Action σ} (h : Coherent p) (moves : Moves fresh p action q) :
    Coherent q := by
  cases moves with
  | callRefused => exact h.add (.inl rfl)
  | callWaits isOpen => exact h.add (.inr ⟨isOpen, .inl rfl⟩)
  | callHolds isOpen => exact (h.add (.inr ⟨isOpen, .inr rfl⟩)).congr rfl rfl rfl rfl rfl rfl rfl
  | refuseWaiting found | withdrawWaiting found =>
    exact h.setPhase found (by simp) (by simp) rfl (by simp [Phase.isCalling]) ⟨rfl, rfl⟩ (fun _ => rfl)
      (by simp [Phase.isRunning])
  | refuseGranted found | withdrawGranted found | withdrawHolding found =>
    exact (h.setPhase found (by simp) (by simp) rfl (by simp [Phase.isCalling]) ⟨rfl, rfl⟩ (fun _ => rfl)
      (by simp [Phase.isRunning])).release
  | hold found | refuseNoted found | withdrawCounted found | withdrawNoted found =>
    exact h.setPhase found (by simp) (by simp) rfl (fun _ => rfl) ⟨rfl, rfl⟩ (fun _ => rfl)
      (by simp [Phase.isRunning, Ending.isOfTask])
  | count found | note found =>
    exact (h.setPhase found (by simp) (by simp) rfl (fun _ => rfl) ⟨rfl, rfl⟩ (fun _ => rfl)
      (by simp [Phase.isRunning])).congr rfl rfl rfl rfl rfl rfl rfl
  | enqueue found => exact h.enqueue found
  | complete nobody => exact h.closeInput nobody rfl rfl rfl rfl rfl rfl rfl
  | abort => exact h.congr rfl rfl rfl rfl rfl rfl rfl
  | dropHandle nobody =>
    unfold dropHandle
    split <;> exact h.closeInput nobody rfl rfl rfl rfl rfl rfl rfl
  | setWork found =>
    exact h.setPhase found (by simp) (by simp) rfl (by simp [Phase.isCalling]) ⟨rfl, rfl⟩ (fun _ => rfl) (fun _ => rfl)
  | @finishWork _ _ ending found own =>
    refine h.setPhase found (by simp) (by simp) rfl ?_ ⟨rfl, rfl⟩ (fun _ => ?_) (fun _ => rfl)
    · cases ending <;> simp_all [Phase.isCalling, Ending.isOfWork, Ending.isOfTask]
    · cases ending <;> simp_all [Phase.isLost, Ending.isOfWork]
  | cancelWork found =>
    exact h.setPhase found (by simp) (by simp) rfl (by simp [Phase.isCalling, Ending.isOfTask]) ⟨rfl, rfl⟩
      (fun _ => rfl) (fun _ => rfl)
  | record found | shut found | flag found =>
    exact (h.setPhase found (by simp) (by simp) rfl (by simp [Phase.isCalling]) ⟨rfl, rfl⟩ (fun _ => rfl)
      (fun _ => rfl)).congr rfl rfl rfl rfl rfl rfl rfl
  | discountFailed found =>
    exact (h.setPhase found (by simp) (by simp) rfl (by simp [Phase.isCalling, Ending.isOfTask]) ⟨rfl, rfl⟩
      (fun _ => rfl) (fun _ => rfl)).congr rfl rfl rfl rfl rfl rfl rfl
  | @discount _ ending found _ =>
    refine (h.setPhase (y := .uncounted ending) found (by simp) (by simp) rfl id ⟨rfl, rfl⟩ (fun going => ?_) id).congr
      rfl rfl rfl rfl rfl rfl rfl
    have := h.nothing_lost going _ _ found
    cases ending <;> simp_all [Phase.isLost]
  | @freeTask _ ending found task =>
    refine (h.setPhase (y := .freed ending) found (by simp) (by simp) task (by simp [Phase.isCalling]) ⟨rfl, rfl⟩
      (fun going => ?_)
      id).release
    cases ending <;> simp_all [Phase.isLost, Ending.isOfTask]
  | @freeCall _ ending found call =>
    refine (h.setPhase (y := .over ending) found (by simp) (by simp) rfl (by simp [Phase.isCalling]) ⟨rfl, ?_⟩
      (fun going => ?_)
      (by simp [Phase.isRunning])).release
    · cases ending <;> simp_all [Phase.isJoined, Ending.isOfTask]
    · have := h.nothing_lost going _ _ found
      cases ending <;> simp_all [Phase.isLost, Ending.isOfTask]
  | finish found => exact h.finish found
  | wake state | watch state | seeFlag state | seeNoFlag state | receive state | rest state | await state
  | raiseFlag state | closeBudget state | sealQueue state | cancelTasks state =>
    exact h.goOn rfl rfl rfl rfl rfl rfl (by simp [state, Driver.isFailing]) (by simp)
  | succeed state known stopped => exact h.succeed state known stopped
  | @join _ _ ending state waiting found =>
    apply h.takeOff found waiting ?_ ?_ ?_ ?_ ?_ ?_
    all_goals cases ending <;> simp [Pipeline.join, state, Driver.isFailing]
  | joinNobody _ waiting nobody =>
    obtain ⟨ending, found⟩ := (h.mem_unjoined _).1 (by rw [waiting]; exact List.mem_cons_self)
    exact absurd found (nobody ending)
  | exhaust state _ nothing closed => exact h.exhaust state nothing closed
  | spawn state _ waiting => exact h.spawn state waiting
  | drain state waiting found =>
    refine h.takeOff found waiting rfl rfl rfl rfl rfl ?_ ?_ <;> simp [state, Driver.isFailing]
  | drainNobody _ waiting nobody =>
    obtain ⟨ending, found⟩ := (h.mem_unjoined _).1 (by rw [waiting]; exact List.mem_cons_self)
    exact absurd found (nobody ending)
  | fail | abandon =>
    obtain ⟨unjoined, input, exhausted⟩ := discardQueue_frame p
    exact h.discard rfl rfl unjoined input exhausted rfl

/-- When the driver has its result and it is a success, all that was enqueued is done and counted, and the rest was
never taken. -/
theorem over_of_success (h : Coherent p) {count : Nat} (success : p.driver = .finished (.ok count)) :
    count = p.joined ∧
      ∀ i x, p.phase? i = some x → x = .over .done ∨ x = .over .refused ∨ x = .over .withdrawn := by
  have going : p.driver.isFailing = false := by simp [success, Driver.isFailing]
  obtain ⟨total, known, stopped⟩ := h.stopped count success
  obtain ⟨closed, nothing⟩ := h.exhausted known
  refine ⟨total.trans (h.completed going), fun i x found => ?_⟩
  have running := stopped i x found
  have calling := h.quiet closed i x found
  have lost := h.nothing_lost going i x found
  have proper := h.proper i x found
  cases x with
  | queued => simp [nothing, ← h.mem_queue] at found
  | «over» ending => cases ending <;> simp_all [Phase.isLost]
  | ended ending | uncounted ending =>
    cases ending <;> simp_all [Phase.isLost, Phase.isRunning, Phase.isCalling, Ending.isOfTask]
  | _ => simp_all [Phase.isRunning, Phase.isCalling, Phase.isProper]

end Coherent
end ChainArchive.Pipeline
