import ChainArchive.Proofs.Pipeline.Signals
import Mathlib.Data.List.Perm.Subperm

/-!
# The budget of permits

Every permit is free or held by exactly one item: by one that is being
enqueued, by one in the queue or by one with a task. No step makes a permit or
loses one, on whatever way an item comes to its end. So the gauge and its peak
stay within the budget, the queue has room for whoever has a permit, and a call
waits only while all permits are held.
-/

namespace ChainArchive.Pipeline
set_option autoImplicit false

variable {σ : Type}

/-! ## Counting items -/

/-- How many items are in a phase of this kind. -/
def tally (p : Pipeline σ) (P : Phase σ → Bool) : Nat := p.items.countP fun item => P item.phase

section Tally

variable {p : Pipeline σ} {P Q : Phase σ → Bool}

theorem tally_setPhase {i : Nat} {x y : Phase σ} (found : p.phase? i = some x) :
    (p.setPhase i y).tally P + (P x).toNat = p.tally P + (P y).toNat := by
  obtain ⟨request, inside⟩ := items_of_phase? found
  exact countP_modify (P := fun item => P item.phase) (f := fun item => { item with phase := y }) inside

theorem tally_mono (sub : ∀ x, P x = true → Q x = true) : p.tally P ≤ p.tally Q :=
  List.countP_mono_left fun item _ => sub item.phase

/-- The numbers of the items that are in a phase of this kind. -/
def numbers (p : Pipeline σ) (P : Phase σ → Bool) : List Nat :=
  (List.range p.items.length).filter fun i => (p.phase? i).any P

theorem length_numbers : (p.numbers P).length = p.tally P := by
  have phases : (List.range p.items.length).map p.phase? = p.items.map fun item => some item.phase := by
    apply List.ext_getElem <;> simp +contextual [phase?]
  calc (p.numbers P).length = ((List.range p.items.length).map p.phase?).countP fun x => x.any P := by
        rw [numbers, ← List.countP_eq_length_filter, List.countP_map]
        rfl
    _ = p.tally P := by
        rw [phases, List.countP_map]
        rfl

theorem mem_numbers {i : Nat} : i ∈ p.numbers P ↔ ∃ x, p.phase? i = some x ∧ P x = true := by
  simp only [numbers, List.mem_filter, List.mem_range, Option.any_eq_true, and_iff_right_iff_imp]
  rintro ⟨x, found, -⟩
  obtain ⟨request, inside⟩ := items_of_phase? found
  exact (List.getElem?_eq_some_iff.1 inside).1

/-- Different items in phases of this kind are no more than there are. -/
theorem length_le_tally {items : List Nat} (nodup : items.Nodup)
    (each : ∀ i ∈ items, ∃ x, p.phase? i = some x ∧ P x = true) : items.length ≤ p.tally P := by
  rw [← length_numbers]
  exact (List.Nodup.subperm nodup fun i member => mem_numbers.2 (each i member)).length_le

/-- The queue holds the queued items, each once. -/
theorem Coherent.length_queue (coherent : Coherent p)
    (queued : ∀ i x, p.phase? i = some x → (P x = true ↔ x = .queued)) : p.queue.length = p.tally P := by
  rw [← length_numbers]
  refine ((List.perm_ext_iff_of_nodup coherent.queue_nodup (List.nodup_range.filter _)).2 fun i => ?_).length_eq
  rw [coherent.mem_queue, ← numbers, mem_numbers]
  constructor
  · exact fun found => ⟨_, found, (queued i _ found).2 rfl⟩
  · rintro ⟨x, found, isQueued⟩
    rw [found, (queued i x found).1 isQueued]

end Tally

/-! ## Where the permits are -/

/-- What holds of the permits and the gauge in every state that a pipeline with so many permits can reach. -/
structure Balanced (limit : Nat) (p : Pipeline σ) : Prop where
  parallelism : p.parallelism = limit
  permits : p.free + p.tally Phase.hasPermit = limit
  gauge : p.inFlight = p.tally Phase.isCounted
  counted : ∀ i x, p.phase? i = some x → ∀ n, x = .counted n → n ≤ limit
  peak : p.peak ≤ limit

/-- An item that is counted has a permit. -/
theorem Phase.hasPermit_of_isCounted (x : Phase σ) (counted : x.isCounted = true) : x.hasPermit = true := by
  cases x <;> first | rfl | cases counted

namespace Balanced

variable {limit : Nat} {p q : Pipeline σ} {fresh : ArchivalRequest → σ} {action : Action σ} {i : Nat} {x y : Phase σ}

theorem start (h : Pipeline.start limit = .ok p) : Balanced limit p := by
  unfold Pipeline.start at h
  split at h <;> cases h
  constructor <;> simp [tally, phase?]

/-- No more items are in flight than there are permits. -/
theorem inFlight_le (h : Balanced limit p) : p.inFlight ≤ limit := by
  have mono := tally_mono (p := p) Phase.hasPermit_of_isCounted
  have permits := h.permits
  rw [h.gauge]
  omega

/-- The invariant looks at these parts only. -/
theorem congr (h : Balanced limit p) (parallelism : q.parallelism = p.parallelism) (items : q.items = p.items)
    (free : q.free = p.free) (inFlight : q.inFlight = p.inFlight) (peak : q.peak ≤ limit) : Balanced limit q := by
  have phase : ∀ j, q.phase? j = p.phase? j := by simp [phase?, items]
  have tally : ∀ P, q.tally P = p.tally P := by simp [Pipeline.tally, items]
  refine ⟨parallelism.trans h.parallelism, ?_, ?_, ?_, peak⟩
  · rw [free, tally, h.permits]
  · rw [inFlight, tally, h.gauge]
  · simpa only [phase] using h.counted

/-- An item goes on. What it takes is no longer free, and what it gives back is. -/
theorem change (h : Balanced limit p) (found : p.phase? i = some x) {f g : Nat}
    (permits : f + y.hasPermit.toNat = p.free + x.hasPermit.toNat)
    (gauge : g + x.isCounted.toNat = p.inFlight + y.isCounted.toNat) (bound : ∀ n, y = .counted n → n ≤ limit) :
    Balanced limit { p.setPhase i y with free := f, inFlight := g } := by
  have hasPermit := tally_setPhase (P := Phase.hasPermit) (y := y) found
  have isCounted := tally_setPhase (P := Phase.isCounted) (y := y) found
  have permits' := h.permits
  have gauge' := h.gauge
  refine ⟨h.parallelism, ?_, ?_, forall_setPhase h.counted bound, h.peak⟩
  · show f + (p.setPhase i y).tally Phase.hasPermit = limit
    omega
  · show g = (p.setPhase i y).tally Phase.isCounted
    omega

/-- An item keeps its permit, or goes on without one, and is counted as before. -/
theorem setPhase (h : Balanced limit p) (found : p.phase? i = some x) (permit : y.hasPermit = x.hasPermit)
    (counted : y.isCounted = x.isCounted) (bound : ∀ n, y = .counted n → n ≤ limit) : Balanced limit (p.setPhase i y) :=
  h.change found (by rw [permit]) (by rw [counted]) bound

/-- A permit that came back goes to an item that waits for one. -/
theorem release (h : Balanced limit { p with free := p.free + 1 }) : Balanced limit p.release := by
  rcases release_cases p with ⟨-, same⟩ | ⟨j, waits, -, granted⟩
  · rw [same]
    exact h
  · rw [granted]
    exact h.change (y := .granted) (f := p.free) (g := p.inFlight) waits rfl rfl (by simp)

/-- An item gives its permit back. -/
theorem giveBack (h : Balanced limit p) (found : p.phase? i = some x) (had : x.hasPermit = true)
    (has : y.hasPermit = false) (counted : y.isCounted = x.isCounted) : Balanced limit (p.setPhase i y).release := by
  apply release
  refine h.change (f := p.free + 1) (g := p.inFlight) found (by rw [had, has]; rfl) (by rw [counted]) ?_
  rintro n rfl
  cases has

/-- A call adds an item. If the item has a permit, that one was free. -/
theorem add (h : Balanced limit p) {request : ArchivalRequest} {f : Nat} (permits : f + x.hasPermit.toNat = p.free)
    (counted : x.isCounted = false) : Balanced limit { p with items := p.items ++ [⟨request, x⟩], free := f } := by
  have permits' := h.permits
  refine ⟨h.parallelism, ?_, ?_, fun j y found n here => ?_, h.peak⟩
  · simp only [tally, List.countP_append, List.countP_singleton] at permits' ⊢
    cases permit : x.hasPermit <;> simp [permit] at permits ⊢ <;> omega
  · simp [h.gauge, tally, List.countP_append, counted]
  · subst here
    simp only [phase?, List.getElem?_append] at found
    split at found
    · exact h.counted j _ found n rfl
    · simp only [Option.map_eq_some_iff] at found
      obtain ⟨item, found, here⟩ := found
      have last := List.mem_singleton.1 (List.mem_of_getElem? found)
      rw [last] at here
      simp only at here
      rw [here] at counted
      cases counted

/-- There is room on the gauge for an item that has a permit and has not been counted. -/
theorem inFlight_lt (h : Balanced limit p) (found : p.phase? i = some .holding) : p.inFlight < limit := by
  have hasPermit := tally_setPhase (P := Phase.hasPermit) (y := .noted) found
  have isCounted := tally_setPhase (P := Phase.isCounted) (y := .noted) found
  have mono := tally_mono (p := p.setPhase i .noted) Phase.hasPermit_of_isCounted
  have permits := h.permits
  have gauge := h.gauge
  simp only [Phase.hasPermit, Phase.isCounted, Bool.toNat_true, Bool.toNat_false] at hasPermit isCounted
  omega

/-- The gauge goes down with an item that still has its permit. -/
theorem discount (h : Balanced limit p) {ending : Ending} (found : p.phase? i = some x) (counted : x.isCounted = true) :
    Balanced limit { p.setPhase i (.uncounted ending) with inFlight := p.inFlight - 1 } := by
  have one := tally_setPhase (P := Phase.isCounted) (y := .uncounted ending) found
  have gauge := h.gauge
  refine h.change (y := .uncounted ending) (f := p.free) (g := p.inFlight - 1) found ?_ ?_ (by simp)
  · rw [Phase.hasPermit_of_isCounted x counted]
    rfl
  · rw [counted] at one ⊢
    simp only [Phase.isCounted, Bool.toNat_true, Bool.toNat_false] at one ⊢
    omega

/-- Queued items that are thrown away keep their permits for the time being. -/
theorem discard {queue : List Nat} (h : Balanced limit p)
    (each : ∀ j ∈ queue, ∃ x, p.phase? j = some x ∧ x.hasPermit = true ∧ x.isCounted = true) :
    Balanced limit (queue.foldl (fun p j => p.setPhase j (.ended .discarded)) p) := by
  induction queue generalizing p with
  | nil => exact h
  | cons i queue ih =>
    obtain ⟨x, found, permit, counted⟩ := each i List.mem_cons_self
    refine ih (h.setPhase found permit.symm counted.symm (by simp)) fun j member => ?_
    obtain ⟨y, there, holds⟩ := each j (List.mem_cons_of_mem _ member)
    rw [phase?_setPhase, there]
    split
    · exact ⟨_, rfl, rfl, rfl⟩
    · exact ⟨y, rfl, holds⟩

/-- The first item of the queue gets a task. -/
theorem spawn (h : Balanced limit p) (found : p.phase? i = some .queued) {rest : List Nat} :
    Balanced limit (p.spawn fresh i rest) := by
  obtain ⟨request, inside⟩ := items_of_phase? found
  simp only [Pipeline.spawn, inside]
  exact (h.setPhase (y := .working (fresh request)) found rfl rfl (by simp)).congr rfl rfl rfl rfl h.peak

/-- No step makes a permit or loses one. -/
theorem step (h : Balanced limit p) (coherent : Coherent p) (moves : Moves fresh p action q) : Balanced limit q := by
  have same : p.peak ≤ limit := h.peak
  have discards : Balanced limit (p.queue.foldl (fun p j => p.setPhase j (.ended .discarded)) p) :=
    h.discard fun j member => ⟨_, (coherent.mem_queue j).1 member, rfl, rfl⟩
  cases moves with
  | callRefused | callWaits => exact h.add rfl rfl
  | callHolds _ _ some => exact h.add (Nat.sub_add_cancel (Nat.pos_of_ne_zero some)) rfl
  | refuseWaiting found | hold found | refuseNoted found | withdrawWaiting found | withdrawCounted found
  | withdrawNoted found | setWork found | finishWork found | cancelWork found =>
    exact h.setPhase found rfl rfl (by simp)
  | refuseGranted found | withdrawGranted found | withdrawHolding found | freeTask found | freeCall found =>
    exact h.giveBack found rfl rfl rfl
  | count found =>
    refine h.change (y := .counted (p.inFlight + 1)) (f := p.free) (g := p.inFlight + 1) found rfl rfl ?_
    rintro _ ⟨⟩
    exact h.inFlight_lt found
  | @note i n found =>
    exact (h.setPhase (y := .noted) found rfl rfl (by simp)).congr rfl rfl rfl rfl
      (Nat.max_le.2 ⟨same, h.counted i _ found n rfl⟩)
  | enqueue found | record found | shut found | flag found | finish found | drain _ _ found =>
    exact (h.setPhase found (by rfl) (by rfl) (by simp)).congr rfl rfl rfl rfl same
  | @discountFailed i cause found => exact h.discount found rfl
  | @discount i ending found => exact h.discount found rfl
  | dropHandle =>
    unfold dropHandle
    split <;> exact h.congr rfl rfl rfl rfl same
  | @join i rest ending _ _ found =>
    have next := h.setPhase (y := .over ending) found rfl rfl (by simp)
    cases ending <;> exact next.congr rfl rfl rfl rfl same
  | spawn _ _ waiting => exact h.spawn ((coherent.mem_queue _).1 (by simp [waiting]))
  | fail | abandon => exact discards.congr rfl rfl rfl rfl discards.peak
  | _ => exact h.congr rfl rfl rfl rfl same

end Balanced

/-! ## Who waits -/

/-- While a permit is free nobody waits for one, unless the budget is closed. -/
def Prompt (p : Pipeline σ) : Prop := p.budgetClosed = false → p.free ≠ 0 → ∀ i x, p.phase? i = some x → x ≠ .waiting

namespace Prompt

variable {p q : Pipeline σ} {fresh : ArchivalRequest → σ} {action : Action σ} {i : Nat} {y : Phase σ}

theorem start {parallelism : Nat} (h : Pipeline.start parallelism = .ok p) : Prompt p := by
  unfold Pipeline.start at h
  split at h <;> cases h
  simp [Prompt, phase?]

theorem congr (h : Prompt p) (items : q.items = p.items) (free : q.free = p.free)
    (closed : p.budgetClosed = true → q.budgetClosed = true) : Prompt q := by
  intro isOpen some
  have phase : ∀ j, q.phase? j = p.phase? j := by simp [phase?, items]
  simp only [phase]
  refine h ?_ (free ▸ some)
  by_contra shut
  simp [closed (by simpa using shut)] at isOpen

theorem setPhase (h : Prompt p) (goesOn : y ≠ .waiting) : Prompt (p.setPhase i y) :=
  fun isOpen some => forall_setPhase (h isOpen some) goesOn

theorem release (h : Prompt p) : Prompt p.release := by
  rcases release_cases p with ⟨alone, same⟩ | ⟨j, -, -, granted⟩
  · rw [same]
    rintro isOpen - j x found rfl
    exact alone.elim (fun closed => by simp_all) fun nobody => nobody j found
  · rw [granted]
    exact h.setPhase (by simp)

theorem add (h : Prompt p) {request : ArchivalRequest} {f : Nat} (fewer : f ≤ p.free)
    (waits : y = .waiting → p.free = 0) : Prompt { p with items := p.items ++ [⟨request, y⟩], free := f } := by
  rintro isOpen some j x found rfl
  have more : p.free ≠ 0 := by
    simp only at some
    omega
  simp only [phase?, List.getElem?_append] at found
  split at found
  · exact h isOpen more j _ found rfl
  · simp only [Option.map_eq_some_iff] at found
    obtain ⟨item, found, here⟩ := found
    have last := List.mem_singleton.1 (List.mem_of_getElem? found)
    rw [last] at here
    exact more (waits here)

theorem step (h : Prompt p) (moves : Moves fresh p action q) : Prompt q := by
  have discards (queue : List Nat) (p : Pipeline σ) (h : Prompt p) :
      Prompt (queue.foldl (fun p j => p.setPhase j (.ended .discarded)) p) := by
    induction queue generalizing p with
    | nil => exact h
    | cons i queue ih => exact ih _ (h.setPhase (by simp))
  cases moves with
  | callRefused => exact h.add (Nat.le_refl _) (by simp)
  | callWaits _ _ none => exact h.add (Nat.le_refl _) fun _ => none
  | callHolds => exact h.add (Nat.sub_le ..) (by simp)
  | refuseWaiting | hold | refuseNoted | withdrawWaiting | withdrawCounted | withdrawNoted | setWork | finishWork
  | cancelWork => exact h.setPhase (by simp)
  | refuseGranted | withdrawGranted | withdrawHolding | freeTask | freeCall => exact (h.setPhase (by simp)).release
  | count | note | enqueue | record | flag | discountFailed | discount | finish | drain =>
    exact (h.setPhase (by simp)).congr rfl rfl id
  | shut => exact (h.setPhase (by simp)).congr rfl rfl fun _ => rfl
  | @join i _ ending =>
    have next : Prompt (p.setPhase i (.over ending)) := h.setPhase (by simp)
    cases ending <;> exact next.congr rfl rfl id
  | dropHandle =>
    unfold dropHandle
    split <;> exact h.congr rfl rfl id
  | @spawn i rest =>
    unfold Pipeline.spawn
    dsimp only
    split
    · next item _ => exact (h.setPhase (i := i) (y := .working (fresh item.request)) (by simp)).congr rfl rfl id
    · exact h.congr rfl rfl id
  | fail | abandon => exact (discards p.queue p h).congr rfl rfl id
  | closeBudget => exact h.congr rfl rfl fun _ => rfl
  | _ => exact h.congr rfl rfl id

end Prompt

/-! ## The budget -/

/-- Who holds a permit. -/
inductive Holder
  /-- A call that enqueues an item, or gives its place back. -/
  | call
  /-- The queue, with the item that is in it or is thrown away with it. -/
  | queue
  /-- The task of an item. -/
  | task
deriving DecidableEq

/-- Who holds the permit of an item in this phase. -/
def Phase.holder? : Phase σ → Option Holder
  | .waiting | .freed _ | .finished _ | .over _ => none
  | .granted | .holding | .counted _ | .noted => some .call
  | .queued => some .queue
  | .working _ | .recorded _ | .shut _ | .flagged _ => some .task
  | .ended e | .uncounted e => some (if e.isOfTask then .task else if e = .discarded then .queue else .call)

/-- How many permits this holder has. -/
def held (p : Pipeline σ) (holder : Holder) : Nat := p.tally fun x => x.holder? == some holder

/-- The item was taken and its processing has not come to an end. -/
def Phase.isPending : Phase σ → Bool
  | .queued | .working _ => true
  | _ => false

section Budget

variable {p q : Pipeline σ} {fresh : ArchivalRequest → σ}

/-- Every permit has one holder. -/
theorem tally_hasPermit (p : Pipeline σ) : p.tally Phase.hasPermit = p.held .call + p.held .queue + p.held .task := by
  have each (x : Phase σ) : x.hasPermit.toNat = (x.holder? == some .call).toNat + (x.holder? == some .queue).toNat +
      (x.holder? == some .task).toNat := by
    cases x with
    | ended e | uncounted e => cases e <;> rfl
    | _ => rfl
  simp only [tally, held]
  induction p.items with
  | nil => rfl
  | cons item items ih =>
    have one (b : Bool) : (if b then 1 else 0) = b.toNat := by cases b <;> rfl
    have := each item.phase
    simp only [List.countP_cons, ih, one]
    omega

theorem step_invariant {parallelism : Nat} (h : start parallelism = .ok p) (reach : Reachable (Steps (step fresh)) p q) :
    Coherent q ∧ Orderly q ∧ Balanced parallelism q ∧ Prompt q := by
  refine reach.invariant (P := fun q => Coherent q ∧ Orderly q ∧ Balanced parallelism q ∧ Prompt q)
    ⟨.start h, .start h, .start h, .start h⟩ ?_
  rintro s action t ⟨coherent, orderly, balanced, prompt⟩ step
  have moves := moves_of_step step
  exact ⟨coherent.step moves, orderly.step coherent moves, balanced.step coherent moves, prompt.step moves⟩

/-- An item that is to be enqueued finds room in the queue. -/
theorem Balanced.room {limit : Nat} (h : Balanced limit p) (coherent : Coherent p) {i : Nat}
    (found : p.phase? i = some .noted) : p.queue.length < limit := by
  have absent : i ∉ p.queue := by simp [coherent.mem_queue, found]
  have hold := length_le_tally (P := Phase.hasPermit) (List.nodup_cons.2 ⟨absent, coherent.queue_nodup⟩) fun j member => by
    rcases List.mem_cons.1 member with rfl | member
    · exact ⟨_, found, rfl⟩
    · exact ⟨_, (coherent.mem_queue j).1 member, rfl⟩
  have permits := h.permits
  rw [List.length_cons] at hold
  omega

/-- While somebody waits and the budget is open, nothing has been thrown away with the queue. -/
theorem Orderly.held_queue (h : Orderly p) (coherent : Coherent p) {i : Nat} (waits : p.phase? i = some .waiting)
    (isOpen : p.budgetClosed = false) : p.held .queue = p.queue.length := by
  refine (coherent.length_queue fun j x found => ?_).symm
  have kept : x.ending? ≠ some .discarded := by
    intro discarded
    rcases h.unwanted j x found (.inr discarded) with input | budget
    · have := coherent.quiet input i _ waits
      cases this
    · simp [budget] at isOpen
  cases x with
  | ended e | uncounted e => cases e <;> simp_all [Phase.holder?, Phase.ending?, Ending.isOfTask]
  | _ => simp [Phase.holder?]

/-- Permits are conserved: each is free or held by one call, by the queue or by one task. So no more items than there
are permits are pending or in flight, now or at the peak; whoever has a permit finds room in the queue; and a call waits
only while all permits are held by other calls, by items in the queue or by tasks. -/
theorem permits_conserved (fresh : ArchivalRequest → σ) {parallelism : Nat} (positive : 1 ≤ parallelism) :
    ∃ p, start parallelism = .ok p ∧ ∀ q, Reachable (Steps (step fresh)) p q →
      q.free + q.held .call + q.held .queue + q.held .task = parallelism ∧
      q.tally Phase.isPending ≤ parallelism ∧
      (q.inFlight = q.tally Phase.isCounted ∧ q.inFlight ≤ parallelism ∧ q.peak ≤ parallelism) ∧
      (q.queue.length ≤ parallelism ∧ ∀ i, q.phase? i = some .noted → (q.resume i).isSome = true) ∧
      ∀ i, q.phase? i = some .waiting → q.resume i = none →
        q.held .call + q.queue.length + q.held .task = parallelism := by
  have started : start parallelism = .ok ({ parallelism, free := parallelism } : Pipeline σ) :=
    if_neg (Nat.ne_of_gt positive)
  refine ⟨_, started, fun q reach => ?_⟩
  obtain ⟨coherent, orderly, balanced, prompt⟩ := step_invariant started reach
  have permits := balanced.permits
  rw [tally_hasPermit] at permits
  refine ⟨by omega, ?_, ⟨balanced.gauge, balanced.inFlight_le, balanced.peak⟩, ⟨?_, fun i found => ?_⟩,
    fun i waits stuck => ?_⟩
  · have pending := tally_mono (p := q) (P := Phase.isPending) (Q := Phase.hasPermit)
      (by intro x; cases x <;> simp [Phase.isPending, Phase.hasPermit])
    rw [tally_hasPermit] at pending
    omega
  · have queued := length_le_tally (P := Phase.hasPermit) coherent.queue_nodup
      fun j member => ⟨_, (coherent.mem_queue j).1 member, rfl⟩
    rw [tally_hasPermit] at queued
    omega
  · have room := balanced.room coherent found
    rw [← balanced.parallelism] at room
    simp only [resume, found, Option.bind_eq_bind, Option.bind_some]
    split
    · rfl
    · rfl
  · have isOpen : q.budgetClosed = false := by simpa [resume, waits] using stuck
    have none : q.free = 0 := by
      by_contra some
      exact prompt isOpen some i _ waits rfl
    rw [← orderly.held_queue coherent waits isOpen]
    omega

/-! ## An example -/

/-- With one permit the second call waits while the first item has its task. -/
def exampleSteps : List (Action Unit) :=
  let request : ArchivalRequest := ⟨.ofRandom [], 1, ⟨⟨"only", by decide⟩, none, []⟩⟩
  [.call request, .resume 0, .resume 0, .resume 0, .call request, .wake, .drive, .drive, .drive]

theorem permits_conserved_example : ∃ p q : Pipeline Unit, start 1 = .ok p ∧
    follow (fun _ _ => true) (step fun _ => ()) p exampleSteps = some q ∧
    q.phase? 0 = some (.working ()) ∧ q.phase? 1 = some .waiting ∧ q.resume 1 = none ∧
    q.free + q.held .call + q.held .queue + q.held .task = 1 ∧ q.held .call + q.queue.length + q.held .task = 1 := by
  obtain ⟨p, started, conserved⟩ := permits_conserved (fun _ => ()) (Nat.le_refl 1)
  obtain rfl : p = { parallelism := 1, free := 1 } := by cases started; rfl
  have possible : (follow (fun _ _ => true) (step fun _ => ()) { parallelism := 1, free := 1 } exampleSteps).any
      (fun q => q.phase? 0 == some (.working ()) && q.phase? 1 == some .waiting && (q.resume 1).isNone) = true := by
    decide +kernel
  obtain ⟨q, followed, here⟩ := (Option.any_eq_true ..).1 possible
  simp only [Bool.and_eq_true, beq_iff_eq, Option.isNone_iff_eq_none] at here
  obtain ⟨⟨works, waits⟩, stuck⟩ := here
  obtain ⟨total, -, -, -, held⟩ := conserved q (reachable_of_follow followed fun _ _ _ => trivial).of_restricted
  exact ⟨_, q, started, followed, works, waits, stuck, total, held 1 waits stuck⟩

end Budget
end ChainArchive.Pipeline
