import ChainArchive.Proofs.Pipeline.Signals

/-!
# Failures that have been announced

An item that has failed closes the budget before it raises the flag, and both
before it gives its permit back. So whoever finds it past these places finds the
budget closed and the flag raised, and whoever has no permit by then gets none.
-/

namespace ChainArchive.Pipeline
set_option autoImplicit false

variable {σ : Type}

/-- How much of its failure an item has announced: nothing, that the budget is closed, or also the flag. -/
def Phase.announced : Phase σ → Nat
  | .shut _ => 1
  | .flagged _ => 2
  | .uncounted (.failed _) | .freed (.failed _) | .finished (.failed _) | .over (.failed _) => 2
  | _ => 0

/-- The failure of the item has closed the budget and raised the flag. -/
def Phase.hasFlagged (x : Phase σ) : Bool := x.announced == 2

/-- Whoever has announced a failure is not done. -/
theorem Phase.isDone_of_hasFlagged {x : Phase σ} (flagged : x.hasFlagged = true) : x.isDone = false := by
  rw [hasFlagged, beq_iff_eq] at flagged
  unfold announced at flagged
  split at flagged <;> first | rfl | cases flagged

/-- What items have announced is so, and a pipeline whose driver was told to stop has the flag raised. -/
structure Announced (p : Pipeline σ) : Prop where
  shut : ∀ i x, p.phase? i = some x → 1 ≤ x.announced → p.budgetClosed = true
  flagged : ∀ i x, p.phase? i = some x → 2 ≤ x.announced → p.raised = true
  abandoned : p.abandoned = true → p.raised = true

namespace Announced

variable {p q : Pipeline σ} {fresh : ArchivalRequest → σ} {action : Action σ} {i : Nat} {x y : Phase σ}

theorem start {parallelism : Nat} (h : Pipeline.start parallelism = .ok p) : Announced p := by
  unfold Pipeline.start at h
  split at h <;> cases h
  constructor <;> simp [phase?]

/-- The flags stay or are set. -/
theorem congr (h : Announced p) (items : q.items = p.items) (closed : p.budgetClosed = true → q.budgetClosed = true)
    (raised : p.raised = true → q.raised = true) (abandoned : q.abandoned = true → p.abandoned = true ∨ q.raised = true) :
    Announced q := by
  have phase : ∀ j, q.phase? j = p.phase? j := by simp [phase?, items]
  refine ⟨fun j z found told => ?_, fun j z found told => ?_, fun told => ?_⟩
  · exact closed (h.shut j z (phase j ▸ found) told)
  · exact raised (h.flagged j z (phase j ▸ found) told)
  · exact (abandoned told).elim (fun told => raised (h.abandoned told)) id

/-- An item goes into a phase that announces nothing. -/
theorem setPhase (h : Announced p) (silent : y.announced = 0) : Announced (p.setPhase i y) := by
  refine ⟨forall_setPhase h.shut ?_, forall_setPhase h.flagged ?_, h.abandoned⟩
  · intro told
    omega
  · intro told
    omega

/-- An item goes into a phase that announces no more than its last one did. -/
theorem keeps (h : Announced p) (found : p.phase? i = some x) (same : y.announced ≤ x.announced) :
    Announced (p.setPhase i y) :=
  ⟨forall_setPhase h.shut fun told => h.shut i x found (by omega),
    forall_setPhase h.flagged fun told => h.flagged i x found (by omega), h.abandoned⟩

theorem release (h : Announced p) : Announced p.release := by
  rcases release_cases p with ⟨-, same⟩ | ⟨j, -, -, granted⟩
  · rw [same]
    exact h.congr rfl id id .inl
  · rw [granted]
    exact h.setPhase rfl

theorem add (h : Announced p) {request : ArchivalRequest} {f : Nat} (silent : y.announced = 0) :
    Announced { p with items := p.items ++ [⟨request, y⟩], free := f } := by
  have old : ∀ j z, Pipeline.phase? { p with items := p.items ++ [⟨request, y⟩], free := f } j = some z →
      p.phase? j = some z ∨ z.announced = 0 := by
    intro j z found
    simp only [phase?, List.getElem?_append] at found
    split at found
    · exact .inl found
    · simp only [Option.map_eq_some_iff] at found
      obtain ⟨item, found, rfl⟩ := found
      rw [List.mem_singleton.1 (List.mem_of_getElem? found)]
      exact .inr silent
  refine ⟨fun j z found told => ?_, fun j z found told => ?_, h.abandoned⟩
  · exact h.shut j z ((old j z found).resolve_right (by omega)) told
  · exact h.flagged j z ((old j z found).resolve_right (by omega)) told

theorem step (h : Announced p) (moves : Moves fresh p action q) : Announced q := by
  have discards (queue : List Nat) (p : Pipeline σ) (h : Announced p) :
      Announced (queue.foldl (fun p j => p.setPhase j (.ended .discarded)) p) := by
    induction queue generalizing p with
    | nil => exact h
    | cons i queue ih => exact ih _ (h.setPhase rfl)
  cases moves with
  | callRefused | callWaits | callHolds => exact h.add rfl
  | refuseWaiting | hold | refuseNoted | withdrawWaiting | withdrawCounted | withdrawNoted | setWork | finishWork
  | cancelWork => exact h.setPhase rfl
  | refuseGranted | withdrawGranted | withdrawHolding => exact (h.setPhase rfl).release
  | count | note | enqueue | record => exact (h.setPhase rfl).congr rfl id id .inl
  -- a failed item goes through its announcements in order
  | @shut i cause =>
    refine ⟨fun _ _ _ _ => rfl, forall_setPhase (P := fun z => 2 ≤ z.announced → p.raised = true) h.flagged ?_, h.abandoned⟩
    simp [Phase.announced]
  | @flag i cause found =>
    refine ⟨forall_setPhase (P := fun z => 1 ≤ z.announced → p.budgetClosed = true) h.shut ?_, fun _ _ _ _ => rfl,
      fun _ => rfl⟩
    exact fun _ => h.shut i _ found (by simp [Phase.announced])
  | discountFailed found => exact (h.keeps found (by simp [Phase.announced])).congr rfl id id .inl
  | @discount i ending found own =>
    cases ending with
    | failed cause => exact absurd rfl (own cause)
    | _ => exact (h.setPhase rfl).congr rfl id id .inl
  | @freeTask i ending found | @freeCall i ending found =>
    exact (h.keeps found (by cases ending <;> simp [Phase.announced])).release
  | @finish i ending found | @drain i _ ending _ _ _ found =>
    exact (h.keeps found (by cases ending <;> simp [Phase.announced])).congr rfl id id .inl
  | @join i _ ending _ _ found =>
    have next : Announced (p.setPhase i (.over ending)) := h.keeps found (by cases ending <;> simp [Phase.announced])
    cases ending <;> exact next.congr rfl id id .inl
  | dropHandle =>
    unfold dropHandle
    split
    · exact h.congr rfl id id .inl
    · exact h.congr rfl id (fun _ => rfl) fun _ => .inr rfl
  | @spawn i rest =>
    unfold Pipeline.spawn
    dsimp only
    split
    · next item _ => exact (h.setPhase (i := i) (y := .working (fresh item.request)) rfl).congr rfl id id .inl
    · exact h.congr rfl id id .inl
  | fail | abandon => exact (discards p.queue p h).congr rfl id id .inl
  | closeBudget => exact h.congr rfl (fun _ => rfl) id .inl
  | abort | raiseFlag => exact h.congr rfl id (fun _ => rfl) .inl
  | _ => exact h.congr rfl id id .inl

end Announced

/-! ## Calls without a permit -/

/-- The call has no permit and will not get one: it waits in vain, was refused or was given up. -/
def Phase.isDenied : Phase σ → Bool
  | .waiting | .granted | .over .refused => true
  | x => x.ending? == some .withdrawn

/-- Once the budget is closed a call that has no permit gets none. -/
theorem Phase.isDenied_of_moved {p : Pipeline σ} {first : σ} {action : Action σ} {i : Nat} {x y : Phase σ}
    (h : Phase.Moved p first action i x y) (closed : p.budgetClosed = true) (denied : x.isDenied = true) :
    y.isDenied = true := by
  cases h with
  | same => exact denied
  | next step =>
    cases step with
    | grant isOpen | hold isOpen => simp [closed] at isOpen
    | refuseWaiting | refuseGranted => rfl
    | @discount ending | @freeTask ending | @freeCall ending | finish ending | join ending =>
      cases ending <;> first | rfl | cases denied
    | _ => cases denied
  | withdraw _ _ _ given => obtain rfl | rfl := given <;> rfl
  | work | done | record => cases denied

/-- Once the budget is closed nobody who has no permit gets one: those who wait do not, and new calls are refused. -/
theorem isDenied_of_moves {p q : Pipeline σ} {fresh : ArchivalRequest → σ} {action : Action σ} {i : Nat} {y : Phase σ}
    (coherent : Coherent p) (closed : p.budgetClosed = true) (moves : Moves fresh p action q)
    (before : ∀ x, p.phase? i = some x → x.isDenied = true) (found : q.phase? i = some y) : y.isDenied = true := by
  obtain ⟨request, inside⟩ := items_of_phase? found
  obtain ⟨x, there, moved⟩ | ⟨here, called, -⟩ := origin_of_moves coherent moves inside
  · exact Phase.isDenied_of_moved moved closed (before x (phase?_of_items there))
  · subst here called
    cases moves with
    | callRefused =>
      obtain rfl : Phase.over .refused = y := by simpa [phase?] using found
      rfl
    | callWaits _ isOpen | callHolds _ isOpen => simp [closed] at isOpen

/-- A call that waits in vain is refused as soon as it goes on. -/
theorem refused_of_waiting {p : Pipeline σ} {i : Nat} {x : Phase σ} (closed : p.budgetClosed = true)
    (found : p.phase? i = some x) (waits : x = .waiting ∨ x = .granted) :
    ∃ q, p.resume i = some q ∧ q.accepted? i = some false := by
  rcases waits with rfl | rfl
  · refine ⟨p.setPhase i (.over .refused), by simp [resume, found, closed], ?_⟩
    simp [accepted?, found]
  · refine ⟨(p.setPhase i (.over .refused)).release, by simp [resume, found, closed], ?_⟩
    have kept : (p.setPhase i (.over .refused)).release.phase? i = some (.over .refused) := by
      rcases release_cases (p.setPhase i (.over .refused)) with ⟨-, same⟩ | ⟨j, -, isOpen, -⟩
      · rw [same]
        show (p.setPhase i (.over .refused)).phase? i = _
        simp [found]
      · change p.budgetClosed = false at isOpen
        simp [closed] at isOpen
    simp [accepted?, kept]

end ChainArchive.Pipeline
