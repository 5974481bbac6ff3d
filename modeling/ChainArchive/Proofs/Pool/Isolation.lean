import ChainArchive.Proofs.Pool.ExactlyOnce
import ChainArchive.Proofs.Pool.Losses

/-!
# Faults stay where they are

A pool is as good as its workers are one by one. Two pools that differ in one
worker and in the asks dealt to it only are the same to everybody else: what the
others can do in the one they can do in the other, and what that worker does
touches nobody else. So a run in which a worker is lost is, for the other workers
and their asks, a run in which this worker is there. Whoever is with the lost
worker and has no answer yet is told that the pool is closed, or gives up first.
-/

namespace ChainArchive.Pool
set_option autoImplicit false

variable {ρ α ε : Type} {p q r s : Pool ρ α ε} {p' q' : Pool ρ α ε} {action : Action ρ α ε}
  {actions : List (Action ρ α ε)} {i : Nat}

/-! ## The part of one worker -/

/-- The action is one of worker `i`, in a pool of so many, or of an ask that is dealt to it. -/
def Action.isOf (size i : Nat) : Action ρ α ε → Bool
  | .take k | .finish k _ => k == i
  | .enter k | .receive k | .notice k | .expire k | .cancel k => turnOf size k == i
  | .ask .. | .close => false

/-- The pools are the same but for worker `i` and what has become of the asks dealt to it. -/
structure SameBut (i : Nat) (p q : Pool ρ α ε) : Prop where
  name : p.name = q.name
  closing : p.closing = q.closing
  size : p.size = q.size
  length : p.asks.length = q.asks.length
  asks : ∀ k, turnOf p.size k ≠ i → p.asks[k]? = q.asks[k]?
  workers : ∀ k, k ≠ i → p.workers[k]? = q.workers[k]?

namespace SameBut

theorem refl (i : Nat) (p : Pool ρ α ε) : SameBut i p p := ⟨rfl, rfl, rfl, rfl, fun _ _ => rfl, fun _ _ => rfl⟩

theorem symm (h : SameBut i p q) : SameBut i q p :=
  ⟨h.name.symm, h.closing.symm, h.size.symm, h.length.symm, fun k other => (h.asks k (h.size ▸ other)).symm,
    fun k other => (h.workers k other).symm⟩

theorem trans (h : SameBut i p q) (h' : SameBut i q r) : SameBut i p r :=
  ⟨h.name.trans h'.name, h.closing.trans h'.closing, h.size.trans h'.size, h.length.trans h'.length,
    fun k other => (h.asks k other).trans (h'.asks k (h.size ▸ other)),
    fun k other => (h.workers k other).trans (h'.workers k other)⟩

/-! ### The same change on both sides -/

theorem begin (h : SameBut i p q) (request : ρ) (timeout : Span) :
    SameBut i (p.begin request timeout) (q.begin request timeout) := by
  have next : p.nextWorker = q.nextWorker := by rw [nextWorker, nextWorker, h.size, h.length]
  refine ⟨h.name, h.closing, h.size, by simp [Pool.begin, h.length], fun k other => ?_, h.workers⟩
  simp only [Pool.begin, List.getElem?_append, h.length, next, h.asks k other]

theorem setPhase (h : SameBut i p q) (k : Nat) (x : Phase α ε) : SameBut i (p.setPhase k x) (q.setPhase k x) := by
  refine ⟨h.name, h.closing, h.size, by simp [Pool.setPhase, h.length], fun j other => ?_, h.workers⟩
  simp only [Pool.setPhase, List.getElem?_modify, h.asks j other]

theorem setWorker (h : SameBut i p q) (k : Nat) (w : Worker α ε) : SameBut i (p.setWorker k w) (q.setWorker k w) := by
  have size : p.workers.length = q.workers.length := h.size
  refine ⟨h.name, h.closing, by simpa [Pool.setWorker, Pool.size] using size, h.length, fun j other => ?_,
    fun j other => ?_⟩
  · exact h.asks j (by simpa [Pool.setWorker, Pool.size] using other)
  · simp only [Pool.setWorker, List.getElem?_set, size, h.workers j other]

/-- What is logged does not count. -/
theorem say (h : SameBut i p q) (event event' : Event) : SameBut i (p.say event) (q.say event') :=
  ⟨h.name, h.closing, h.size, h.length, h.asks, h.workers⟩

theorem conclude (h : SameBut i p q) (worker k : Nat) (answer : Except ε α) (other : turnOf p.size k ≠ i) :
    SameBut i (p.conclude worker k answer) (q.conclude worker k answer) := by
  unfold Pool.conclude
  rw [← h.asks k other]
  split
  · exact h.setPhase k _
  · exact h.say _ _

/-! ### A change of the part that does not count -/

theorem of_setPhase {k : Nat} {x : Phase α ε} (own : turnOf p.size k = i) : SameBut i p (p.setPhase k x) := by
  refine ⟨rfl, rfl, rfl, by simp [Pool.setPhase], fun j other => ?_, fun _ _ => rfl⟩
  have ne : k ≠ j := by
    rintro rfl
    exact other own
  simp [Pool.setPhase, ne]

theorem of_setWorker (w : Worker α ε) : SameBut i p (p.setWorker i w) := by
  refine ⟨rfl, rfl, by simp [Pool.setWorker, Pool.size], rfl, fun _ _ => rfl, fun k other => ?_⟩
  rw [Pool.setWorker, List.getElem?_set_ne (Ne.symm other)]

theorem of_say (event : Event) : SameBut i p (p.say event) := ⟨rfl, rfl, rfl, rfl, fun _ _ => rfl, fun _ _ => rfl⟩

theorem of_conclude {worker k : Nat} {answer : Except ε α} (own : turnOf p.size k = i) :
    SameBut i p (p.conclude worker k answer) := by
  unfold Pool.conclude
  split
  · exact of_setPhase own
  · exact of_say _

end SameBut

theorem size_setWorker (k : Nat) (w : Worker α ε) : (p.setWorker k w).size = p.size := List.length_set

/-- What worker `i` does, or an ask dealt to it, touches nobody else. -/
theorem Regular.sameBut_of_own (h : Regular p) (moves : Moves p action q) (own : action.isOf p.size i = true) :
    SameBut i p q := by
  cases moves with
  | ask | close => cases own
  | @enter k a w found there =>
    have mine : turnOf p.size k = i := beq_iff_eq.1 own
    obtain rfl : a.worker = i := (h.dealt k a found).trans mine
    exact (SameBut.of_setPhase mine).trans (SameBut.of_setWorker _)
  | take =>
    obtain rfl := beq_iff_eq.1 own
    exact .of_setWorker _
  | panic =>
    obtain rfl := beq_iff_eq.1 own
    exact .of_setWorker _
  | finish there busy =>
    obtain rfl := beq_iff_eq.1 own
    exact (SameBut.of_setWorker _).trans (.of_conclude ((size_setWorker ..).symm ▸ h.turnOf_of_current there busy))
  | receive | notice | cancel => exact .of_setPhase (beq_iff_eq.1 own)
  | expire => exact (SameBut.of_setPhase (beq_iff_eq.1 own)).trans (.of_say _)

/-- What the others do, they can do whatever has become of worker `i`, and they do not touch it. -/
theorem SameBut.moves (h : SameBut i p p') (regular : Regular p) (moves : Moves p action q)
    (other : action.isOf p.size i = false) (isOpen : action ≠ .close) :
    ∃ q', Moves p' action q' ∧ SameBut i q q' ∧ q'.workers[i]? = p'.workers[i]? := by
  cases moves with
  | close => exact absurd rfl isOpen
  | @ask request timeout ready => exact ⟨_, .ask (h.closing ▸ ready), h.begin request timeout, rfl⟩
  | @enter k a w found there waits alive room =>
    have ours : turnOf p.size k ≠ i := beq_eq_false_iff_ne.1 other
    have worker : a.worker ≠ i := regular.dealt k a found ▸ ours
    refine ⟨_, .enter (h.asks k ours ▸ found) (h.workers _ worker ▸ there) waits alive room,
      (h.setPhase k _).setWorker _ _, ?_⟩
    exact List.getElem?_set_ne worker
  | take there waiting idle alive =>
    have ours := beq_eq_false_iff_ne.1 other
    exact ⟨_, .take (h.workers _ ours ▸ there) waiting idle alive, h.setWorker _ _, List.getElem?_set_ne ours⟩
  | finish there busy answers =>
    have ours := beq_eq_false_iff_ne.1 other
    refine ⟨_, .finish (h.workers _ ours ▸ there) busy answers, (h.setWorker _ _).conclude _ _ _ ?_, ?_⟩
    · rw [size_setWorker, regular.turnOf_of_current there busy]
      exact ours
    · rw [workers_conclude]
      exact List.getElem?_set_ne ours
  | panic there busy =>
    have ours := beq_eq_false_iff_ne.1 other
    exact ⟨_, .panic (h.workers _ ours ▸ there) busy, h.setWorker _ _, List.getElem?_set_ne ours⟩
  | receive found answered =>
    have ours := beq_eq_false_iff_ne.1 other
    exact ⟨_, .receive (h.asks _ ours ▸ found) answered, h.setPhase _ _, rfl⟩
  | @notice k a w found there waits gone =>
    have ours : turnOf p.size k ≠ i := beq_eq_false_iff_ne.1 other
    have worker : a.worker ≠ i := regular.dealt k a found ▸ ours
    exact ⟨_, .notice (h.asks k ours ▸ found) (h.workers _ worker ▸ there) waits gone, h.name ▸ h.setPhase k _, rfl⟩
  | expire found waits =>
    have ours := beq_eq_false_iff_ne.1 other
    exact ⟨_, .expire (h.asks _ ours ▸ found) waits, h.name ▸ (h.setPhase _ _).say _ _, rfl⟩
  | cancel found pending =>
    have ours := beq_eq_false_iff_ne.1 other
    exact ⟨_, .cancel (h.asks _ ours ▸ found) pending, h.setPhase _ _, rfl⟩

/-! ## Runs -/

/-- The moves of a pool whose workers do with a request what `handle` says, whichever of them has it. -/
abbrev Obeying [DecidableEq α] [DecidableEq ε] (handle : ρ → Handling α ε) :
    Pool ρ α ε → Action ρ α ε → Pool ρ α ε → Prop :=
  Restricted (fun p action => p.obeys (fun _ request => some (handle request)) action = true) (Steps step)

theorem closing_of_moves (moves : Moves p action q) (closing : p.closing = true) : q.closing = true := by
  cases moves with
  | finish =>
    unfold conclude
    split <;> exact closing
  | ask isOpen => simp [closing] at isOpen
  | close => rfl
  | _ => exact closing

section Runs

variable [DecidableEq α] [DecidableEq ε] {handle : ρ → Handling α ε}

theorem closing_of_path (path : Path (Obeying handle) p actions q) (closing : p.closing = true) : q.closing = true :=
  path.invariant (P := fun q => q.closing = true) closing fun _ _ _ closing move =>
    closing_of_moves (moves_of_step move.2) closing

/-- A worker that obeys does so whatever has become of worker `i`. -/
theorem SameBut.obeys (h : SameBut i p p') (regular : Regular p) (other : action.isOf p.size i = false)
    {handler : Handler ρ α ε} (obeys : p.obeys handler action = true) : p'.obeys handler action = true := by
  cases action with
  | finish k handling =>
    have ours : k ≠ i := beq_eq_false_iff_ne.1 other
    simp only [Pool.obeys, ← h.workers k ours] at obeys ⊢
    cases busy : (p.workers[k]?).bind (·.current) with
    | none => rfl
    | some j =>
      obtain ⟨w, there, current⟩ := Option.bind_eq_some_iff.1 busy
      rw [busy] at obeys
      simpa only [h.asks j (regular.turnOf_of_current there current ▸ ours)] using obeys
  | _ => rfl

/-- A run of an open pool is, for all but worker `i` and the asks dealt to it, one in which that worker does nothing. -/
theorem SameBut.path (h : SameBut i p p') (regular : Regular p) (path : Path (Obeying handle) p actions q)
    (isOpen : q.closing = false) :
    ∃ q', Path (Obeying handle) p' (actions.filter fun action => !action.isOf p.size i) q' ∧ SameBut i q q' ∧
      q'.workers[i]? = p'.workers[i]? := by
  induction path generalizing p' with
  | nil => exact ⟨p', .nil p', h, rfl⟩
  | @cons p p₁ q action actions first rest ih =>
    have moves := moves_of_step first.2
    have regular₁ := regular.moves moves
    rw [size_of_moves moves] at ih
    cases own : action.isOf p.size i with
    | true =>
      -- the step is left out
      have same := (regular.sameBut_of_own moves own).symm.trans h
      rw [List.filter_cons_of_neg (by simp [own])]
      exact ih same regular₁ isOpen
    | false =>
      have shared : action ≠ .close := by
        rintro rfl
        cases moves with
        | close => simp [closing_of_path rest rfl] at isOpen
      obtain ⟨p₁', moves', same, stays⟩ := h.moves regular moves own shared
      obtain ⟨q', further, same, kept⟩ := ih same regular₁ isOpen
      rw [List.filter_cons_of_pos (by simp [own])]
      exact ⟨q', .cons ⟨h.obeys regular own first.1, step_of_moves moves'⟩ further, same, kept.trans stays⟩

end Runs
end ChainArchive.Pool
