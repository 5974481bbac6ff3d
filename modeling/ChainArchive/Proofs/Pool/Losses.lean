import ChainArchive.Proofs.Pool.Routing

/-!
# Lost workers

A worker is lost by a panic and by nothing else: a worker that has refused
requests is there as one that has replied to them. The request that made it panic
is the last one that a lost worker has handled. Nothing is with it any more, and
nothing comes to it.
-/

namespace ChainArchive.Pool
set_option autoImplicit false

variable {ρ α ε : Type} {p q r : Pool ρ α ε} {action : Action ρ α ε}

/-! ## The books of a lost worker -/

/-- A worker is there as long as nothing that it handled ended in a panic; afterwards it has nothing. -/
structure Worker.Sound (w : Worker α ε) : Prop where
  calm : w.alive = true → ∀ entry ∈ w.handled, entry.2 ≠ .panic
  lost : w.alive = false → w.mailbox = [] ∧ w.current = none ∧
    ∃ done i, w.handled = done ++ [(i, .panic)] ∧ ∀ entry ∈ done, entry.2 ≠ .panic

namespace Worker.Sound

variable {w v : Worker α ε} {arrival : Option Nat}

theorem alive_of_current (h : w.Sound) {i : Nat} (busy : w.current = some i) : w.alive = true := by
  cases alive : w.alive with
  | true => rfl
  | false =>
    obtain ⟨-, idle, -⟩ := h.lost alive
    rw [idle] at busy
    cases busy

theorem alive_iff (h : w.Sound) : w.alive = true ↔ ∀ entry ∈ w.handled, entry.2 ≠ .panic := by
  refine ⟨h.calm, fun calm => ?_⟩
  cases alive : w.alive with
  | true => rfl
  | false =>
    obtain ⟨-, -, done, i, handled, -⟩ := h.lost alive
    exact absurd rfl (calm (i, .panic) (by simp [handled]))

theorem next (h : w.Sound) (next : w.Next arrival v) : v.Sound := by
  cases next with
  | same => exact h
  | enter alive => exact ⟨h.calm, fun gone => absurd alive (by simpa using gone)⟩
  | take waiting =>
    refine ⟨h.calm, fun gone => ?_⟩
    obtain ⟨nothing, -⟩ := h.lost gone
    rw [nothing] at waiting
    cases waiting
  | @finish i handling answer busy answers =>
    have alive := h.alive_of_current busy
    refine ⟨fun _ entry member => ?_, fun gone => absurd alive (by simpa using gone)⟩
    rcases List.mem_append.1 member with before | now
    · exact h.calm alive entry before
    · rw [List.mem_singleton.1 now]
      rintro rfl
      cases answers
  | @panic i busy =>
    exact ⟨fun alive => absurd alive Bool.false_ne_true,
      fun _ => ⟨rfl, rfl, w.handled, i, rfl, h.calm (h.alive_of_current busy)⟩⟩

theorem isIdle_of_lost (h : w.Sound) (gone : w.alive = false) : w.isIdle = true := by
  obtain ⟨empty, free, -⟩ := h.lost gone
  simp [isIdle, empty, free]

/-- A lost worker stays as it is. -/
theorem stays (h : w.Sound) (gone : w.alive = false) (next : w.Next arrival v) : v = w := by
  obtain ⟨empty, idle, -⟩ := h.lost gone
  cases next with
  | same => rfl
  | enter alive => simp [alive] at gone
  | take waiting => simp [empty] at waiting
  | finish busy | panic busy => simp [idle] at busy

end Worker.Sound

/-! ## What holds in every state -/

/-- The asks are dealt in turn, the books are kept, and a worker is lost by a panic only. -/
structure Regular (p : Pool ρ α ε) : Prop where
  dealt : Dealt p
  books : ∃ actions, Books p actions
  sound : ∀ (k : Nat) (w : Worker α ε), p.workers[k]? = some w → w.Sound

namespace Regular

theorem start {name : String} {size : Nat} (h : (Pool.start name size).result = .ok p) : Regular p := by
  refine ⟨.start h, ⟨[], .start h⟩, fun k w there => ?_⟩
  unfold Pool.start at h
  split at h
  · cases h
  · cases h
    rw [List.eq_of_mem_replicate (List.mem_of_getElem? there)]
    exact ⟨by simp, by simp⟩

theorem moves (h : Regular p) (moves : Moves p action q) : Regular q := by
  refine ⟨h.dealt.moves moves, ?_, fun k v there => ?_⟩
  · obtain ⟨actions, books⟩ := h.books
    exact ⟨_, books.step moves⟩
  · obtain ⟨w, here, next⟩ := worker_of_moves moves there
    exact (h.sound k w here).next next

theorem reachable (h : Regular p) (reach : Reachable (Steps step) p q) : Regular q :=
  reach.invariant h fun _ _ _ h step => h.moves (moves_of_step step)

/-- An ask whose request is with a worker was dealt to this worker. -/
theorem turnOf_of_current (h : Regular p) {k i : Nat} {w : Worker α ε} (there : p.workers[k]? = some w)
    (busy : w.current = some i) : turnOf p.size i = k := by
  obtain ⟨actions, books⟩ := h.books
  obtain ⟨a, found, rfl⟩ := books.dealt there busy
  exact (h.dealt i a found).symm

/-- A worker that is lost is so for good, and nothing is passed to it. -/
theorem lost_moves (h : Regular p) (moves : Moves p action q) {k : Nat} {w : Worker α ε} (there : p.workers[k]? = some w)
    (gone : w.alive = false) : q.workers[k]? = some w := by
  have bound := (List.getElem?_eq_some_iff.1 there).1
  rw [← length_workers moves] at bound
  obtain ⟨w', here, next⟩ := worker_of_moves moves (List.getElem?_eq_getElem bound)
  rw [there, Option.some.injEq] at here
  subst here
  rw [List.getElem?_eq_getElem bound, (h.sound k w there).stays gone next]

theorem lost_reachable (h : Regular p) (reach : Reachable (Steps step) p q) {k : Nat} {w : Worker α ε}
    (there : p.workers[k]? = some w) (gone : w.alive = false) : q.workers[k]? = some w := by
  have kept : Regular q ∧ q.workers[k]? = some w := by
    refine reach.invariant (P := fun q => Regular q ∧ q.workers[k]? = some w) ⟨h, there⟩ ?_
    rintro _ _ _ ⟨h, there⟩ step
    exact ⟨h.moves (moves_of_step step), h.lost_moves (moves_of_step step) there gone⟩
  exact kept.2

end Regular
end ChainArchive.Pool
